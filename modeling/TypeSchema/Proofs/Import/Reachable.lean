import Mathlib.Data.Set.Function
import TypeSchema.Proofs.Import.Isomorphic

/-!
# What an import depends on

An import asks about the types that its root leads to, and uses their handles as keys alone. So two
roots are imported alike if the types that they lead to match, whatever their handles are, and
whatever else the two stores hold.
-/

namespace TypeSchema

namespace TypeData

/-- The handles that occur in data, in order. -/
def handles : TypeData → List TypeId
  | intrinsic _ | literal _ | pending => []
  | composite _ members => members
  | array element => [element]
  | tuple elements => elements.map (·.type)
  | object properties indexes =>
    properties.map (·.type) ++ indexes.flatMap fun signature => [signature.key, signature.value]
  | callable signatures =>
    signatures.flatMap fun signature => signature.parameters.map (·.type) ++ [signature.returns]

/-- Data with every handle renamed. -/
def rename (f : TypeId → TypeId) : TypeData → TypeData
  | composite connective members => composite connective (members.map f)
  | array element => array (f element)
  | tuple elements => tuple (elements.map fun element => { element with type := f element.type })
  | object properties indexes =>
    object (properties.map fun property => { property with type := f property.type })
      (indexes.map fun signature =>
        { signature with key := f signature.key, value := f signature.value })
  | callable signatures =>
    callable (signatures.map fun signature =>
      ⟨signature.parameters.map fun parameter => { parameter with type := f parameter.type },
        f signature.returns⟩)
  | data => data

variable {R : TypeId → TypeId → Prop} {f : TypeId → TypeId}

/-- Elements that are each related to what they are mapped to are so place by place. -/
lemma forall₂_map_right {α β : Type} {P : α → β → Prop} {g : α → β} {as : List α}
    (h : ∀ a ∈ as, P a (g a)) : List.Forall₂ P as (as.map g) := by
  rw [List.forall₂_map_right_iff]
  exact List.forall₂_same.2 h

/-- Where every handle is related to the one it is renamed to, data and the renamed data are
alike. -/
lemma alike_rename {data : TypeData} (h : ∀ id ∈ data.handles, R id (f id)) :
    data.Alike R (data.rename f) := by
  cases data with
  | intrinsic => exact .intrinsic
  | literal => exact .literal
  | composite connective members => exact .composite (forall₂_map_right h)
  | array element => exact .array (h element (List.mem_singleton_self _))
  | tuple elements =>
    exact .tuple (forall₂_map_right fun element m => .of (h _ (List.mem_map_of_mem m)))
  | object properties indexes =>
    refine .object (forall₂_map_right fun property m => .of ?_)
      (forall₂_map_right fun signature m => ?_)
    · exact h _ (List.mem_append_left _ (List.mem_map_of_mem m))
    · have part : ∀ id ∈ [signature.key, signature.value], R id (f id) := fun id mi =>
        h id (List.mem_append_right _ (List.mem_flatMap.2 ⟨signature, m, mi⟩))
      exact .of (part _ (by simp)) (part _ (by simp))
  | callable signatures =>
    refine .callable (forall₂_map_right fun signature m => ?_)
    have part : ∀ id ∈ signature.parameters.map (·.type) ++ [signature.returns], R id (f id) :=
      fun id mi => h id (List.mem_flatMap.2 ⟨signature, m, mi⟩)
    refine .of (forall₂_map_right fun parameter mp => .of ?_) (part _ (by simp))
    exact part _ (List.mem_append_left _ (List.mem_map_of_mem mp))
  | pending => exact .pending

/-- The handles in renamed data are the renamed handles. -/
lemma handles_rename (data : TypeData) : (data.rename f).handles = data.handles.map f := by
  cases data <;> simp [handles, rename, List.map_flatMap, List.flatMap_map, Function.comp_def]

/-- Renaming every handle to itself changes nothing. -/
lemma rename_self (data : TypeData) : data.rename (fun id => id) = data := by
  cases data <;> simp [rename]

end TypeData

namespace TypeStore

variable {store store' : TypeStore} {root root' id : TypeId} {f : TypeId → TypeId}

/-- The handles that occur in what a handle stands for. -/
def parts (store : TypeStore) (id : TypeId) : List TypeId :=
  match store.lookup id with
  | some data => data.handles
  | none => []

/-- The type is the root, or occurs in a type that the root leads to. -/
def LeadsTo (store : TypeStore) : TypeId → TypeId → Prop :=
  Relation.ReflTransGen fun id part => part ∈ store.parts id

/-- A list of types that is closed under their parts holds what its members lead to. -/
lemma LeadsTo.mem_of_closed {ids : List TypeId} (h : store.LeadsTo root id) (m : root ∈ ids)
    (closed : ∀ id ∈ ids, ∀ part ∈ store.parts id, part ∈ ids) : id ∈ ids := by
  induction h with
  | refl => exact m
  | tail _ part ih => exact closed _ ih _ part

/-- Renaming matches the types that a root leads to in one store with those that a root leads to in
another: it is one to one, and keeps alias names and data, but for the handles in the data. -/
structure Corresponds (store store' : TypeStore) (root root' : TypeId) (f : TypeId → TypeId) :
    Prop where
  bijective : Set.BijOn f {id | store.LeadsTo root id} {id | store'.LeadsTo root' id}
  roots : f root = root'
  lookup : ∀ id, store.LeadsTo root id → store'.lookup (f id) = (store.lookup id).map (·.rename f)
  aliasName? : ∀ id, store.LeadsTo root id → store'.aliasName? (f id) = store.aliasName? id

/-- The parts of a renamed type are its renamed parts. -/
lemma parts_rename (data : store'.lookup (f id) = (store.lookup id).map (·.rename f)) :
    store'.parts (f id) = (store.parts id).map f := by
  unfold parts
  rw [data]
  cases store.lookup id with
  | none => rfl
  | some data => exact data.handles_rename

/-- A renaming that is one to one and keeps alias names and data matches all that the two roots
lead to. -/
lemma corresponds_of_injOn (unique : Set.InjOn f {id | store.LeadsTo root id})
    (roots : f root = root')
    (data : ∀ id, store.LeadsTo root id →
      store'.lookup (f id) = (store.lookup id).map (·.rename f))
    (names : ∀ id, store.LeadsTo root id → store'.aliasName? (f id) = store.aliasName? id) :
    store.Corresponds store' root root' f := by
  refine ⟨⟨?image, unique, ?onto⟩, roots, data, names⟩
  -- Both ways along the parts, which are renamed as the types are.
  case image =>
    intro id (h : store.LeadsTo root id)
    induction h with
    | refl => exact roots ▸ .refl
    | tail reached part ih =>
      refine ih.tail ?_
      rw [parts_rename (data _ reached)]
      exact List.mem_map_of_mem part
  case onto =>
    intro id' (h : store'.LeadsTo root' id')
    induction h with
    | refl => exact ⟨root, .refl, roots⟩
    | tail _ part' ih =>
      obtain ⟨id, reached, rfl⟩ := ih
      rw [parts_rename (data id reached)] at part'
      obtain ⟨part, m, rfl⟩ := List.mem_map.1 part'
      exact ⟨part, reached.tail m, rfl⟩

/-- Stores are isomorphic on the types that a root leads to if these are renamed one to one. -/
lemma isomorphic_of_injOn (unique : Set.InjOn f {id | store.LeadsTo root id})
    (data : ∀ id, store.LeadsTo root id →
      store'.lookup (f id) = (store.lookup id).map (·.rename f))
    (names : ∀ id, store.LeadsTo root id → store'.aliasName? (f id) = store.aliasName? id) :
    store.Isomorphic (fun a b => store.LeadsTo root a ∧ f a = b) store' where
  unique := by
    constructor
    · rintro a a' _ ⟨h, rfl⟩ ⟨h', e⟩
      exact unique h h' e.symm
    · rintro a _ _ ⟨-, rfl⟩ ⟨-, rfl⟩
      rfl
  lookup := by
    rintro a _ ⟨h, rfl⟩
    rw [data a h]
    cases found : store.lookup a with
    | none => exact .none
    | some data =>
      refine .some (TypeData.alike_rename fun id m => ⟨h.tail ?_, rfl⟩)
      rw [parts, found]
      exact m
  aliasName? := by
    rintro a _ ⟨h, rfl⟩
    exact (names a h).symm

/-- Isomorphic stores import related roots alike. -/
lemma Isomorphic.fromType_sameOutcome {R : TypeId → TypeId → Prop} (iso : store.Isomorphic R store')
    (r : R root root') (file : String) (options : ImportOptions) :
    Walk.SameOutcome ImportError.SameKind (Importer.fromType ⟨store.checker, file, options⟩ root)
      (Importer.fromType ⟨store'.checker, file, options⟩ root') :=
  have alike : Importer.Isomorphic R ⟨store.checker, file, options⟩
    ⟨store'.checker, file, options⟩ := ⟨iso.checker, rfl, rfl⟩
  Importer.fromType_alike alike r

/-- An import depends on nothing but the graph of the types that its root leads to: where those of
two roots correspond, both are imported as the same node or refused with errors of one kind. -/
theorem fromType_of_corresponds (c : store.Corresponds store' root root' f) (file : String)
    (options : ImportOptions) :
    Walk.SameOutcome ImportError.SameKind (Importer.fromType ⟨store.checker, file, options⟩ root)
      (Importer.fromType ⟨store'.checker, file, options⟩ root') := by
  have iso := isomorphic_of_injOn c.bijective.injOn c.lookup c.aliasName?
  exact iso.fromType_sameOutcome ⟨.refl, c.roots⟩ file options

/-- A store with the type of lists of chains whose links are marked. -/
def chains : TypeStore :=
  let (mark, store) := TypeStore.new.literal (.string "link")
  let chain := store.nextId
  let (_, store) := store.object [⟨"kind", mark, false, false, none⟩,
    ⟨"next", chain, true, false, none⟩]
  ((store.setAliasName chain "Chain").array chain).2

/-- A store with the same types under other handles, after a type that nothing refers to. -/
def otherChains : TypeStore :=
  let (stray, store) := TypeStore.new.reserve
  let chain := store.nextId
  let (_, store) := store.object [⟨"kind", ⟨15⟩, false, false, none⟩,
    ⟨"next", chain, true, false, none⟩]
  let (_, store) := store.literal (.string "link")
  (((store.setAliasName stray "Chain").setAliasName chain "Chain").array chain).2

/-- The handle in the second store for each handle of the first. -/
def chainsRenamed (id : TypeId) : TypeId :=
  if id = ⟨13⟩ then ⟨15⟩ else if id = ⟨15⟩ then ⟨16⟩ else id

/-- Lists of chains are imported alike from both stores. -/
theorem fromType_chains :
    chains.Corresponds otherChains ⟨15⟩ ⟨16⟩ chainsRenamed ∧
      ∀ file options, Walk.SameOutcome ImportError.SameKind
        (Importer.fromType ⟨chains.checker, file, options⟩ ⟨15⟩)
        (Importer.fromType ⟨otherChains.checker, file, options⟩ ⟨16⟩) := by
  have within : ∀ id, chains.LeadsTo ⟨15⟩ id → id ∈ [⟨13⟩, ⟨14⟩, ⟨15⟩] := fun id h =>
    h.mem_of_closed (by decide) (by decide)
  have c : chains.Corresponds otherChains ⟨15⟩ ⟨16⟩ chainsRenamed := by
    refine corresponds_of_injOn ?_ rfl ?_ ?_
    · have unique : ∀ a ∈ [⟨13⟩, ⟨14⟩, ⟨15⟩], ∀ b ∈ [⟨13⟩, ⟨14⟩, ⟨15⟩],
          chainsRenamed a = chainsRenamed b → a = b := by decide
      exact fun a ha b hb => unique a (within a ha) b (within b hb)
    · have data : ∀ id ∈ [⟨13⟩, ⟨14⟩, ⟨15⟩], otherChains.lookup (chainsRenamed id) =
          (chains.lookup id).map (·.rename chainsRenamed) := by decide
      exact fun id h => data id (within id h)
    · have names : ∀ id ∈ [⟨13⟩, ⟨14⟩, ⟨15⟩], otherChains.aliasName? (chainsRenamed id) =
          chains.aliasName? id := by decide
      exact fun id h => names id (within id h)
  exact ⟨c, fromType_of_corresponds c⟩

/-- Types that a root does not lead to have no influence on its import. -/
theorem fromType_of_agree
    (data : ∀ id, store.LeadsTo root id → store'.lookup id = store.lookup id)
    (names : ∀ id, store.LeadsTo root id → store'.aliasName? id = store.aliasName? id)
    (file : String) (options : ImportOptions) :
    Walk.SameOutcome ImportError.SameKind (Importer.fromType ⟨store.checker, file, options⟩ root)
      (Importer.fromType ⟨store'.checker, file, options⟩ root) := by
  have renamed : ∀ id, store.LeadsTo root id →
      store'.lookup id = (store.lookup id).map (·.rename fun id => id) := by
    intro id h
    rw [data id h]
    cases store.lookup id with
    | none => rfl
    | some data => exact congrArg some data.rename_self.symm
  have iso := isomorphic_of_injOn (Set.injOn_id _) renamed names
  exact iso.fromType_sameOutcome ⟨.refl, rfl⟩ file options

/-- What a store allocates later has no influence on the import of a root, unless the root leads to
its handle already. -/
theorem fromType_alloc (h : ¬ store.LeadsTo root store.nextId) (data : TypeData) (file : String)
    (options : ImportOptions) :
    Walk.SameOutcome ImportError.SameKind (Importer.fromType ⟨store.checker, file, options⟩ root)
      (Importer.fromType ⟨(store.alloc data).2.checker, file, options⟩ root) := by
  have kept : ∀ id, store.LeadsTo root id → (store.alloc data).2.lookup id = store.lookup id := by
    intro id reached
    have other : id.index ≠ store.types.size := by
      intro e
      have same : id = store.nextId := congrArg TypeId.mk e
      exact h (same ▸ reached)
    simp [alloc, lookup, Array.getElem?_push, other]
  exact fromType_of_agree kept (fun _ _ => rfl) file options

end TypeStore

end TypeSchema
