import TypeSchema.Proofs.Lowering.Structure
import TypeSchema.Proofs.RoundTrip.Expression
import TypeSchema.Proofs.RoundTrip.Return

/-!
# Lowering the declarations of a portable tree

A portable tree is lowered as it unfolds: the names that are resolved are those that are seen, and
an expression gets a handle that comes back, in every later store, as the tree that its node unfolds
to.
-/

namespace TypeSchema

namespace LowerState

variable {s s' s'' : LowerState} {root : Schema} {seen : List String} {handle : String → TypeId}

/-- The names of the tree that are resolved are those that are seen. -/
structure Follows (s : LowerState) (root : Schema) (seen : List String) : Prop where
  sound : s.store.Sound
  known : seen ⊆ root.identifiers
  resolved : ∀ name ∈ seen, ∃ id, s.resolved.lookup name = some id
  unresolved : ∀ name ∈ root.identifiers, name ∉ seen → s.resolved.lookup name = none

lemma Follows.congr (f : s.Follows root seen) (sound : s'.store.Sound)
    (same : ∀ name, s'.resolved.lookup name = s.resolved.lookup name) : s'.Follows root seen where
  sound := sound
  known := f.known
  resolved name m := (same name).symm ▸ f.resolved name m
  unresolved name m n := (same name).trans (f.unresolved name m n)

/-- The identified unions of the tree that may be keys are index keys, once they are resolved. -/
def Keyed (s : LowerState) (root : Schema) : Prop :=
  ∀ host ∈ root.preorder, host.IsKeyUnion → ∀ name, host.identifier = some name →
    ∀ id, s.resolved.lookup name = some id → s.store.recordKeys? id = some .index

/-- The handles are those of the resolved names. -/
def Agrees (s : LowerState) (handle : String → TypeId) : Prop :=
  ∀ name id, s.resolved.lookup name = some id → handle name = id

lemma Agrees.of_leads (h : s'.Agrees handle) (l : s.Leads s') : s.Agrees handle :=
  fun name id e => h name id (l.resolved name id e)

end LowerState

open Schema

variable {root node x : Schema} {nodes xs : List Schema} {seen seen' seen'' : List String}
  {s s' s'' : LowerState} {id : TypeId} {ids : List TypeId} {name : String}
  {declarations : List Declaration}

/-- What lowering the expression of a node leads to: a handle that comes back as the tree, and is an
index key if the node has to be one. -/
structure Lowered (root node : Schema) (seen : List String) (x : Schema) (seen' : List String)
    (s : LowerState) (id : TypeId) (s' : LowerState) : Prop where
  leads : s.Leads s'
  follows : s'.Follows root seen'
  keyed : s.Keyed root → s'.Keyed root
  index : node.IsIndexKey → TypeStore.isIndexKey id = true ∧ s' = s
  key : s.Keyed root → root.IsRecordKey node → s'.store.recordKeys? id = some .index
  returns : ∀ (importer : Importer) (store : TypeStore) (handle : String → TypeId),
    importer.checker = store.checker → s'.store.Keeps store → s'.Agrees handle →
    Returns importer handle s.store.types.size s'.store.types.size node seen id x seen'

/-- What lowering the expressions of nodes one after the other leads to. -/
structure LoweredAll (root : Schema) (nodes : List Schema) (seen : List String) (xs : List Schema)
    (seen' : List String) (s : LowerState) (ids : List TypeId) (s' : LowerState) : Prop where
  leads : s.Leads s'
  follows : s'.Follows root seen'
  keyed : s.Keyed root → s'.Keyed root
  index : (∀ node ∈ nodes, node.IsIndexKey) →
    (∀ id ∈ ids, TypeStore.isIndexKey id = true) ∧ s' = s
  key : s.Keyed root → List.Forall₂ (fun node id => root.IsRecordKey node →
    s'.store.recordKeys? id = some .index) nodes ids
  returns : ∀ (importer : Importer) (store : TypeStore) (handle : String → TypeId),
    importer.checker = store.checker → s'.store.Keeps store → s'.Agrees handle →
    ReturnsAll importer handle s.store.types.size s'.store.types.size nodes seen ids xs seen'

/-- The depth allows for expressions of nodes of the height, and the room for the depth. -/
structure LowerState.Affords (s : LowerState) (room height : Nat) : Prop where
  low : s.depth.depth + 2 * height ≤ s.depth.maxDepth.toNat
  room : s.depth.maxDepth.toNat ≤ s.depth.depth + room

/-- The expression of a node that is a part of the tree is lowered, where the names seen are
resolved. The parts of a union of index keys are lowered while its own handle is no index key
yet. -/
def Lowers (root : Schema) (declarations : List Declaration) (node : Schema) (seen : List String)
    (x : Schema) (seen' : List String) : Prop :=
  node ∈ root.preorder → ∀ s room, s.Follows root seen → node.IsIndexKey ∨ s.Keyed root →
    s.Affords room node.height →
    ∃ id s', (Lowering.lowerType declarations room (declaring.partType node)).Gives s id s' ∧
      Lowered root node seen x seen' s id s'

/-- The expressions of nodes are lowered one after the other. -/
def LowersAll (root : Schema) (declarations : List Declaration) (nodes : List Schema)
    (seen : List String) (xs : List Schema) (seen' : List String) : Prop :=
  (∀ node ∈ nodes, node ∈ root.preorder) → ∀ s room, s.Follows root seen →
    (∀ node ∈ nodes, node.IsIndexKey) ∨ s.Keyed root → s.Affords room (heightList nodes) →
    ∃ ids s', ((nodes.map declaring.partType).mapM (Lowering.lowerType declarations room)).Gives
      s ids s' ∧ LoweredAll root nodes seen xs seen' s ids s'

/-! ## Expressions one after the other -/

lemma loweredAll_nil (f : s.Follows root seen) : LoweredAll root [] seen [] seen s [] s :=
  ⟨.refl _, f, fun k => k, fun _ => ⟨fun _ m => absurd m List.not_mem_nil, rfl⟩, fun _ => .nil,
    fun _ _ _ _ _ _ => returnsAll_nil⟩

lemma Lowered.cons (h : Lowered root node seen x seen' s id s')
    (h' : LoweredAll root nodes seen' xs seen'' s' ids s'') :
    LoweredAll root (node :: nodes) seen (x :: xs) seen'' s (id :: ids) s'' where
  leads := h.leads.trans h'.leads
  follows := h'.follows
  keyed k := h'.keyed (h.keyed k)
  index all := by
    obtain ⟨first, e⟩ := h.index (all node List.mem_cons_self)
    obtain ⟨others, e'⟩ := h'.index fun node m => all node (List.mem_cons_of_mem _ m)
    exact ⟨List.forall_mem_cons.2 ⟨first, others⟩, e'.trans e⟩
  key k := .cons (fun r => TypeStore.recordKeys?_of_keeps h'.leads.grows.keeps (h.key k r))
    (h'.key (h.keyed k))
  returns importer store handle c keeps agrees :=
    returnsAll_cons ((h.returns importer store handle c (h'.leads.grows.keeps.trans keeps)
      (agrees.of_leads h'.leads)).mono (Nat.le_refl _) h'.leads.grows.size)
      ((h'.returns importer store handle c keeps agrees).mono h.leads.grows.size (Nat.le_refl _))

/-- Expressions are lowered one after the other if each is. -/
lemma lowersAll_of_threads (h : Walk.Threads (Lowers root declarations) nodes seen xs seen') :
    LowersAll root declarations nodes seen xs seen' := by
  induction h with
  | nil =>
    intro _ s room f _ _
    exact ⟨[], s, Walk.gives_mapM_nil.2 ⟨rfl, rfl⟩, loweredAll_nil f⟩
  | @cons node nodes seen x seen1 xs seen' one _ ih =>
    intro m s room f k a
    have low := a.low
    rw [heightList] at low
    obtain ⟨id, s1, g, l⟩ := one (m node List.mem_cons_self) s room f
      (k.imp_left fun all => all node List.mem_cons_self) ⟨by omega, a.room⟩
    have a1 : s1.Affords room (heightList nodes) := by
      refine ⟨?_, ?_⟩
      · rw [l.leads.depth]
        omega
      · rw [l.leads.depth]
        exact a.room
    obtain ⟨ids, s2, g', l'⟩ := ih (fun node mn => m node (List.mem_cons_of_mem _ mn)) s1 room
      l.follows (k.imp (fun all node mn => all node (List.mem_cons_of_mem _ mn)) l.keyed) a1
    exact ⟨id :: ids, s2, Walk.gives_mapM_cons.2 ⟨id, ids, s1, g, g', rfl⟩, l.cons l'⟩

/-! ## Expressions without parts -/

/-- What holds of an expression one level deeper holds of its lowering. -/
lemma lowers_of_lowerExpr
    (h : node ∈ root.preorder → ∀ s room, s.Follows root seen →
      node.IsIndexKey ∨ s.Keyed root →
      s.depth.depth + 2 * node.height ≤ s.depth.maxDepth.toNat + 1 →
      s.depth.maxDepth.toNat ≤ s.depth.depth + room →
      ∃ id s', (Lowering.lowerExpr (Lowering.lowerType declarations room) declarations
          (declaring.partType node)).Gives s id s' ∧ Lowered root node seen x seen' s id s') :
    Lowers root declarations node seen x seen' := by
  intro m s room f k a
  have low := a.low
  have ample := a.room
  have pos : 0 < node.height := height_pos
  obtain ⟨room, rfl⟩ : ∃ n, room = n + 1 := ⟨room - 1, by omega⟩
  have f' : s.down.Follows root seen := f.congr f.sound fun _ => rfl
  obtain ⟨id, s', g, l⟩ := h m s.down room f' k
    (by show s.depth.depth + 1 + _ ≤ s.depth.maxDepth.toNat + 1; omega)
    (by show s.depth.maxDepth.toNat ≤ s.depth.depth + 1 + room; omega)
  refine ⟨id, _, Lowering.gives_deeper (by omega) g l.leads.depth, ?_⟩
  refine ⟨⟨l.leads.grows, rfl, l.leads.resolved⟩, ⟨l.follows.sound, l.follows.known,
    l.follows.resolved, l.follows.unresolved⟩, l.keyed, fun i => ?_, l.key, l.returns⟩
  obtain ⟨i, rfl⟩ := l.index i
  exact ⟨i, rfl⟩

lemma lowers_primitive {type : Primitive} {info : NodeInfo} (e : info.identifier = none) :
    Lowers root declarations (.primitive type info) seen (.primitive type {}) seen := by
  refine lowers_of_lowerExpr fun _ s room f _ _ _ => ?_
  have part : declaring.partType (.primitive type info) = .keyword type.keyword := by
    rw [partType_of_none (show (Schema.primitive type info).identifier = none from e),
      Exporter.body_eq]
    rfl
  rw [part]
  have index : (Schema.primitive type info).IsIndexKey →
      TypeStore.isIndexKey type.keyword.typeId = true := by
    intro i
    cases type with
    | string => rfl
    | number => rfl
    | _ => exact i.elim
  refine ⟨type.keyword.typeId, s, rfl, .refl _, f, fun k => k, fun i => ⟨index i, rfl⟩,
    fun _ r => ?_, ?_⟩
  · rcases r with i | u | ⟨_, t, _⟩
    · exact TypeStore.recordKeys?_of_isIndexKey (index i)
    · exact u.elim
    · cases t
  · intro importer store handle c keeps _
    exact returns_leaf (Importer.leafNode_primitive c (keeps.intrinsics f.sound.toRegular))

lemma lowers_literal {value : Literal} {info : NodeInfo} (e : info.identifier = none) :
    Lowers root declarations (.literal value info) seen (.literal value {}) seen := by
  refine lowers_of_lowerExpr fun _ s room f _ _ _ => ?_
  have part : declaring.partType (.literal value info) = .literal value := by
    rw [partType_of_none (show (Schema.literal value info).identifier = none from e),
      Exporter.body_eq]
    rfl
  rw [part]
  obtain ⟨found, grows, sound⟩ := TypeStore.literal_spec f.sound value
  refine ⟨_, { s with store := (s.store.literal value).2 }, rfl, ⟨grows, rfl, fun _ _ h => h⟩,
    ⟨sound, f.known, f.resolved, f.unresolved⟩, ?_, fun i => i.elim, fun _ r => ?_, ?_⟩
  · exact fun k host m u name e id r =>
      TypeStore.recordKeys?_of_keeps grows.keeps (k host m u name e id r)
  · rcases r with i | u | ⟨_, t, _⟩
    · exact i.elim
    · exact u.elim
    · cases t
  · intro importer store handle c keeps _
    exact returns_leaf (Importer.leafNode_literal c (keeps.lookup _ _ found nofun))

/-- A name that is seen has the handle it is resolved to. -/
lemma lowers_seen (d : Declared name root declarations) {target : String} (m : target ∈ seen)
    (part : declaring.partType node = .reference target) (n : ¬ node.IsIndexKey)
    (key : root.IsRecordKey node →
      ∃ host ∈ root.preorder, host.identifier = some target ∧ host.IsKeyUnion) :
    Lowers root declarations node seen (.reference target {}) seen := by
  refine lowers_of_lowerExpr fun _ s room f _ _ _ => ?_
  obtain ⟨id, r⟩ := f.resolved target m
  obtain ⟨host, mh, eh⟩ := List.mem_filterMap.1 (f.known m)
  have c := d.declared? mh eh
  rw [part]
  refine ⟨id, s, ?_, .refl _, f, fun k => k, fun i => absurd i n, fun k r' => ?_, ?_⟩
  · exact Lowering.gives_lowerExpr_of_declared c (Lowering.gives_resolveAlias_of_resolved r)
  · obtain ⟨host, mh, eh, u⟩ := key r'
    exact k host mh u target eh id r
  · intro importer store handle _ _ agrees
    obtain rfl := agrees target id r
    exact returns_reference m

/-! ## Expressions with parts -/

lemma isIndexKey_parts (u : node.IsKeyUnion) :
    ∀ inner ∈ node.parts.map (·.1), inner.IsIndexKey := by
  cases node with
  | composite connective members info =>
    cases connective with
    | union =>
      intro inner m
      obtain ⟨part, mp, rfl⟩ := List.mem_map.1 m
      obtain ⟨member, mm, rfl⟩ := List.mem_map.1 mp
      exact u member mm
    | intersection => exact u.elim
  | _ => exact u.elim

/-- A union of index keys is one once its handle is defined. -/
lemma recordKeys?_of_isKeyUnion {store : TypeStore} (u : node.IsKeyUnion)
    (h : store.lookup id = some ((declaring.body node).layout ids))
    (all : ∀ id ∈ ids, TypeStore.isIndexKey id = true) :
    store.recordKeys? id = some .index := by
  rw [Exporter.body_eq] at h
  cases node with
  | composite connective members info =>
    cases connective with
    | union => exact TypeStore.recordKeys?_of_union h all
    | intersection => exact u.elim
  | _ => exact u.elim

lemma not_isIndexKey (k : node.mayBeIdentified) : ¬ node.IsIndexKey := by
  cases node with
  | primitive => exact k.elim
  | _ => exact id

/-- Only a union is the key of a record among the nodes that have parts. -/
lemma isKeyUnion_of_isRecordKey (k : node.mayBeIdentified) (r : root.IsRecordKey node) :
    node.IsKeyUnion := by
  rcases r with i | u | ⟨target, t, _⟩
  · exact absurd i (not_isIndexKey k)
  · exact u
  · cases node with
    | reference => exact k.elim
    | _ => cases t

/-- The structure of a node is lowered if its parts are. -/
lemma exists_gives_lowerStructure (p : Portable name root) (m : node ∈ root.preorder)
    (k : node.mayBeIdentified)
    (all : LowersAll root declarations (node.parts.map (·.1)) seen xs seen') {room : Nat}
    (f : s.Follows root seen) (u : node.IsKeyUnion ∨ s.Keyed root)
    (a : s.Affords room (heightList (node.parts.map (·.1)))) :
    ∃ ids s', (Lowering.lowerStructure (Lowering.lowerType declarations room)
        (declaring.body node)).Gives s ((declaring.body node).layout ids) s' ∧
      LoweredAll root (node.parts.map (·.1)) seen xs seen' s ids s' ∧
      ids.length = node.parts.length := by
  have sub : ∀ inner ∈ node.parts.map (·.1), inner ∈ root.preorder := by
    intro inner mi
    obtain ⟨part, mp, rfl⟩ := List.mem_map.1 mi
    exact mem_root_of_part m mp
  obtain ⟨ids, s', g, l⟩ := all sub s room f (u.imp_left isIndexKey_parts) a
  have length : ids.length = node.parts.length := by
    rw [g.mapM_length, List.length_map, List.length_map]
  have fits : (declaring.body node).Fits s'.store ids := by
    refine fits_body k fun key value info e => ?_
    subst e
    have keyed : s.Keyed root := u.resolve_left id
    cases l.key keyed with
    | cons first _ => exact first (p.keys _ m key value info rfl)
  refine ⟨ids, s', Lowering.gives_lowerStructure (isStructural_body k) ?_ fits, l, length⟩
  rw [parts_body k]
  rwa [List.map_map] at g

lemma lowers_plain (p : Portable name root) (k : node.mayBeIdentified)
    (e : node.identifier = none)
    (all : LowersAll root declarations (node.parts.map (·.1)) seen xs seen') :
    Lowers root declarations node seen (node.withParts xs) seen' := by
  refine lowers_of_lowerExpr fun m s room f keyed low ample => ?_
  have keyed : s.Keyed root := keyed.resolve_left (not_isIndexKey k)
  have high := heightList_parts node
  obtain ⟨ids, s1, g, l, length⟩ := exists_gives_lowerStructure p m k all f (.inr keyed)
    ⟨by omega, ample⟩
  obtain ⟨found, unnamed, size, grows, sound⟩ :=
    TypeStore.place_spec l.follows.sound ((declaring.body node).layout ids)
  rw [partType_of_none e]
  refine ⟨_, _, Lowering.gives_lowerExpr_of_structural (isStructural_body k) g,
    ⟨l.leads.grows.trans grows, l.leads.depth, l.leads.resolved⟩,
    l.follows.congr sound fun _ => rfl,
    fun k host mh u name e id r => ?_, fun i => absurd i (not_isIndexKey k), fun _ r => ?_, ?_⟩
  · exact TypeStore.recordKeys?_of_keeps grows.keeps (l.keyed k host mh u name e id r)
  · have u := isKeyUnion_of_isRecordKey k r
    exact recordKeys?_of_isKeyUnion u found (l.index (isIndexKey_parts u)).1
  · intro importer store handle c keeps agrees
    have found' : store.lookup s1.store.nextId = _ :=
      keeps.lookup _ _ found (layout_body_ne_pending k)
    have lt : s1.store.nextId.index < (s1.store.place _).types.size := TypeStore.index_lt found
    have parts := l.returns importer store handle c (grows.keeps.trans keeps) agrees
    have unnamed' : importer.aliasName? s1.store.nextId = none := by
      unfold Importer.aliasName?
      rw [c]
      show (store.aliasName? _).filter _ = none
      rw [keeps.names _ lt, unnamed]
      rfl
    exact returns_plain (laidOut c k (p.wellFormed _ m) length found') length parts unnamed' e
      l.leads.grows.size lt

/-! ## Names of bodies with parts -/

/-- What resolving the title of a node leads to: a handle of that name which is laid out over
handles of the parts, and these come back. -/
structure Resolved (root node : Schema) (title : String) (seen : List String) (xs : List Schema)
    (seen' : List String) (s : LowerState) (ids : List TypeId) (s' : LowerState) : Prop where
  leads : s.Leads s'
  follows : s'.Follows root seen'
  keyed : s'.Keyed root
  index : node.IsKeyUnion → s'.store.recordKeys? s.store.nextId = some .index
  length : ids.length = node.parts.length
  resolved : s'.resolved.lookup title = some s.store.nextId
  lookup : s'.store.lookup s.store.nextId = some ((declaring.body node).layout ids)
  named : s'.store.aliasName? s.store.nextId = some title
  returns : ∀ (importer : Importer) (store : TypeStore) (handle : String → TypeId),
    importer.checker = store.checker → s'.store.Keeps store → s'.Agrees handle →
    ReturnsAll importer handle (s.store.nextId.index + 1) s'.store.types.size
      (node.parts.map (·.1)) (node.identifier.toList ++ seen) ids xs seen'

/-- A title belongs to its node alone: it is the identifier of the node, or of none. -/
def Entitled (root node : Schema) (title : String) : Prop :=
  node.identifier = some title ∨ node.identifier = none ∧ title ∉ root.identifiers

/-- The host of a title in the tree is its node. -/
lemma Entitled.host_eq {title : String} (own : Entitled root node title) (p : Portable name root)
    (m : node ∈ root.preorder) {host : Schema} (mh : host ∈ root.preorder)
    (e : host.identifier = some title) : host = node := by
  rcases own with e' | ⟨-, n⟩
  · exact p.unambiguous host mh node m (by simp [e]) (e.trans e'.symm)
  · exact absurd (mem_identifiers mh e) n

/-- The body of a title is lowered where the names seen and the title are resolved. -/
lemma Entitled.follows {title : String} (own : Entitled root node title)
    (m : node ∈ root.preorder) (f : s.Follows root seen) :
    (s.resolving title).down.Follows root (node.identifier.toList ++ seen) := by
  obtain ⟨-, -, -, sound⟩ := TypeStore.reserveNamed_spec f.sound title
  have added : ∀ other ∈ node.identifier.toList, other = title := by
    intro other mo
    rcases own with e | ⟨e, -⟩
    · rw [e] at mo
      exact List.mem_singleton.1 mo
    · rw [e] at mo
      cases mo
  have known : node.identifier.toList ++ seen ⊆ root.identifiers := by
    refine List.append_subset.2 ⟨fun other mo => ?_, f.known⟩
    exact mem_identifiers m (Option.mem_toList.1 mo)
  refine ⟨sound, known, fun other mo => ?_, fun other mo n => ?_⟩
  · show ∃ id, List.lookup other ((title, s.store.nextId) :: s.resolved) = some id
    refine exists_lookup_cons fun ne => f.resolved other ?_
    exact (List.mem_append.1 mo).resolve_left fun mo => ne (added other mo)
  · show List.lookup other ((title, s.store.nextId) :: s.resolved) = none
    have ne : other ≠ title := by
      rintro rfl
      rcases own with e | ⟨-, absent⟩
      · exact n (List.mem_append_left _ (by simp [e]))
      · exact absent mo
    rw [lookup_cons_of_ne ne]
    exact f.unresolved other mo fun ms => n (List.mem_append_right _ ms)

/-- The handles of other titles stay index keys when one more title is resolved. -/
lemma Entitled.keyed {title : String} (own : Entitled root node title) (p : Portable name root)
    (m : node ∈ root.preorder) {store : TypeStore} (keeps : s.store.Keeps store)
    (keyed : s.Keyed root) {handle : TypeId} {resolved : List (String × TypeId)}
    (e : ∀ other ≠ title, resolved.lookup other = s.resolved.lookup other)
    (title' : resolved.lookup title = some handle)
    (index : node.IsKeyUnion → store.recordKeys? handle = some .index) {depth : DepthCounter} :
    LowerState.Keyed ⟨store, resolved, depth⟩ root := by
  intro host mh u other eh id r
  by_cases eq : other = title
  · subst eq
    obtain rfl := own.host_eq p m mh eh
    obtain rfl := Option.some.inj (title'.symm.trans r)
    exact index u
  · have r : s.resolved.lookup other = some id := (e other eq).symm.trans r
    exact TypeStore.recordKeys?_of_keeps keeps (keyed host mh u other eh id r)

/-- A title that is not resolved yet is resolved by lowering the body of its node. -/
theorem exists_resolved (p : Portable name root) (m : node ∈ root.preorder)
    (k : node.mayBeIdentified) {title : String} (own : Entitled root node title)
    (c : declared? declarations title = some ⟨title, declaring.body node⟩)
    (all : LowersAll root declarations (node.parts.map (·.1)) (node.identifier.toList ++ seen) xs
      seen') (f : s.Follows root seen) (keyed : s.Keyed root) (r : s.resolved.lookup title = none)
    {room : Nat} (low : s.depth.depth + 2 * node.height ≤ s.depth.maxDepth.toNat + 1)
    (ample : s.depth.maxDepth.toNat ≤ s.depth.depth + room) :
    ∃ ids s', (Lowering.resolveAlias (Lowering.lowerType declarations room) declarations
        title).Gives s s.store.nextId s' ∧ Resolved root node title seen xs seen' s ids s' := by
  obtain ⟨reserved, named, grown, sound⟩ := TypeStore.reserveNamed_spec f.sound title
  have high := heightList_parts node
  have pos : 0 < node.height := height_pos
  have others : ∀ (resolved : List (String × TypeId)) (other : String), other ≠ title →
      List.lookup other ((title, s.store.nextId) :: resolved) = resolved.lookup other := by
    intro resolved other ne
    rw [lookup_cons_of_ne ne]
  have here : ∀ resolved : List (String × TypeId),
      List.lookup title ((title, s.store.nextId) :: resolved) = some s.store.nextId :=
    fun resolved => List.lookup_cons_self
  have keyed1 : node.IsKeyUnion ∨ (s.resolving title).down.Keyed root := by
    by_cases u : node.IsKeyUnion
    · exact .inl u
    · exact .inr (own.keyed p m grown.keeps keyed (others _) (here _) fun u' => absurd u' u)
  obtain ⟨ids, s1, g, l, length⟩ := exists_gives_lowerStructure p m k all (own.follows m f) keyed1
    ⟨by show s.depth.depth + 1 + _ ≤ s.depth.maxDepth.toNat; omega,
     by show s.depth.maxDepth.toNat ≤ s.depth.depth + 1 + room; omega⟩
  have pending : s1.store.lookup s.store.nextId = some .pending :=
    l.leads.grows.lookup_some reserved
  obtain ⟨found, -, names, size, keeps, sound'⟩ :=
    TypeStore.define_spec l.follows.sound pending ((declaring.body node).layout ids)
  refine ⟨ids, _, Lowering.gives_resolveAlias_of_body r c rfl
    (Lowering.aliasTarget?_of_structural (isStructural_body k))
    (Lowering.gives_lowerAliasBody_of_structural (isStructural_body k) (by omega) g
      l.leads.depth), ?_⟩
  have title' : s1.resolved.lookup title = some s.store.nextId :=
    l.leads.resolved title _ (here _)
  have kept : ∀ other, List.lookup other ((title, s.store.nextId) :: s1.resolved) =
      s1.resolved.lookup other := fun other => lookup_cons_of_lookup title'
  have index : node.IsKeyUnion → TypeStore.recordKeys? _ s.store.nextId = some .index :=
    fun u => recordKeys?_of_isKeyUnion u found (l.index (isIndexKey_parts u)).1
  refine ⟨⟨(grown.trans l.leads.grows).define pending (Nat.le_refl _) _, rfl, ?_⟩,
    l.follows.congr sound' kept, ?_, index, length, here _, found, ?_, ?_⟩
  · intro other id e
    have ne : other ≠ title := by
      rintro rfl
      rw [r] at e
      cases e
    rw [kept]
    exact l.leads.resolved other id ((others _ other ne).trans e)
  · rcases keyed1 with u | keyed1
    · -- The parts of a union of keys change nothing, so what was resolved before still is.
      obtain ⟨-, rfl⟩ := l.index (isIndexKey_parts u)
      refine own.keyed p m (grown.keeps.trans keeps) keyed (fun other ne => ?_) (here _) index
      exact (kept other).trans (others _ other ne)
    · exact own.keyed p m keeps (l.keyed keyed1) (fun other _ => kept other) (here _) index
  · rw [names]
    exact (l.leads.grows.names _ (TypeStore.index_lt reserved)).trans named
  · intro importer store handle c keeps' agrees
    have first : (s.resolving title).down.store.types.size = s.store.nextId.index + 1 := by
      simp [LowerState.down, LowerState.resolving, TypeStore.reserveNamed, TypeStore.setAliasName,
        TypeStore.reserve, TypeStore.alloc, TypeStore.nextId]
    rw [size, ← first]
    exact l.returns importer store handle c (keeps.trans keeps')
      fun other id e => agrees other id ((kept other).trans e)

lemma lowers_named (p : Portable name root) (d : Declared name root declarations)
    (k : node.mayBeIdentified) {title : String} (e : node.identifier = some title)
    (n : title ∉ seen)
    (all : LowersAll root declarations (node.parts.map (·.1)) (title :: seen) xs seen') :
    Lowers root declarations node seen (node.withParts xs) seen' := by
  refine lowers_of_lowerExpr fun m s room f keyed low ample => ?_
  have keyed : s.Keyed root := keyed.resolve_left (not_isIndexKey k)
  have c := d.declared? m e
  have r := f.unresolved title (mem_identifiers m e) n
  have added : node.identifier.toList ++ seen = title :: seen := by rw [e]; rfl
  obtain ⟨ids, s', g, l⟩ := exists_resolved p m k (.inl e) c (added.symm ▸ all) f keyed r low ample
  rw [partType_of_identifier e]
  refine ⟨_, s', Lowering.gives_lowerExpr_of_declared c g, l.leads, l.follows, fun _ => l.keyed,
    fun i => absurd i (not_isIndexKey k),
    fun _ r => l.index (isKeyUnion_of_isRecordKey k r), ?_⟩
  intro importer store handle checker keeps agrees
  have lt := TypeStore.index_lt l.lookup
  have found := keeps.lookup _ _ l.lookup (layout_body_ne_pending k)
  have named : importer.aliasName? s.store.nextId = some title := by
    unfold Importer.aliasName?
    rw [checker]
    show (store.aliasName? _).filter _ = _
    rw [keeps.names _ lt, l.named]
    simp [(p.identified node m title e).1]
  have parts := l.returns importer store handle checker keeps agrees
  rw [added] at parts
  exact returns_named (laidOut checker k (p.wellFormed _ m) l.length found) l.length parts
    (agrees title _ l.resolved) named e n k (Nat.le_refl _) lt

/-- The expression of a node of a portable tree is lowered as the node unfolds. -/
theorem lowers_of_unfolds (p : Portable name root) (d : Declared name root declarations)
    (h : Unfolds node seen x seen') (m : node ∈ root.preorder) :
    Lowers root declarations node seen x seen' := by
  induction h using Unfolds.induct with
  | primitive u => exact lowers_primitive u
  | literal u => exact lowers_literal u
  | @reference target info seen u m' =>
    refine lowers_seen d m' ?_ (fun i => i) fun r => ?_
    · rw [partType_of_none (show (Schema.reference target info).identifier = none from u),
        Exporter.body_eq]
      rfl
    · rcases r with i | i | ⟨_, t, found⟩
      · exact i.elim
      · exact i.elim
      · cases t
        exact found
  | @copy node identifier seen e m' =>
    have k := (p.identified node m identifier e).2
    refine lowers_seen d m' (partType_of_identifier e) (not_isIndexKey k) fun r => ?_
    exact ⟨node, m, e, isKeyUnion_of_isRecordKey k r⟩
  | @parted node seen nodes seen' k n all ih =>
    have parts : LowersAll root declarations (node.parts.map (·.1))
        (node.identifier.toList ++ seen) nodes seen' := by
      refine lowersAll_of_threads (ih.mem.imp ?_)
      rintro inner t y t' ⟨mi, -, _, l⟩
      obtain ⟨part, mp, rfl⟩ := List.mem_map.1 mi
      exact l (mem_root_of_part m mp)
    cases e : node.identifier with
    | none =>
      rw [e] at parts
      exact lowers_plain p k e parts
    | some title =>
      rw [e] at parts
      exact lowers_named p d k e (fun ms => n title ms e) parts

end TypeSchema
