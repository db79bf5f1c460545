import TypeSchema.Proofs.Lowering.Faithful
import TypeSchema.Proofs.Lowering.Pending

/-!
# Handles that a lowering gives

A handle that a lowering gives for a declaration is either new, or that of an intrinsic type or of a
literal type. So a lowering never gives the handle of an older type that has parts.
-/

namespace TypeSchema

namespace TypeStore

variable {store store' store'' : TypeStore} {id : TypeId} {data : TypeData} {count : Nat}

/-- What a handle stands for it stands for later, unless it is reserved, and literal values keep
their handles. -/
structure Persists (store store' : TypeStore) : Prop extends store.Precedes store' where
  interned : ∀ value id, store.Interned value id → store'.Interned value id

lemma Persists.refl (store : TypeStore) : store.Persists store := ⟨.refl store, fun _ _ i => i⟩

lemma Persists.trans (h : store.Persists store') (h' : store'.Persists store'') :
    store.Persists store'' :=
  ⟨h.toPrecedes.trans h'.toPrecedes, fun value id i => h'.interned value id (h.interned value id i)⟩

lemma persists_alloc : store.Persists (store.alloc data).2 :=
  ⟨grows_alloc.keeps.precedes, fun _ _ i => i.congr rfl⟩

lemma persists_literal (store : TypeStore) (value : Literal) :
    store.Persists (store.literal value).2 := by
  by_cases i : ∃ id, store.Interned value id
  · obtain ⟨id, i⟩ := i
    rw [literal_of_interned i]
    exact .refl store
  · have fresh := not_exists.1 i
    rw [(literal_of_not_interned fresh).1]
    exact ⟨(grows_intern value).keeps.precedes, fun _ _ i => i.intern fresh⟩

lemma persists_define : store.Persists (store.define id data).2 := by
  by_cases e : store.lookup id = some .pending
  · exact ⟨(keeps_define e).precedes, fun _ _ i => i.congr (literalIds_define e)⟩
  · rw [define_of_not_pending e]
    exact .refl store

lemma persists_setAliasName {name : String} : store.Persists (store.setAliasName id name) :=
  ⟨⟨Nat.le_refl _, fun _ _ e _ => e⟩, fun _ _ i => i.congr rfl⟩

/-- A handle of the store that is new since it had `count` types, or is that of an intrinsic type or
of a literal type. -/
structure Hands (store : TypeStore) (count : Nat) (id : TypeId) : Prop where
  index : id.index < store.types.size
  origin : count ≤ id.index ∨ id.isIntrinsic = true ∨ ∃ value, store.Interned value id

lemma Hands.persists (h : store.Hands count id) (p : store.Persists store') :
    store'.Hands count id := by
  refine ⟨Nat.lt_of_lt_of_le h.index p.size, h.origin.imp_right (Or.imp_right ?_)⟩
  rintro ⟨value, i⟩
  exact ⟨value, p.interned value id i⟩

/-- A regular store has the handles of the intrinsic types. -/
lemma Regular.hands_intrinsic (r : store.Regular) (i : id.isIntrinsic = true) :
    store.Hands count id := by
  have l : id.index < new.types.size := of_decide_eq_true i
  have found := (r.intrinsics id i).trans (Array.getElem?_eq_getElem l)
  exact ⟨index_lt found, .inr (.inl i)⟩

lemma Regular.hands_interned {value : Literal} (r : store.Regular) (i : store.Interned value id) :
    store.Hands count id :=
  ⟨index_lt (r.lookup_of_interned i), .inr (.inr ⟨value, i⟩)⟩

end TypeStore

namespace LowerState

variable {s s' : LowerState} {store : TypeStore} {id : TypeId} {count : Nat} {chain : List String}

/-- Every name is resolved to a handle that is new, or that of an intrinsic or literal type. -/
structure Hands (s : LowerState) (count : Nat) : Prop where
  regular : s.store.Regular
  size : count ≤ s.store.types.size
  resolved : ∀ entry ∈ s.resolved, s.store.Hands count entry.2

lemma Hands.onStore (h : s.Hands count) (p : s.store.Persists store) (r : store.Regular) :
    Hands { s with store } count :=
  ⟨r, Nat.le_trans h.size p.size, fun entry m => (h.resolved entry m).persists p⟩

lemma Hands.withChain (h : s.Hands count) (g : s.store.Hands count id) :
    (s.withChain chain id).Hands count := by
  refine ⟨h.regular, h.size, fun entry m => ?_⟩
  rcases List.mem_append.1 m with m | m
  · obtain ⟨name, -, rfl⟩ := List.mem_map.1 m
    exact g
  · exact h.resolved entry m

/-- The next handle is new. -/
lemma Hands.nextId (h : s.Hands count) (l : s.store.nextId.index < store.types.size) :
    store.Hands count s.store.nextId := ⟨l, .inl h.size⟩

end LowerState

namespace Lowering

variable {declarations : List Declaration} {s s' : LowerState} {type : TypeExpr} {id : TypeId}
  {count : Nat}

lemma hands_threads {types : List TypeExpr} {ids : List TypeId}
    (all : Walk.Threads (fun _ s id s' => s.Hands count →
      s'.Hands count ∧ s.store.types.size ≤ s'.store.types.size ∧ s'.store.Hands count id)
      types s ids s') (h : s.Hands count) :
    s'.Hands count ∧ s.store.types.size ≤ s'.store.types.size :=
  all.preserves (E := fun s s' => s.store.types.size ≤ s'.store.types.size)
    (fun _ => Nat.le_refl _) (fun _ _ _ => Nat.le_trans)
    (fun _ _ _ _ step h => ⟨(step h).1, (step h).2.1⟩) h

/-- Every lowering that succeeds gives such a handle, and resolves names to such ones only. -/
theorem Lowers.hands (h : Lowers declarations type s id s') (o : s.Hands count) :
    s'.Hands count ∧ s.store.types.size ≤ s'.store.types.size ∧ s'.store.Hands count id := by
  induction h using Lowers.induct with
  | @keyword word s =>
    refine ⟨o, Nat.le_refl _, o.regular.hands_intrinsic ?_⟩
    cases word <;> rfl
  | @literal value s =>
    have p := s.store.persists_literal value
    have r := o.regular.literal value
    exact ⟨o.onStore p r, p.size, r.hands_interned (s.store.interned_literal value)⟩
  | known e => exact ⟨o, Nat.le_refl _, o.resolved _ (mem_of_lookup e)⟩
  | @linked name s chain id r e =>
    have ends : EndsWell declarations s.resolved name _ := endsWell_chainEnd r
    rw [e] at ends
    obtain ⟨-, -, target, -, -, found⟩ := ends
    have g := o.resolved _ (mem_of_lookup found)
    exact ⟨o.withChain g, Nat.le_refl _, g⟩
  | plain _ _ _ _ ih =>
    obtain ⟨o', l, g⟩ := ih o
    exact ⟨(o'.withChain g).withChain g, l, g⟩
  | @body name s chain declaration ids t data _ _ _ _ _ ih =>
    -- The handle of the alias is the next one; its name is resolved to it before the parts are.
    have reserved : s.store.Persists (s.store.reserveNamed declaration.name) :=
      TypeStore.persists_alloc.trans TypeStore.persists_setAliasName
    have next : s.store.nextId.index < (s.store.reserveNamed declaration.name).types.size :=
      TypeStore.index_lt TypeStore.lookup_alloc
    have inside : (s.resolving declaration.name).Hands count := by
      have stored := o.onStore reserved o.regular.reserveNamed
      show LowerState.Hands ({ s with store := _ }.withChain [declaration.name] _) count
      exact stored.withChain (o.nextId next)
    obtain ⟨o', l⟩ := hands_threads (ih.imp fun _ _ _ _ ⟨_, step⟩ => step) inside
    have defined : t.store.Persists (t.store.define s.store.nextId data).2 :=
      TypeStore.persists_define
    have g := (o.nextId (Nat.lt_of_lt_of_le next l)).persists defined
    refine ⟨(o'.onStore defined o'.regular.define).withChain g, ?_, g⟩
    exact Nat.le_trans reserved.size (Nat.le_trans l defined.size)
  | @parted type s ids t data _ _ _ ih =>
    obtain ⟨o', l⟩ := hands_threads (ih.imp fun _ _ _ _ ⟨_, step⟩ => step) o
    have placed : t.store.Persists (t.store.place data) :=
      TypeStore.persists_alloc.trans TypeStore.persists_define
    refine ⟨o'.onStore placed o'.regular.place, Nat.le_trans l placed.size, o'.nextId ?_⟩
    exact TypeStore.index_lt TypeStore.lookup_place

/-- A lowering persists with what its store holds, whether it succeeds or stops. -/
lemma kept_persists : Kept (fun s s' => s.store.Persists s'.store) fun _ => True :=
  kept_store .refl (fun _ _ _ => .trans) (fun _ _ => TypeStore.persists_alloc)
    TypeStore.persists_literal (fun _ _ _ => TypeStore.persists_define)
    fun _ _ _ => TypeStore.persists_setAliasName

end Lowering

variable {store : TypeStore} {declarations : List Declaration}

/-- So does one of whole declarations. -/
lemma persists_lowerDeclarations : store.Persists (lowerDeclarations store declarations).2 :=
  Lowering.kept_persists.lowerDeclarations store declarations

/-- The handles that a lowering gives for declarations are new, or those of intrinsic or literal
types. -/
theorem hands_of_lowerDeclarations {store' : TypeStore} {ids : List (String × TypeId)}
    (r : store.Regular) (h : lowerDeclarations store declarations = (.ok ids, store')) :
    ∀ entry ∈ ids, store'.Hands store.types.size entry.2 := by
  obtain ⟨-, s, _, rfl, all, rfl⟩ := Lowering.names_of_lowerDeclarations h
  have start : (Lowering.start store).Hands store.types.size :=
    ⟨r, Nat.le_refl _, fun _ m => absurd m List.not_mem_nil⟩
  obtain ⟨o, -⟩ := Lowering.hands_threads (all.imp fun _ _ _ _ h => h.hands) start
  intro entry m
  obtain ⟨declaration, -, e⟩ := List.mem_filterMap.1 m
  obtain ⟨id, found, rfl⟩ := Option.map_eq_some_iff.1 e
  exact o.resolved _ (mem_of_lookup found)

end TypeSchema
