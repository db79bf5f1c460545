import TypeSchema.Graph.Store
import TypeSchema.Proofs.Lists

/-!
# Stores that grow

A store hands out handles in order and never takes one back. What a handle stands for stays the
same, but for a handle that is reserved and defined later.
-/

namespace TypeSchema.TypeStore

variable {store store' store'' : TypeStore} {id : TypeId} {data : TypeData} {name : String}

/-- The handles that were handed out before are as they were. -/
structure Grows (store store' : TypeStore) : Prop where
  size : store.types.size ≤ store'.types.size
  lookup : ∀ id, id.index < store.types.size → store'.lookup id = store.lookup id
  names : ∀ id, id.index < store.types.size → store'.aliasName? id = store.aliasName? id

/-- What handles stand for, and their alias names, are as they were, except that reserved handles
may be defined. -/
structure Keeps (store store' : TypeStore) : Prop where
  size : store.types.size ≤ store'.types.size
  lookup : ∀ id data, store.lookup id = some data → data ≠ .pending →
    store'.lookup id = some data
  names : ∀ id, id.index < store.types.size → store'.aliasName? id = store.aliasName? id

/-- The intrinsic types have their handles, and interned literals are found under theirs. -/
structure Regular (store : TypeStore) : Prop where
  intrinsics : ∀ id, id.isIntrinsic = true → store.lookup id = new.lookup id
  literals : ∀ value id, store.literalIds.lookup value = some id →
    store.lookup id = some (.literal value)

/-- A regular store whose alias names belong to handles that were handed out. -/
structure Sound (store : TypeStore) : Prop extends store.Regular where
  aliases : ∀ entry ∈ store.aliasNames, entry.1.index < store.types.size

lemma lookup_eq_none : store.lookup id = none ↔ store.types.size ≤ id.index :=
  Array.getElem?_eq_none_iff

/-- Only handles that were handed out stand for something. -/
lemma index_lt (h : store.lookup id = some data) : id.index < store.types.size := by
  refine Nat.lt_of_not_le fun l => ?_
  rw [lookup_eq_none.2 l] at h
  cases h

lemma Grows.refl (store : TypeStore) : store.Grows store :=
  ⟨Nat.le_refl _, fun _ _ => rfl, fun _ _ => rfl⟩

lemma Grows.trans (h : store.Grows store') (h' : store'.Grows store'') : store.Grows store'' where
  size := Nat.le_trans h.size h'.size
  lookup id l := (h'.lookup id (Nat.lt_of_lt_of_le l h.size)).trans (h.lookup id l)
  names id l := (h'.names id (Nat.lt_of_lt_of_le l h.size)).trans (h.names id l)

lemma Grows.lookup_some (h : store.Grows store') (e : store.lookup id = some data) :
    store'.lookup id = some data := (h.lookup id (index_lt e)).trans e

lemma Grows.keeps (h : store.Grows store') : store.Keeps store' :=
  ⟨h.size, fun _ _ e _ => h.lookup_some e, h.names⟩

lemma Keeps.trans (h : store.Keeps store') (h' : store'.Keeps store'') : store.Keeps store'' where
  size := Nat.le_trans h.size h'.size
  lookup id data e n := h'.lookup id data (h.lookup id data e n) n
  names id l := (h'.names id (Nat.lt_of_lt_of_le l h.size)).trans (h.names id l)

/-! ## New handles -/

lemma lookup_alloc : (store.alloc data).2.lookup store.nextId = some data := by
  simp [alloc, lookup, nextId]

lemma lookup_alloc_of_lt (l : id.index < store.types.size) :
    (store.alloc data).2.lookup id = store.lookup id := by
  simp [alloc, lookup, Array.getElem?_push, Nat.ne_of_lt l]

/-- What a handle stands for after an allocation it stood for before, or it is the new handle. -/
lemma lookup_of_lookup_alloc {found : TypeData} (e : (store.alloc data).2.lookup id = some found) :
    store.lookup id = some found ∨ (id = store.nextId ∧ found = data) := by
  have l : id.index < store.types.size + 1 := by
    have l := index_lt e
    simpa [alloc] using l
  rcases Nat.lt_succ_iff_lt_or_eq.1 l with l | eq
  · rw [lookup_alloc_of_lt l] at e
    exact .inl e
  · have eq : id = store.nextId := congrArg TypeId.mk eq
    rw [eq, lookup_alloc] at e
    exact .inr ⟨eq, (Option.some.inj e).symm⟩

lemma grows_alloc : store.Grows (store.alloc data).2 :=
  ⟨by simp [alloc], fun _ l => lookup_alloc_of_lt l, fun _ _ => rfl⟩

/-- A handle that is handed out next has no alias name. -/
lemma Sound.aliasName?_nextId (h : store.Sound) : store.aliasName? store.nextId = none := by
  refine List.lookup_eq_none_iff.2 fun entry m => ?_
  have l := h.aliases entry m
  rw [bne_iff_ne]
  rintro e
  rw [← e] at l
  exact Nat.lt_irrefl _ l

/-- The intrinsic types keep their handles. -/
lemma Keeps.intrinsics (k : store.Keeps store') (h : store.Regular) :
    ∀ id, id.isIntrinsic = true → store'.lookup id = new.lookup id := by
  intro id i
  have e := h.intrinsics id i
  have known : ∀ k < TypeId.intrinsicCount, (new.lookup ⟨k⟩).isSome = true ∧
      new.lookup ⟨k⟩ ≠ some .pending := by decide
  obtain ⟨some, n⟩ := known id.index (of_decide_eq_true i)
  obtain ⟨data, e'⟩ := Option.isSome_iff_exists.1 some
  have n : data ≠ .pending := fun p => n (p ▸ e')
  have e' : new.lookup id = Option.some data := e'
  rw [e'] at e
  exact (k.lookup id data e n).trans e'.symm

/-- A store is regular if another one of which it keeps everything is, and it adds no literal that
is not its own. -/
lemma Regular.keeps (h : store.Regular) (k : store.Keeps store')
    (literals : ∀ value id, store'.literalIds.lookup value = some id →
      store.literalIds.lookup value = some id ∨ store'.lookup id = some (.literal value)) :
    store'.Regular where
  intrinsics := k.intrinsics h
  literals value id e := by
    rcases literals value id e with e | e
    · exact k.lookup id _ (h.literals value id e) (by simp)
    · exact e

/-- A store is sound if another one of which it keeps everything is, and it adds no literal or alias
name that is not its own. -/
lemma Sound.keeps (h : store.Sound) (k : store.Keeps store')
    (literals : ∀ value id, store'.literalIds.lookup value = some id →
      store.literalIds.lookup value = some id ∨ store'.lookup id = some (.literal value))
    (aliases : ∀ entry ∈ store'.aliasNames,
      entry ∈ store.aliasNames ∨ entry.1.index < store'.types.size) : store'.Sound where
  toRegular := h.toRegular.keeps k literals
  aliases entry m := by
    rcases aliases entry m with m | l
    · exact Nat.lt_of_lt_of_le (h.aliases entry m) k.size
    · exact l

lemma Sound.alloc (h : store.Sound) : (store.alloc data).2.Sound :=
  h.keeps grows_alloc.keeps (fun _ _ e => .inl e) fun _ m => .inl m

/-- A store of the intrinsic types alone is sound. -/
lemma sound_new : new.Sound :=
  ⟨⟨fun _ _ => rfl, fun _ _ e => by simp [new] at e⟩, fun _ m => absurd m List.not_mem_nil⟩

/-! ## Literals -/

/-- The store after a literal value is interned under a new handle. -/
def intern (store : TypeStore) (value : Literal) : TypeStore :=
  { (store.alloc (.literal value)).2 with
    literalIds := (value, store.nextId) :: store.literalIds }

/-- A literal value has a handle: a fixed one, or the one it was interned under. -/
def Interned (store : TypeStore) : Literal → TypeId → Prop
  | .boolean true, id => id = .booleanTrue
  | .boolean false, id => id = .booleanFalse
  | value, id => store.literalIds.lookup value = some id

lemma Interned.unique {value : Literal} {id' : TypeId} (h : store.Interned value id)
    (h' : store.Interned value id') : id = id' := by
  cases value with
  | boolean value =>
    cases value with
    | true => exact Eq.trans h (Eq.symm h')
    | false => exact Eq.trans h (Eq.symm h')
  | number => exact Option.some.inj (Eq.trans (Eq.symm h) h')
  | string => exact Option.some.inj (Eq.trans (Eq.symm h) h')

/-- A literal value that has a handle gets no other. -/
lemma literal_of_interned {value : Literal} (h : store.Interned value id) :
    store.literal value = (id, store) := by
  cases value with
  | boolean value =>
    cases value with
    | true => exact Prod.ext (Eq.symm h) rfl
    | false => exact Prod.ext (Eq.symm h) rfl
  | number value => simp [literal, show store.literalIds.lookup (.number value) = some id from h]
  | string value => simp [literal, show store.literalIds.lookup (.string value) = some id from h]

/-- A literal value that has no handle gets a new one. -/
lemma literal_of_not_interned {value : Literal} (h : ∀ id, ¬ store.Interned value id) :
    store.literal value = (store.nextId, store.intern value) ∧
      (store.intern value).Interned value store.nextId := by
  cases value with
  | boolean value =>
    cases value with
    | true => exact absurd rfl (h .booleanTrue)
    | false => exact absurd rfl (h .booleanFalse)
  | number value =>
    have none : store.literalIds.lookup (.number value) = none :=
      Option.eq_none_iff_forall_ne_some.2 h
    refine ⟨?_, List.lookup_cons_self⟩
    simp only [literal, none]
    rfl
  | string value =>
    have none : store.literalIds.lookup (.string value) = none :=
      Option.eq_none_iff_forall_ne_some.2 h
    refine ⟨?_, List.lookup_cons_self⟩
    simp only [literal, none]
    rfl

/-- A literal value is found, or interned under a new handle. -/
lemma literal_cases (store : TypeStore) (value : Literal) :
    (store.literal value).2 = store ∨ (store.literal value).2 = store.intern value := by
  by_cases i : ∃ id, store.Interned value id
  · obtain ⟨id, i⟩ := i
    rw [literal_of_interned i]
    exact .inl rfl
  · rw [(literal_of_not_interned (not_exists.1 i)).1]
    exact .inr rfl

lemma aliasName?_literal (store : TypeStore) (value : Literal) :
    (store.literal value).2.aliasName? = store.aliasName? := by
  rcases store.literal_cases value with e | e
  · rw [e]
  · rw [e]
    rfl

/-- The handle of a literal value stands for it. -/
lemma Regular.lookup_of_interned {value : Literal} (h : store.Regular)
    (i : store.Interned value id) : store.lookup id = some (.literal value) := by
  cases value with
  | boolean value =>
    cases value with
    | true =>
      cases i
      exact h.intrinsics .booleanTrue rfl
    | false =>
      cases i
      exact h.intrinsics .booleanFalse rfl
  | number => exact h.literals _ _ i
  | string => exact h.literals _ _ i

lemma grows_intern (value : Literal) : store.Grows (store.intern value) :=
  ⟨grows_alloc.size, fun _ l => lookup_alloc_of_lt l, fun _ _ => rfl⟩

/-- The handles of literal values are those from before, and the new one. -/
lemma literalIds_intern {value other : Literal}
    (e : (store.intern value).literalIds.lookup other = some id) :
    store.literalIds.lookup other = some id ∨
      (store.intern value).lookup id = some (.literal other) := by
  have e : List.lookup other ((value, store.nextId) :: store.literalIds) = some id := e
  rw [List.lookup_cons] at e
  split at e
  case h_1 eq =>
    cases e
    rw [eq_of_beq eq]
    exact .inr lookup_alloc
  case h_2 => exact .inl e

/-- Literal values that have handles keep them. -/
lemma Interned.intern {value other : Literal} (h : store.Interned other id)
    (fresh : ∀ id, ¬ store.Interned value id) : (store.intern value).Interned other id := by
  have kept : store.literalIds.lookup other = some id → store.Interned other id →
      List.lookup other ((value, store.nextId) :: store.literalIds) = some id := by
    intro e i
    have ne : other ≠ value := by
      rintro rfl
      exact fresh id i
    rw [lookup_cons_of_ne ne]
    exact e
  cases other with
  | boolean value =>
    cases value with
    | true => exact h
    | false => exact h
  | number => exact kept h h
  | string => exact kept h h

/-- A literal value has the handle that it is given. -/
lemma interned_literal (store : TypeStore) (value : Literal) :
    (store.literal value).2.Interned value (store.literal value).1 := by
  by_cases i : ∃ id, store.Interned value id
  · obtain ⟨id, i⟩ := i
    rw [literal_of_interned i]
    exact i
  · obtain ⟨e, i⟩ := literal_of_not_interned (not_exists.1 i)
    rw [e]
    exact i

lemma Interned.congr {value : Literal} (h : store.Interned value id)
    (e : store'.literalIds = store.literalIds) : store'.Interned value id := by
  cases value with
  | boolean value =>
    cases value with
    | true => exact h
    | false => exact h
  | number => exact (congrArg (List.lookup _) e).trans h
  | string => exact (congrArg (List.lookup _) e).trans h

lemma Regular.literal (h : store.Regular) (value : Literal) : (store.literal value).2.Regular := by
  rcases store.literal_cases value with e | e
  · rw [e]
    exact h
  · rw [e]
    exact h.keeps (grows_intern value).keeps fun _ _ => literalIds_intern

/-- A literal value has a handle, old or new, that stands for it. -/
lemma literal_spec (h : store.Sound) (value : Literal) :
    (store.literal value).2.lookup (store.literal value).1 = some (.literal value) ∧
      store.Grows (store.literal value).2 ∧ (store.literal value).2.Sound := by
  by_cases i : ∃ id, store.Interned value id
  · obtain ⟨id, i⟩ := i
    rw [literal_of_interned i]
    exact ⟨h.lookup_of_interned i, .refl _, h⟩
  · rw [(literal_of_not_interned (not_exists.1 i)).1]
    exact ⟨lookup_alloc, grows_intern value,
      h.keeps (grows_intern value).keeps (fun _ _ => literalIds_intern) fun _ m => .inl m⟩

/-! ## Reserved handles -/

/-- Naming a handle that was handed out later changes nothing that was there before. -/
lemma Grows.setAliasName (h : store.Grows store') (l : store.types.size ≤ id.index) :
    store.Grows (store'.setAliasName id name) := by
  refine ⟨h.size, h.lookup, fun other lo => ?_⟩
  have ne : other ≠ id := by
    rintro rfl
    exact Nat.not_lt_of_le l lo
  show ((id, name) :: store'.aliasNames).lookup other = store.aliasName? other
  rw [lookup_cons_of_ne ne]
  exact h.names other lo

/-- The store after a handle is reserved under an alias name. -/
def reserveNamed (store : TypeStore) (name : String) : TypeStore :=
  store.reserve.2.setAliasName store.nextId name

lemma aliasName?_reserveNamed : (store.reserveNamed name).aliasName? store.nextId = some name := by
  simp [aliasName?, reserveNamed, setAliasName]

lemma grows_reserveNamed : store.Grows (store.reserveNamed name) :=
  grows_alloc.setAliasName (Nat.le_refl _)

/-- A handle that is reserved under an alias name is new, and stands for nothing yet. -/
lemma reserveNamed_spec (h : store.Sound) (name : String) :
    (store.reserveNamed name).lookup store.nextId = some .pending ∧
      (store.reserveNamed name).aliasName? store.nextId = some name ∧
      store.Grows (store.reserveNamed name) ∧ (store.reserveNamed name).Sound := by
  refine ⟨lookup_alloc, aliasName?_reserveNamed, grows_reserveNamed, ?_⟩
  refine h.keeps grows_reserveNamed.keeps (fun _ _ e => .inl e) fun entry m => ?_
  cases m with
  | head => exact .inr (index_lt lookup_alloc)
  | tail _ m => exact .inl m

lemma define_of_pending (e : store.lookup id = some .pending) :
    (store.define id data).2 =
      { store with types := store.types.setIfInBounds id.index data } := by
  unfold define
  rw [e]

/-- A handle that is not reserved is not defined. -/
lemma define_of_not_pending (n : store.lookup id ≠ some .pending) :
    (store.define id data).2 = store := by
  unfold define
  split
  case h_1 e => exact absurd e n
  case h_2 => rfl

lemma lookup_define (e : store.lookup id = some .pending) :
    (store.define id data).2.lookup id = some data := by
  rw [define_of_pending e]
  simp [lookup, index_lt e]

lemma lookup_define_of_ne (e : store.lookup id = some .pending) {other : TypeId} (ne : other ≠ id) :
    (store.define id data).2.lookup other = store.lookup other := by
  have ne : id.index ≠ other.index := fun eq => ne (by cases id; cases other; simp_all)
  rw [define_of_pending e]
  simp [lookup, ne]

lemma aliasName?_define (e : store.lookup id = some .pending) :
    (store.define id data).2.aliasName? = store.aliasName? := by
  rw [define_of_pending e]
  rfl

lemma size_define (e : store.lookup id = some .pending) :
    (store.define id data).2.types.size = store.types.size := by
  rw [define_of_pending e]
  simp

lemma keeps_define (e : store.lookup id = some .pending) :
    store.Keeps (store.define id data).2 := by
  refine ⟨Nat.le_of_eq (size_define e).symm, fun other data' e' n => ?_,
    fun id _ => congrFun (aliasName?_define e) id⟩
  rw [lookup_define_of_ne e fun eq => n (by rw [eq, e] at e'; exact (Option.some.inj e').symm)]
  exact e'

lemma literalIds_define (e : store.lookup id = some .pending) :
    (store.define id data).2.literalIds = store.literalIds := by
  rw [define_of_pending e]

/-- A reserved handle is defined, and nothing else changes. -/
lemma define_spec (h : store.Sound) (e : store.lookup id = some .pending) (data : TypeData) :
    (store.define id data).2.lookup id = some data ∧
      (∀ other ≠ id, (store.define id data).2.lookup other = store.lookup other) ∧
      (store.define id data).2.aliasName? = store.aliasName? ∧
      (store.define id data).2.types.size = store.types.size ∧
      store.Keeps (store.define id data).2 ∧ (store.define id data).2.Sound := by
  refine ⟨lookup_define e, fun _ => lookup_define_of_ne e, aliasName?_define e, size_define e,
    keeps_define e, h.keeps (keeps_define e) ?_ ?_⟩
  · rw [define_of_pending e]
    exact fun _ _ e => .inl e
  · rw [define_of_pending e]
    exact fun _ m => .inl m

/-- Defining a handle that was handed out later changes nothing that was there before. -/
lemma Grows.define (h : store.Grows store') (e : store'.lookup id = some .pending)
    (l : store.types.size ≤ id.index) (data : TypeData) :
    store.Grows (store'.define id data).2 := by
  refine ⟨?_, fun other lo => ?_, fun other lo => ?_⟩
  · rw [size_define e]
    exact h.size
  · have ne : other ≠ id := by
      rintro rfl
      exact Nat.not_lt_of_le l lo
    exact (lookup_define_of_ne e ne).trans (h.lookup other lo)
  · exact (congrFun (aliasName?_define e) other).trans (h.names other lo)

/-- The store after a new handle is reserved and defined at once. -/
def place (store : TypeStore) (data : TypeData) : TypeStore :=
  (store.reserve.2.define store.nextId data).2

lemma lookup_reserve : store.reserve.2.lookup store.nextId = some .pending := lookup_alloc

lemma lookup_place : (store.place data).lookup store.nextId = some data :=
  lookup_define lookup_reserve

lemma grows_place : store.Grows (store.place data) :=
  grows_alloc.define lookup_reserve (Nat.le_refl _) data

lemma aliasName?_place : (store.place data).aliasName? = store.aliasName? :=
  aliasName?_define lookup_reserve

lemma literalIds_place : (store.place data).literalIds = store.literalIds :=
  literalIds_define lookup_reserve

/-- A handle that is reserved and defined is new, and has no alias name. -/
lemma place_spec (h : store.Sound) (data : TypeData) :
    (store.place data).lookup store.nextId = some data ∧
      (store.place data).aliasName? store.nextId = none ∧
      (store.place data).types.size = store.nextId.index + 1 ∧
      store.Grows (store.place data) ∧ (store.place data).Sound := by
  obtain ⟨-, -, names, size, -, sound⟩ := define_spec h.alloc lookup_reserve data
  have grown : store.reserve.2.types.size = store.nextId.index + 1 := by
    simp [reserve, alloc, nextId]
  exact ⟨lookup_place, (congrFun names _).trans h.aliasName?_nextId, size.trans grown, grows_place,
    sound⟩

end TypeSchema.TypeStore
