import Mathlib.Algebra.GroupWithZero.Nat
import Mathlib.Data.List.Dedup
import TypeSchema.Proofs.Import.Reachable
import TypeSchema.Proofs.Lowering.Expressed

/-!
# How much a lowering adds to a store

A lowering adds one type for every expression with parts that occurs in the declarations, and one
for every string or number literal that has no handle yet. Bodies that are not lowered yet are
counted as well while declarations are lowered: resolving a name that leads to a body with parts
takes the expressions of the body off this count and adds as many types. So every body is lowered
once, wherever its name occurs.
-/

namespace TypeSchema

/-- Whether a literal is a boolean, which has a fixed handle. -/
def Literal.isBoolean : Literal → Bool
  | boolean _ => true
  | _ => false

/-- The value of a literal. -/
def TypeExpr.literal? : TypeExpr → Option Literal
  | literal value => some value
  | _ => none

/-- The string and number literals that occur in declarations and have no handle in the store, each
given once. -/
def newLiterals (store : TypeStore) (declarations : List Declaration) : List Literal :=
  (((occurring declarations).filterMap TypeExpr.literal?).filter fun value =>
    !value.isBoolean && (store.literalIds.lookup value).isNone).dedup

/-! ## Expressions with parts -/

/-- The number of expressions with parts that occur in an expression. -/
def TypeExpr.weight (type : TypeExpr) : Nat := type.preorder.countP (·.isStructural)

namespace TypeExpr

variable {type : TypeExpr}

lemma weight_of_isStructural (k : type.isStructural = true) :
    type.weight = (type.parts.map weight).sum + 1 := by
  unfold weight
  rw [preorder_eq, List.countP_cons_of_pos k, List.countP_flatMap]
  rfl

lemma weight_of_not_isStructural (k : type.isStructural = false) : type.weight = 0 := by
  have none : type.parts = [] := by
    refine List.eq_nil_iff_forall_not_mem.2 fun part m => ?_
    rw [isStructural_of_part m] at k
    cases k
  unfold weight
  rw [preorder_eq, List.countP_cons_of_neg (by simp [k]), none]
  rfl

end TypeExpr

namespace TypeStore

variable {store : TypeStore} {id : TypeId} {data : TypeData}

/-- Defining a handle adds none, whether it was reserved or not. -/
lemma types_size_define : (store.define id data).2.types.size = store.types.size := by
  by_cases e : store.lookup id = some .pending
  · exact size_define e
  · rw [define_of_not_pending e]

lemma literalIds_of_define : (store.define id data).2.literalIds = store.literalIds := by
  by_cases e : store.lookup id = some .pending
  · exact literalIds_define e
  · rw [define_of_not_pending e]

lemma types_size_alloc : (store.alloc data).2.types.size = store.types.size + 1 := by
  simp [alloc]

/-- The data of an expression has no other handles than those of the parts. -/
lemma handles_of_hasShape {type : TypeExpr} {ids : List TypeId}
    (h : store.HasShape type ids data) : ∀ other ∈ data.handles, other ∈ ids := by
  cases h with
  | @keyed key value keyId valueId names =>
    intro other m
    obtain ⟨-, rfl⟩ : (∃ name, name ∈ names) ∧ valueId = other := by
      simpa [TypeData.handles] using m
    exact List.mem_cons_of_mem _ (List.mem_singleton_self _)
  | _ => simp [TypeData.handles]

end TypeStore

namespace Lowering

variable {declarations : List Declaration} {s s' s'' : LowerState} {pending : List String}
  {type : TypeExpr} {id : TypeId} {resolved resolved' : List (String × TypeId)}
  {declaration : Declaration} {chain : List String} {count more : Nat}

/-! ## Bodies that are not lowered yet -/

/-- The number of expressions with parts in the bodies of declarations that are not resolved. -/
def outstanding (declarations : List Declaration) (resolved : List (String × TypeId)) : Nat :=
  ((declarations.filter fun declaration => (resolved.lookup declaration.name).isNone).map
    (·.type.weight)).sum

lemma outstanding_cons {rest : List Declaration} :
    outstanding (declaration :: rest) resolved =
      (if (resolved.lookup declaration.name).isNone then declaration.type.weight else 0) +
        outstanding rest resolved := by
  unfold outstanding
  rw [List.filter_cons]
  split
  case isTrue => rw [List.map_cons, List.sum_cons]
  case isFalse => rw [Nat.zero_add]

/-- Only names of declarations whose bodies have parts count. -/
lemma outstanding_congr (h : ∀ declaration ∈ declarations, declaration.type.weight ≠ 0 →
      resolved.lookup declaration.name = resolved'.lookup declaration.name ∨
        resolved.lookup declaration.name ≠ none ∧ resolved'.lookup declaration.name ≠ none) :
    outstanding declarations resolved = outstanding declarations resolved' := by
  induction declarations with
  | nil => rfl
  | cons first rest ih =>
    obtain ⟨here, others⟩ := List.forall_mem_cons.1 h
    rw [outstanding_cons, outstanding_cons, ih others]
    by_cases w : first.type.weight = 0
    · simp [w]
    · rcases here w with e | ⟨some, some'⟩
      · rw [e]
      · rw [if_neg (by simpa using some), if_neg (by simpa using some')]

/-- A name that is resolved takes the body of its declaration off. -/
lemma outstanding_resolve (n : (declarations.map (·.name)).Nodup) (m : declaration ∈ declarations)
    (r : resolved.lookup declaration.name = none) :
    outstanding declarations ((declaration.name, id) :: resolved) + declaration.type.weight =
      outstanding declarations resolved := by
  induction declarations with
  | nil => cases m
  | cons first rest ih =>
    rw [List.map_cons, List.nodup_cons] at n
    rw [outstanding_cons, outstanding_cons]
    cases m with
    | head =>
      have others : outstanding rest ((declaration.name, id) :: resolved) =
          outstanding rest resolved := by
        refine outstanding_congr fun other mo _ => .inl ?_
        have ne : other.name ≠ declaration.name := fun e => n.1 (e ▸ List.mem_map_of_mem mo)
        rw [lookup_cons_of_ne ne]
      rw [others, List.lookup_cons_self, r]
      simp [Nat.add_comm]
    | tail _ m =>
      have ne : first.name ≠ declaration.name := fun e => n.1 (e ▸ List.mem_map_of_mem m)
      rw [lookup_cons_of_ne ne, Nat.add_assoc, ih n.2 m]

/-- The names of a chain but for the last one stand for names, so that their bodies have no
parts. -/
lemma AliasChain.weight_eq_zero {last : Declaration}
    (l : AliasChain declarations resolved chain last) (n : (declarations.map (·.name)).Nodup)
    (m : declaration ∈ declarations) (mc : declaration.name ∈ chain) :
    declaration = last ∨ declaration.type.weight = 0 := by
  have known : ∀ other, declared? declarations other.name = some other →
      declaration.name = other.name → declaration = other := by
    intro other c e
    rw [← e, declared?_eq_some n m] at c
    exact Option.some.inj c
  induction l with
  | start c => exact .inl (known _ c (List.mem_singleton.1 mc))
  | next before e c r ih =>
    rcases List.mem_cons.1 mc with e' | mc
    · exact .inl (known _ c e')
    · rcases ih mc with rfl | w
      · rw [e]
        exact .inr rfl
      · exact .inr w

/-! ## Counting types -/

/-- From the first state to the second, as many types that are no literals were added as bodies were
lowered, and `count` more. -/
def Tallies (declarations : List Declaration) (count : Nat) (s s' : LowerState) : Prop :=
  s'.store.types.size + outstanding declarations s'.resolved + s.store.literalIds.length =
    s.store.types.size + outstanding declarations s.resolved + s'.store.literalIds.length + count

lemma Tallies.refl (s : LowerState) : Tallies declarations 0 s s := rfl

lemma Tallies.trans (h : Tallies declarations count s s') (h' : Tallies declarations more s' s'') :
    Tallies declarations (count + more) s s'' := by
  unfold Tallies at *
  omega

/-- A literal that is interned adds a type and a literal. -/
lemma tallies_literal (value : Literal) :
    Tallies declarations 0 s { s with store := (s.store.literal value).2 } := by
  unfold Tallies
  rcases s.store.literal_cases value with e | e
  · rw [e]
    rfl
  · rw [e]
    simp only [TypeStore.intern, TypeStore.types_size_alloc, List.length_cons]
    omega

/-- Resolving names adds no types, and takes no body off if those of the names have no parts or are
resolved already. -/
lemma tallies_withChain (h : ∀ declaration ∈ declarations, declaration.name ∈ chain →
      s.resolved.lookup declaration.name ≠ none ∨ declaration.type.weight = 0) :
    Tallies declarations 0 s (s.withChain chain id) := by
  have same : outstanding declarations (s.withChain chain id).resolved =
      outstanding declarations s.resolved := by
    refine outstanding_congr fun declaration m w => ?_
    by_cases mc : declaration.name ∈ chain
    · refine .inr ⟨?_, (h declaration m mc).resolve_right w⟩
      rw [lookup_withChain mc]
      exact nofun
    · exact .inl (lookup_withChain_of_not_mem mc)
  unfold Tallies
  rw [same]
  rfl

/-- Reserving the handle of a body takes its expressions off and adds one type. -/
lemma tallies_resolving (n : (declarations.map (·.name)).Nodup) (m : declaration ∈ declarations)
    (k : declaration.type.isStructural = true) (r : s.resolved.lookup declaration.name = none)
    (h : Tallies declarations (declaration.type.parts.map TypeExpr.weight).sum
      (s.resolving declaration.name) s') : Tallies declarations 0 s s' := by
  have taken : outstanding declarations (s.resolving declaration.name).resolved +
      declaration.type.weight = outstanding declarations s.resolved := outstanding_resolve n m r
  have size : (s.resolving declaration.name).store.types.size = s.store.types.size + 1 :=
    TypeStore.types_size_alloc
  have literals : (s.resolving declaration.name).store.literalIds = s.store.literalIds := rfl
  rw [TypeExpr.weight_of_isStructural k] at taken
  unfold Tallies at *
  rw [size, literals] at h
  omega

lemma tallies_define {data : TypeData} :
    Tallies declarations 0 s { s with store := (s.store.define id data).2 } := by
  unfold Tallies
  rw [TypeStore.types_size_define, TypeStore.literalIds_of_define]
  rfl

/-- A handle that is placed is one more type. -/
lemma tallies_place {data : TypeData} :
    Tallies declarations 1 s { s with store := s.store.place data } := by
  have size : (s.store.place data).types.size = s.store.types.size + 1 :=
    TypeStore.types_size_define.trans TypeStore.types_size_alloc
  unfold Tallies
  rw [size, TypeStore.literalIds_place]
  dsimp only
  omega

lemma tallies_threads {types : List TypeExpr} {ids : List TypeId}
    (h : Walk.Threads (fun type s id s' => Lowers declarations type s id s' ∧
      (s.Faithful declarations pending → Tallies declarations type.weight s s')) types s ids s')
    (f : s.Faithful declarations pending) :
    Tallies declarations (types.map TypeExpr.weight).sum s s' := by
  induction h with
  | nil => exact .refl _
  | cons first _ ih =>
    rw [List.map_cons, List.sum_cons]
    exact (first.2 f).trans (ih (first.1.outcome f).faithful)

/-- Lowering an expression adds one type for each expression with parts that occurs in it. -/
theorem Lowers.tallies (h : Lowers declarations type s id s')
    (n : (declarations.map (·.name)).Nodup) (f : s.Faithful declarations pending) :
    Tallies declarations type.weight s s' := by
  induction h using Lowers.induct generalizing pending with
  | keyword => exact .refl _
  | literal => exact tallies_literal _
  | known => exact .refl _
  | @linked name s chain id r e =>
    have ends : EndsWell declarations s.resolved name (.resolved chain id) :=
      e ▸ endsWell_chainEnd r
    obtain ⟨-, last, target, l, t, -⟩ := ends
    refine tallies_withChain fun declaration m mc => .inr ?_
    rcases l.weight_eq_zero n m mc with rfl | w
    · rw [t]
      rfl
    · exact w
  | @plain name s chain declaration id t r e k h ih =>
    have ends : EndsWell declarations s.resolved name (.body chain declaration) :=
      e ▸ endsWell_chainEnd r
    have l := ends.2
    have light := TypeExpr.weight_of_not_isStructural k
    have lowered := ih f
    rw [light] at lowered
    have body : Tallies declarations 0 t (t.withChain [declaration.name] id) := by
      refine tallies_withChain fun other m mc => .inr ?_
      have e := List.mem_singleton.1 mc
      have c := declared?_eq_some n m
      rw [e, l.declared] at c
      exact Option.some.inj c ▸ light
    refine (lowered.trans body).trans (tallies_withChain fun other m mc => .inr ?_)
    rcases l.weight_eq_zero n m mc with rfl | w
    · exact light
    · exact w
  | @body name s chain declaration ids t data r e k all shape ih =>
    have ends : EndsWell declarations s.resolved name (.body chain declaration) :=
      e ▸ endsWell_chainEnd r
    have l := ends.2
    have u := l.unresolved_last
    obtain ⟨-, f1⟩ := faithful_resolving f u
    obtain ⟨a, -, -⟩ := outcome_threads (all.imp fun _ _ _ _ h _ f => h.outcome f) f1
    -- The weight of the body is taken off where its name is resolved, before its parts are lowered.
    have parts := tallies_threads (ih.imp fun _ _ _ _ ⟨h, step⟩ => ⟨h, fun f => step f⟩) f1
    have body := tallies_resolving n (List.mem_of_find?_eq_some l.declared) k u parts
    refine (body.trans tallies_define).trans (tallies_withChain fun other m mc => ?_)
    rcases l.weight_eq_zero n m mc with rfl | w
    · refine .inl (a.resolved_ne_none ?_)
      show List.lookup other.name ((other.name, s.store.nextId) :: s.resolved) ≠ none
      rw [List.lookup_cons_self]
      exact nofun
    · exact .inr w
  | @parted type s ids t data k all shape ih =>
    have parts := tallies_threads (ih.imp fun _ _ _ _ ⟨h, step⟩ => ⟨h, fun f => step f⟩) f
    rw [TypeExpr.weight_of_isStructural k]
    exact parts.trans tallies_place

/-! ## Counting literals -/

/-- The literals that were interned after the ones of the store are different from these and from
each other, and occur in the declarations. -/
def Interns (declarations : List Declaration) (store : TypeStore) (s : LowerState) : Prop :=
  ∃ new, s.store.literalIds = new ++ store.literalIds ∧ (new.map (·.1)).Nodup ∧
    ∀ value ∈ new.map (·.1), value.isBoolean = false ∧ store.literalIds.lookup value = none ∧
      .literal value ∈ occurring declarations

variable {store store' : TypeStore}

lemma Interns.congr (h : Interns declarations store s)
    (e : s'.store.literalIds = s.store.literalIds) : Interns declarations store s' := by
  obtain ⟨new, e', n, all⟩ := h
  exact ⟨new, e.trans e', n, all⟩

/-- A literal of the declarations that has no handle yet is interned. -/
lemma Interns.literal (h : Interns declarations store s) {value : Literal}
    (m : .literal value ∈ occurring declarations) :
    Interns declarations store { s with store := (s.store.literal value).2 } := by
  by_cases i : ∃ id, s.store.Interned value id
  · obtain ⟨id, i⟩ := i
    exact h.congr (congrArg (·.2.literalIds) (TypeStore.literal_of_interned i))
  · have fresh := not_exists.1 i
    have boolean : value.isBoolean = false := by
      cases value with
      | boolean value => cases value <;> exact absurd rfl (fresh _)
      | _ => rfl
    have unknown : s.store.literalIds.lookup value = none := by
      cases value with
      | boolean => cases boolean
      | _ => exact Option.eq_none_iff_forall_ne_some.2 fresh
    obtain ⟨new, e, n, all⟩ := h
    rw [e, List.lookup_append, Option.or_eq_none_iff] at unknown
    refine ⟨(value, s.store.nextId) :: new, ?_, ?_, ?_⟩
    · show (s.store.literal value).2.literalIds = _
      rw [(TypeStore.literal_of_not_interned fresh).1]
      exact congrArg ((value, s.store.nextId) :: ·) e
    · refine List.nodup_cons.2 ⟨fun mv => ?_, n⟩
      obtain ⟨⟨_, id⟩, me, rfl⟩ := List.mem_map.1 mv
      exact lookup_ne_none me unknown.1
    · exact List.forall_mem_cons.2 ⟨⟨boolean, unknown.2, m⟩, all⟩

lemma interns_threads {types : List TypeExpr} {ids : List TypeId}
    (h : Walk.Threads (fun _ s _ s' => Interns declarations store s →
      Interns declarations store s') types s ids s') (i : Interns declarations store s) :
    Interns declarations store s' :=
  (h.preserves (E := fun _ _ => True) (fun _ => trivial) (fun _ _ _ _ _ => trivial)
    (fun _ _ _ _ step i => ⟨step i, trivial⟩) i).1

/-- A lowering interns literals of the declarations, each once. -/
theorem Lowers.interns (h : Lowers declarations type s id s')
    (m : (∀ name, type ≠ .named name []) → type ∈ occurring declarations)
    (i : Interns declarations store s) : Interns declarations store s' := by
  induction h using Lowers.induct with
  | keyword => exact i
  | literal => exact i.literal (m nofun)
  | known => exact i
  | linked => exact i.congr rfl
  | plain r e _ _ ih =>
    have ends := endsAt_of_chainEnd e
    exact (ih (fun _ => occurring_of_mem (List.mem_of_find?_eq_some ends.declared)) i).congr rfl
  | @body name s chain declaration ids t data r e k _ _ ih =>
    have occurs := occurring_of_mem (List.mem_of_find?_eq_some (endsAt_of_chainEnd e).declared)
    have start : Interns declarations store (s.resolving declaration.name) := i.congr rfl
    have inside : Interns declarations store t := by
      refine interns_threads (ih.mem.imp ?_) start
      rintro part s id s' ⟨mp, -, _, step⟩
      exact step fun _ => occurring_of_part occurs mp
    exact inside.congr TypeStore.literalIds_of_define
  | @parted type s ids t data k _ _ ih =>
    have occurs := m (ne_named_of_isStructural k)
    have inside : Interns declarations store t := by
      refine interns_threads (ih.mem.imp ?_) i
      rintro part s id s' ⟨mp, -, _, step⟩
      exact step fun _ => occurring_of_part occurs mp
    exact inside.congr TypeStore.literalIds_place

/-! ## Whole declarations -/

lemma mem_newLiterals {value : Literal} : value ∈ newLiterals store declarations ↔
    .literal value ∈ occurring declarations ∧ value.isBoolean = false ∧
      store.literalIds.lookup value = none := by
  have literal : value ∈ (occurring declarations).filterMap TypeExpr.literal? ↔
      .literal value ∈ occurring declarations := by
    rw [List.mem_filterMap]
    constructor
    · rintro ⟨type, m, e⟩
      cases type with
      | literal => exact Option.some.inj e ▸ m
      | _ => cases e
    · exact fun m => ⟨_, m, rfl⟩
  unfold newLiterals
  rw [List.mem_dedup, List.mem_filter, literal]
  simp

lemma nodup_newLiterals : (newLiterals store declarations).Nodup := List.nodup_dedup _

namespace Completed

variable (c : Completed store declarations s)

include c

/-- The interned literals are the new ones of the declarations. -/
lemma length_literalIds (i : Interns declarations store s) :
    s.store.literalIds.length =
      (newLiterals store declarations).length + store.literalIds.length := by
  obtain ⟨new, e, n, all⟩ := i
  have perm : (new.map (·.1)).Perm (newLiterals store declarations) := by
    refine (List.perm_ext_iff_of_nodup n nodup_newLiterals).2 fun value => ?_
    rw [mem_newLiterals]
    constructor
    · intro m
      obtain ⟨boolean, unknown, occurs⟩ := all value m
      exact ⟨occurs, boolean, unknown⟩
    · rintro ⟨occurs, boolean, unknown⟩
      obtain ⟨id, d⟩ := c.denotes_of_occurring occurs
      cases d with
      | literal interned =>
        have found : s.store.literalIds.lookup value = some id := by
          cases value with
          | boolean => cases boolean
          | _ => exact interned
        rw [e, List.lookup_append, unknown, Option.or_none] at found
        exact List.mem_map.2 ⟨_, mem_of_lookup found, rfl⟩
      | parted shape => cases shape
  rw [e, List.length_append, ← perm.length_eq, List.length_map]

/-- Nothing is left to be lowered. -/
lemma outstanding_eq_zero : outstanding declarations s.resolved = 0 := by
  have none : (declarations.filter fun declaration =>
      (s.resolved.lookup declaration.name).isNone) = [] := by
    refine List.filter_eq_nil_iff.2 fun declaration m => ?_
    obtain ⟨id, e⟩ := c.resolved declaration m
    simp [e]
  unfold outstanding
  rw [none]
  rfl

/-- What denotes an expression was handed out. -/
lemma index_lt (d : s.Denotes type id) : id.index < s.store.types.size := by
  cases d with
  | @keyword word =>
    have intrinsic : word.typeId.isIntrinsic = true := by cases word <;> rfl
    have hands : s.store.Hands 0 word.typeId := c.hands.regular.hands_intrinsic intrinsic
    exact hands.index
  | literal _ found => exact TypeStore.index_lt found
  | name found => exact (c.hands.resolved _ (mem_of_lookup found)).index
  | parted _ _ found => exact TypeStore.index_lt found

/-- The handles in the data behind a new handle were handed out. -/
lemma handles_lt {data : TypeData} (e : s.store.lookup id = some data)
    (l : store.types.size ≤ id.index) :
    ∀ other ∈ data.handles, other.index < s.store.types.size := by
  intro other m
  by_cases literal : ∃ value, data = .literal value
  · obtain ⟨_, rfl⟩ := literal
    cases m
  · obtain ⟨type, -, ids, shape, parts⟩ := c.expresses e l (not_exists.1 literal)
    have given := TypeStore.handles_of_hasShape shape other m
    obtain ⟨part, -, d⟩ := exists_of_forall₂ parts.flip other given
    exact c.index_lt d

end Completed

/-- Before anything is lowered, all expressions of the declarations are outstanding. -/
lemma outstanding_nil :
    outstanding declarations [] = (occurring declarations).countP (·.isStructural) := by
  have all : (declarations.filter fun declaration =>
      (List.lookup declaration.name ([] : List (String × TypeId))).isNone) = declarations :=
    List.filter_eq_self.2 fun _ _ => rfl
  unfold outstanding occurring
  rw [all, List.countP_flatMap]
  rfl

/-- Names have no expressions with parts in them. -/
lemma sum_weight_names (others : List Declaration) :
    ((others.map (.named ·.name [])).map TypeExpr.weight).sum = 0 := by
  induction others with
  | nil => rfl
  | cons first rest ih =>
    rw [List.map_cons, List.map_cons, List.sum_cons, ih]
    rfl

/--
A lowering of declarations, whether it succeeds or stops, leaves the types and alias names that were
there as they are. If it succeeds, no new handle is reserved only, the handles in the data of new
types were handed out, and there is one new type for each expression with parts that occurs in the
declarations and one for each new string or number literal.
-/
theorem lowerDeclarations_extends {result : Except (WalkStop LowerError) (List (String × TypeId))}
    (r : store.Reachable) (h : lowerDeclarations store declarations = (result, store')) :
    store.Grows store' ∧
    ∀ handles, result = .ok handles →
      (∀ id data, store'.lookup id = some data → store.types.size ≤ id.index →
        data ≠ .pending ∧ ∀ other ∈ data.handles, other.index < store'.types.size) ∧
      store'.types.size = store.types.size + (occurring declarations).countP (·.isStructural) +
        (newLiterals store declarations).length := by
  have grown := kept_grows.lowerDeclarations store declarations
  rw [h] at grown
  refine ⟨grown, ?_⟩
  rintro handles rfl
  obtain ⟨s, rfl, c, ids, threads⟩ := completed_of_lowerDeclarations r h
  refine ⟨fun id data e l => ⟨?_, c.handles_lt e l⟩, ?_⟩
  · rintro rfl
    exact absurd (TypeStore.index_lt (c.settles id e)) (Nat.not_lt_of_le l)
  · have tallies := tallies_threads
      (threads.imp fun _ _ _ _ h => ⟨h, fun f => h.tallies c.nodup f⟩) (faithful_start r)
    have interns : Interns declarations store s := by
      refine interns_threads (threads.mem.imp ?_) ⟨[], rfl, .nil, fun _ m => nomatch m⟩
      rintro type s id s' ⟨m, -, h⟩
      obtain ⟨declaration, -, rfl⟩ := List.mem_map.1 m
      exact h.interns fun n => absurd rfl (n _)
    have literals := c.length_literalIds interns
    have start : outstanding declarations (start store).resolved = _ := outstanding_nil
    unfold Tallies at tallies
    rw [sum_weight_names, c.outstanding_eq_zero, start, literals] at tallies
    have base : (Lowering.start store).store = store := rfl
    rw [base] at tallies
    omega

/-- The forest has four expressions with parts, and one literal that is written down twice. -/
theorem lowerDeclarations_extends_forest :
    ∃ handles store', lowerDeclarations .new forest = (.ok handles, store') ∧
      TypeStore.new.Reachable ∧ TypeStore.new.Grows store' ∧
      (∀ id data, store'.lookup id = some data → 13 ≤ id.index →
        data ≠ .pending ∧ ∀ other ∈ data.handles, other.index < store'.types.size) ∧
      store'.types.size = 13 + 4 + 1 := by
  obtain ⟨store', h⟩ := lowerDeclarations_forest
  obtain ⟨grown, added⟩ := lowerDeclarations_extends .new h
  obtain ⟨handed, size⟩ := added _ rfl
  have parted : (occurring forest).countP (·.isStructural) = 4 := by decide +kernel
  have literals : newLiterals .new forest = [.string "leaf"] := by decide +kernel
  rw [parted, literals] at size
  exact ⟨_, store', h, .new, grown, handed, size⟩

end Lowering

end TypeSchema
