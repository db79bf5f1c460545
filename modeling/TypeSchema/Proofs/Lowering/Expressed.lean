import TypeSchema.Proofs.Lowering.Acceptance
import TypeSchema.Proofs.Lowering.Handles
import TypeSchema.Proofs.Lowering.Occurrences

/-!
# What new handles stand for

A lowering adds handles for literals and for expressions of the declarations, and nothing else: the
data behind a new handle has the shape of an expression that occurs in the declarations, and the
handles in the data denote the parts of that expression. A handle that is reserved for a body gets
such data in the end. In the other direction, every expression that occurs in the declarations is
denoted by a handle.
-/

namespace TypeSchema

namespace LowerState

/-- The data has the shape of an expression of the declarations, and its handles denote the parts of
this expression. -/
def Expresses (s : LowerState) (declarations : List Declaration) (data : TypeData) : Prop :=
  ∃ type ∈ occurring declarations, ∃ ids,
    s.store.HasShape type ids data ∧ List.Forall₂ s.Denotes type.parts ids

/-- The handles from `count` on stand for literals or expressions of the declarations, or are
reserved. -/
def Expressed (s : LowerState) (declarations : List Declaration) (count : Nat) : Prop :=
  ∀ id data, s.store.lookup id = some data → count ≤ id.index →
    data = .pending ∨ (∃ value, data = .literal value) ∨ s.Expresses declarations data

variable {s s' : LowerState} {declarations : List Declaration} {data : TypeData} {count : Nat}

lemma Expresses.mono (h : s.Expresses declarations data) (r : s.store.Retains s'.store)
    (known : ∀ name id, s.resolved.lookup name = some id → s'.resolved.lookup name = some id) :
    s'.Expresses declarations data := by
  obtain ⟨type, m, ids, shape, parts⟩ := h
  exact ⟨type, m, ids, shape.mono r.toKeeps, parts.imp fun _ _ d => d.mono r known⟩

/-- Handles stay expressed, if those that are added or defined are. -/
lemma Expressed.mono (h : s.Expressed declarations count) (r : s.store.Retains s'.store)
    (known : ∀ name id, s.resolved.lookup name = some id → s'.resolved.lookup name = some id)
    (new : ∀ id data, s'.store.lookup id = some data → s.store.lookup id = some data ∨
      data = .pending ∨ (∃ value, data = .literal value) ∨ s'.Expresses declarations data) :
    s'.Expressed declarations count := by
  intro id data e l
  rcases new id data e with e | new
  · exact (h id data e l).imp_right (Or.imp_right fun x => x.mono r known)
  · exact new

/-- Resolving names adds no handle. -/
lemma Expressed.withChain {chain : List String} {id : TypeId} (h : s.Expressed declarations count)
    (a : s.Advances (s.withChain chain id)) : (s.withChain chain id).Expressed declarations count :=
  h.mono a.retains a.resolved fun _ _ e => .inl e

end LowerState

namespace Lowering

variable {declarations : List Declaration} {s s' t : LowerState} {pending : List String}
  {type : TypeExpr} {id : TypeId} {ids : List TypeId} {data : TypeData} {count : Nat}
  {declaration : Declaration}

/-! ## Single steps -/

lemma expressed_literal (x : s.Expressed declarations count) (value : Literal) :
    LowerState.Expressed { s with store := (s.store.literal value).2 } declarations count := by
  have a : s.Advances { s with store := (s.store.literal value).2 } := advances_literal value
  refine x.mono a.retains a.resolved fun id data e => ?_
  have e : (s.store.literal value).2.lookup id = some data := e
  rcases s.store.literal_cases value with same | interned
  · rw [same] at e
    exact .inl e
  · rw [interned] at e
    refine (TypeStore.lookup_of_lookup_alloc e).imp_right fun new => .inr (.inl ⟨value, new.2⟩)

lemma expressed_resolving {name : String} (x : s.Expressed declarations count)
    (f : s.Faithful declarations pending) (r : s.resolved.lookup name = none) :
    (s.resolving name).Expressed declarations count := by
  have a := (faithful_resolving f r).1
  refine x.mono a.retains a.resolved fun id data e => ?_
  have e : s.store.reserve.2.lookup id = some data := e
  exact (TypeStore.lookup_of_lookup_alloc e).imp_right fun new => .inl new.2

/-- A reserved handle is defined as the expression that its body is. -/
lemma expressed_define (x : t.Expressed declarations count)
    (reserved : t.store.lookup id = some .pending) (m : type ∈ occurring declarations)
    (shape : t.store.HasShape type ids data) (parts : List.Forall₂ t.Denotes type.parts ids) :
    LowerState.Expressed { t with store := (t.store.define id data).2 } declarations count := by
  have r : t.store.Retains (t.store.define id data).2 := TypeStore.retains_define reserved
  have expresses : t.Expresses declarations data := ⟨type, m, ids, shape, parts⟩
  refine x.mono r (fun _ _ e => e) fun other data' e => ?_
  have e : (t.store.define id data).2.lookup other = some data' := e
  by_cases eq : other = id
  · rw [eq, TypeStore.lookup_define reserved] at e
    obtain rfl := Option.some.inj e
    exact .inr (.inr (.inr (expresses.mono r fun _ _ e => e)))
  · rw [TypeStore.lookup_define_of_ne reserved eq] at e
    exact .inl e

/-- A new handle is placed for an expression. -/
lemma expressed_place (x : t.Expressed declarations count) (m : type ∈ occurring declarations)
    (shape : t.store.HasShape type ids data) (parts : List.Forall₂ t.Denotes type.parts ids) :
    LowerState.Expressed { t with store := t.store.place data } declarations count := by
  have r : t.store.Retains t.store.reserve.2 :=
    ⟨TypeStore.grows_alloc.keeps, fun _ _ i => i.congr rfl⟩
  have reserved :
      LowerState.Expressed { t with store := t.store.reserve.2 } declarations count := by
    refine x.mono r (fun _ _ e => e) fun id data e => ?_
    exact (TypeStore.lookup_of_lookup_alloc e).imp_right fun new => .inl new.2
  have defined := expressed_define reserved TypeStore.lookup_reserve m (shape.mono r.toKeeps)
    (parts.imp fun _ _ d => d.mono r fun _ _ e => e)
  exact defined

/-! ## Lowerings -/

/-- An expression with parts is no bare name. -/
lemma ne_named_of_isStructural (k : type.isStructural = true) (name : String) :
    type ≠ .named name [] := by
  rintro rfl
  cases k

lemma expressed_threads {types : List TypeExpr}
    (h : Walk.Threads (fun type s id s' => Lowers declarations type s id s' ∧
      (s.Faithful declarations pending → s.Expressed declarations count →
        s'.Expressed declarations count)) types s ids s')
    (f : s.Faithful declarations pending) (x : s.Expressed declarations count) :
    s'.Expressed declarations count :=
  (h.preserves (I := fun s => s.Faithful declarations pending ∧ s.Expressed declarations count)
    (E := fun _ _ => True) (fun _ => trivial) (fun _ _ _ _ _ => trivial)
    (fun _ _ _ _ ⟨h, step⟩ ⟨f, x⟩ => ⟨⟨(h.outcome f).faithful, step f x⟩, trivial⟩) ⟨f, x⟩).1.2

/-- A lowering adds handles for literals and expressions of the declarations only. -/
theorem Lowers.expressed (h : Lowers declarations type s id s')
    (f : s.Faithful declarations pending)
    (m : (∀ name, type ≠ .named name []) → type ∈ occurring declarations)
    (x : s.Expressed declarations count) : s'.Expressed declarations count := by
  induction h using Lowers.induct generalizing pending with
  | keyword => exact x
  | literal => exact expressed_literal x _
  | known => exact x
  | @linked name s chain id r e =>
    have ends : EndsWell declarations s.resolved name (.resolved chain id) :=
      e ▸ endsWell_chainEnd r
    obtain ⟨-, _, _, l, -⟩ := ends
    exact x.withChain l.advances
  | @plain name s chain declaration id t r e k h ih =>
    have ends : EndsWell declarations s.resolved name (.body chain declaration) :=
      e ▸ endsWell_chainEnd r
    have l := ends.2
    have o := h.outcome f
    have x := ih f (fun _ => occurring_of_mem (List.mem_of_find?_eq_some l.declared)) x
    have a := advances_of_outcome l.declared l.unresolved_last k f o
    have o' := resolves_of_outcome l.declared l.unresolved_last k f o
    exact (x.withChain a).withChain (advances_of_body f l o')
  | @body name s chain declaration ids t data r e k all shape ih =>
    have ends : EndsWell declarations s.resolved name (.body chain declaration) :=
      e ▸ endsWell_chainEnd r
    have l := ends.2
    have u := l.unresolved_last
    have occurs := occurring_of_mem (List.mem_of_find?_eq_some l.declared)
    obtain ⟨-, f1⟩ := faithful_resolving f u
    obtain ⟨a, f2, parts⟩ := outcome_threads (all.imp fun _ _ _ _ h _ f => h.outcome f) f1
    have inside : t.Expressed declarations count := by
      refine expressed_threads (ih.mem.imp ?_) f1 (expressed_resolving x f u)
      rintro part s id s' ⟨mp, -, h, step⟩
      exact ⟨h, fun f => step f fun _ => occurring_of_part occurs mp⟩
    -- While the parts are lowered, the handle of the body stands for nothing.
    have reserved : t.store.lookup s.store.nextId = some .pending :=
      a.grows.lookup_some TypeStore.lookup_alloc
    have o := resolves_define l.declared u f a f2 shape parts
    exact (expressed_define inside reserved occurs shape parts).withChain (advances_of_body f l o)
  | @parted type s ids t data k all shape ih =>
    have occurs := m (ne_named_of_isStructural k)
    obtain ⟨-, -, parts⟩ := outcome_threads (all.imp fun _ _ _ _ h _ f => h.outcome f) f
    refine expressed_place (expressed_threads (ih.mem.imp ?_) f x) occurs shape parts
    rintro part s id s' ⟨mp, -, h, step⟩
    exact ⟨h, fun f => step f fun _ => occurring_of_part occurs mp⟩

/-- What occurs in an expression that is denoted is denoted by some handle. -/
lemma denotes_of_preorder {inner : TypeExpr} (d : s.Denotes type id) (m : inner ∈ type.preorder) :
    ∃ id, s.Denotes inner id := by
  unfold LowerState.Denotes at d
  induction d using TypeStore.Denotes.induct with
  | keyword =>
    cases List.mem_singleton.1 m
    exact ⟨_, .keyword⟩
  | literal interned found =>
    cases List.mem_singleton.1 m
    exact ⟨_, .literal interned found⟩
  | name found =>
    cases List.mem_singleton.1 m
    exact ⟨_, .name found⟩
  | parted shape parts found ih =>
    rcases TypeExpr.eq_or_mem_part m with rfl | ⟨part, mp, m⟩
    · exact ⟨_, .parted shape parts found⟩
    · obtain ⟨_, -, _, inside⟩ := exists_of_forall₂ ih part mp
      exact inside m

/-! ## Whole declarations -/

/-- What is known of the state in which a lowering of declarations succeeds. -/
structure Completed (store : TypeStore) (declarations : List Declaration) (s : LowerState) :
    Prop where
  nodup : (declarations.map (·.name)).Nodup
  advances : (start store).Advances s
  faithful : s.Faithful declarations []
  grounded : Grounded declarations s.resolved
  resolved : ∀ declaration ∈ declarations, ∃ id, s.resolved.lookup declaration.name = some id
  settles : (start store).Settles s
  hands : s.Hands store.types.size
  expressed : s.Expressed declarations store.types.size

/-- Declarations that are lowered one after the other leave a completed state. -/
theorem completed_of_lowerDeclarations {store store' : TypeStore} {handles : List (String × TypeId)}
    (r : store.Reachable) (h : lowerDeclarations store declarations = (.ok handles, store')) :
    ∃ s, s.store = store' ∧ Completed store declarations s ∧
      ∃ ids, Walk.Threads (Lowers declarations) (declarations.map (.named ·.name [])) (start store)
        ids s := by
  obtain ⟨n, s, ids, rfl, threads, -⟩ := names_of_lowerDeclarations h
  have f : (start store).Faithful declarations [] := faithful_start r
  obtain ⟨a, f', all⟩ := faithful_names threads f
  have o : (start store).Hands store.types.size :=
    ⟨r.regular, Nat.le_refl _, fun _ m => absurd m List.not_mem_nil⟩
  refine ⟨s, rfl, ⟨n, a, f', ?_, all, ?_, ?_, ?_⟩, ids, threads⟩
  · exact grounded_threads (threads.imp fun _ _ _ _ h => h.grounded) fun _ _ e => nomatch e
  · exact settles_threads (threads.imp fun _ _ _ _ h => h.settles)
  · exact (hands_threads (threads.imp fun _ _ _ _ h => h.hands) o).1
  · refine expressed_threads (threads.mem.imp ?_) f ?_
    · rintro type s id s' ⟨m, -, h⟩
      obtain ⟨declaration, -, rfl⟩ := List.mem_map.1 m
      exact ⟨h, fun f => h.expressed f fun n => absurd rfl (n _)⟩
    · intro id data e l
      exact absurd (TypeStore.index_lt e) (Nat.not_lt_of_le l)

namespace Completed

variable {store : TypeStore} (c : Completed store declarations s)

include c

/-- Every declaration has a handle that denotes its body. -/
lemma denotes (m : declaration ∈ declarations) : ∃ id, s.Denotes declaration.type id := by
  obtain ⟨id, e⟩ := c.resolved declaration m
  obtain ⟨declaration', found, d, -⟩ := c.faithful.stands declaration.name id e List.not_mem_nil
  obtain rfl := Option.some.inj ((declared?_eq_some c.nodup m).symm.trans found)
  exact ⟨id, d⟩

/-- All that occurs in the declarations is denoted by some handle. -/
theorem denotes_of_occurring (m : type ∈ occurring declarations) : ∃ id, s.Denotes type id := by
  obtain ⟨declaration, md, m⟩ := mem_occurring.1 m
  obtain ⟨id, d⟩ := c.denotes md
  exact denotes_of_preorder d m

/-- A new handle that stands for no literal stands for an expression of the declarations. -/
theorem expresses (e : s.store.lookup id = some data) (l : store.types.size ≤ id.index)
    (n : ∀ value, data ≠ .literal value) : s.Expresses declarations data := by
  rcases c.expressed id data e l with rfl | ⟨value, rfl⟩ | x
  · exact absurd (TypeStore.index_lt (c.settles id e)) (Nat.not_lt_of_le l)
  · exact absurd rfl (n value)
  · exact x

end Completed

end Lowering

end TypeSchema
