import Mathlib.Logic.Function.Basic
import TypeSchema.Proofs.Lowering.Accepted
import TypeSchema.Proofs.Lowering.Pending

/-!
# The spots of handles

Every expression with parts that a lowering comes to has a handle of its own. So such a handle
belongs to one spot of the declarations, and a labelling of the handles by their spots says what a
store holds without its order: the data behind a handle is laid out as the expression at its spot
is, and the handles of the parts that have parts themselves are labelled by the spots of these
parts.
-/

namespace TypeSchema.Lowering

/-- A spot of declarations: the name of one of them, and the positions among the parts on the way
from its body, the last one first. -/
structure Spot where
  name : String
  path : List Nat

/-- The expression at the end of a way into another one. -/
def expressionAt? (type : TypeExpr) : List Nat → Option TypeExpr
  | [] => some type
  | position :: path => (expressionAt? type path).bind (·.parts[position]?)

namespace Spot

/-- The spot of the body of a declaration. -/
def top (name : String) : Spot := ⟨name, []⟩

/-- The spot of a part. -/
def part (spot : Spot) (position : Nat) : Spot := ⟨spot.name, position :: spot.path⟩

/-- The other spot is this one or inside of it. -/
def Under (spot other : Spot) : Prop := other.name = spot.name ∧ spot.path <:+ other.path

/-- The expression at a spot. -/
def type? (declarations : List Declaration) (spot : Spot) : Option TypeExpr :=
  (declared? declarations spot.name).bind fun declaration =>
    expressionAt? declaration.type spot.path

variable {declarations : List Declaration} {spot other : Spot} {type inner : TypeExpr}
  {declaration : Declaration} {i j : Nat}

lemma type?_top (c : declared? declarations declaration.name = some declaration) :
    (top declaration.name).type? declarations = some declaration.type := by
  unfold type? top
  rw [c]
  rfl

lemma type?_part (e : spot.type? declarations = some type) (p : type.parts[i]? = some inner) :
    (spot.part i).type? declarations = some inner := by
  unfold type? at e ⊢
  obtain ⟨declaration, c, e⟩ := Option.bind_eq_some_iff.1 e
  refine Option.bind_eq_some_iff.2 ⟨declaration, c, ?_⟩
  exact Option.bind_eq_some_iff.2 ⟨type, e, p⟩

lemma Under.refl (spot : Spot) : spot.Under spot := ⟨rfl, List.suffix_refl _⟩

lemma Under.of_part (h : (spot.part i).Under other) : spot.Under other :=
  ⟨h.1, (List.suffix_cons i spot.path).trans h.2⟩

/-- Different parts have nothing in common. -/
lemma Under.position_eq (h : (spot.part i).Under other) (h' : (spot.part j).Under other) :
    i = j := by
  have sub : (spot.part i).path <:+ (spot.part j).path :=
    List.suffix_of_suffix_length_le h.2 h'.2 (Nat.le_refl _)
  have e : i :: spot.path = j :: spot.path := sub.eq_of_length rfl
  exact (List.cons.inj e).1

/-- Nothing is inside of its part. -/
lemma not_under_part : ¬ (spot.part i).Under spot := by
  intro h
  have := h.2.length_le
  exact Nat.not_succ_le_self _ this

end Spot

/-- A labelling of handles by spots. -/
abbrev Labels := TypeId → Option Spot

/-- The handle is reserved, or the data behind it is laid out as the expression at the spot is. -/
def Laid (declarations : List Declaration) (s : LowerState) (labels : Labels) (id : TypeId)
    (spot : Spot) : Prop :=
  ∃ type, spot.type? declarations = some type ∧ type.isStructural = true ∧
    (s.store.lookup id = some .pending ∨
      ∃ ids data, s.store.lookup id = some data ∧ s.store.HasShape type ids data ∧
        List.Forall₂ s.Denotes type.parts ids ∧
        ∀ i part handle, type.parts[i]? = some part → ids[i]? = some handle →
          part.isStructural = true → labels handle = some (spot.part i))

/-- Labels that tell handles apart, belong to resolved names, and say what the handles stand for. -/
structure Labelled (declarations : List Declaration) (s : LowerState) (labels : Labels) : Prop where
  injective : ∀ a b spot, labels a = some spot → labels b = some spot → a = b
  resolved : ∀ a spot, labels a = some spot → s.resolved.lookup spot.name ≠ none
  laid : ∀ a spot, labels a = some spot → Laid declarations s labels a spot
  /-- The bodies of declarations are those with alias names. -/
  named : ∀ a name, s.store.aliasName? a = some name ↔ labels a = some (.top name)
  /-- The handles of names are those of the bodies at the ends of their chains. -/
  known : ∀ name id last, s.resolved.lookup name = some id → EndsAt declarations name last →
    last.type.isStructural = true → labels id = some (.top last.name)

variable {declarations : List Declaration} {s s' t : LowerState} {labels labels' : Labels}
  {type : TypeExpr} {id : TypeId} {ids : List TypeId} {data : TypeData} {name : String}
  {last : Declaration} {pending : List String} {spot : Spot} {chain : List String}

/-- What is laid out is laid out later, with more labels. -/
lemma Laid.mono (h : Laid declarations s labels id spot) (a : s.Advances s')
    (more : ∀ id spot, labels id = some spot → labels' id = some spot) :
    Laid declarations s' labels' id spot := by
  obtain ⟨type, e, k, h⟩ := h
  refine ⟨type, e, k, ?_⟩
  rcases h with p | ⟨ids, data, found, shape, parts, labelled⟩
  · exact .inl (a.grows.lookup_some p)
  · exact .inr ⟨ids, data, a.grows.lookup_some found, shape.mono a.retains.toKeeps,
      parts.imp fun _ _ d => d.advances a,
      fun i part handle p h k => more _ _ (labelled i part handle p h k)⟩

/-- A labelled handle stands for something. -/
lemma Labelled.index_lt (l : Labelled declarations s labels) (e : labels id = some spot) :
    id.index < s.store.types.size := by
  obtain ⟨type, -, -, p | ⟨ids, data, found, -⟩⟩ := l.laid id spot e
  · exact TypeStore.index_lt p
  · exact TypeStore.index_lt found

/-- A new handle has no label. -/
lemma Labelled.nextId (l : Labelled declarations s labels) : labels s.store.nextId = none := by
  refine Option.eq_none_iff_forall_ne_some.2 fun spot e => ?_
  exact Nat.lt_irrefl _ (l.index_lt e)

/-- The label of a new handle leaves the others as they are. -/
lemma Labelled.update {other : Spot} (l : Labelled declarations s labels)
    (e : labels id = some other) :
    Function.update labels s.store.nextId (some spot) id = some other := by
  have ne : id ≠ s.store.nextId := by
    rintro rfl
    rw [l.nextId] at e
    cases e
  rw [Function.update_of_ne ne, e]

/-- Labels stay when a state advances without new alias names. -/
lemma Labelled.advances (l : Labelled declarations s labels) (a : s.Advances s')
    (names : s'.store.aliasName? = s.store.aliasName?)
    (known : ∀ name id last, s'.resolved.lookup name = some id → EndsAt declarations name last →
      last.type.isStructural = true → labels id = some (.top last.name)) :
    Labelled declarations s' labels where
  injective := l.injective
  resolved b spot e := a.resolved_ne_none (l.resolved b spot e)
  laid b spot e := (l.laid b spot e).mono a fun _ _ e => e
  named b name := by
    rw [names]
    exact l.named b name
  known := known

/-- Names of a chain are resolved to the handle that is labelled by the body at its end. -/
lemma Labelled.withChain (l : Labelled declarations s labels)
    (a : s.Advances (s.withChain chain id))
    (ends : ∀ name ∈ chain, EndsAt declarations name last)
    (e : last.type.isStructural = true → labels id = some (.top last.name)) :
    Labelled declarations (s.withChain chain id) labels := by
  refine l.advances a rfl fun other id' last' r ends' k => ?_
  by_cases m : other ∈ chain
  · obtain rfl := Option.some.inj ((lookup_withChain m).symm.trans r)
    obtain rfl := (ends other m).unique ends'
    exact e k
  · rw [lookup_withChain_of_not_mem m] at r
    exact l.known other id' last' r ends' k

/-- A new handle gets a label that no other has. -/
lemma Labelled.extend (l : Labelled declarations s labels) (a : s.Advances s')
    (fresh : ∀ b, labels b ≠ some spot)
    (resolved : s'.resolved.lookup spot.name ≠ none)
    (laid : Laid declarations s' (Function.update labels s.store.nextId (some spot))
      s.store.nextId spot)
    (others : ∀ b ≠ s.store.nextId, s'.store.aliasName? b = s.store.aliasName? b)
    (own : ∀ name, s'.store.aliasName? s.store.nextId = some name ↔ spot = .top name)
    (known : ∀ name id last, s'.resolved.lookup name = some id → EndsAt declarations name last →
      last.type.isStructural = true →
      Function.update labels s.store.nextId (some spot) id = some (.top last.name)) :
    Labelled declarations s' (Function.update labels s.store.nextId (some spot)) := by
  have cases : ∀ b other, Function.update labels s.store.nextId (some spot) b = some other →
      (b = s.store.nextId ∧ other = spot) ∨ (b ≠ s.store.nextId ∧ labels b = some other) := by
    intro b other e
    by_cases eq : b = s.store.nextId
    · rw [eq, Function.update_self] at e
      exact .inl ⟨eq, (Option.some.inj e).symm⟩
    · rw [Function.update_of_ne eq] at e
      exact .inr ⟨eq, e⟩
  refine ⟨fun b c other eb ec => ?_, fun b other e => ?_, fun b other e => ?_, fun b name => ?_,
    known⟩
  · rcases cases b other eb with ⟨rfl, rfl⟩ | ⟨-, old⟩
    · rcases cases c _ ec with ⟨rfl, -⟩ | ⟨-, old⟩
      · rfl
      · exact absurd old (fresh c)
    · rcases cases c other ec with ⟨rfl, rfl⟩ | ⟨-, old'⟩
      · exact absurd old (fresh b)
      · exact l.injective b c other old old'
  · rcases cases b other e with ⟨-, rfl⟩ | ⟨-, e⟩
    · exact resolved
    · exact a.resolved_ne_none (l.resolved b other e)
  · rcases cases b other e with ⟨rfl, rfl⟩ | ⟨-, e⟩
    · exact laid
    · exact (l.laid b other e).mono a fun _ _ => l.update
  · by_cases eq : b = s.store.nextId
    · rw [eq, Function.update_self, own name, Option.some.injEq]
    · rw [others b eq, Function.update_of_ne eq]
      exact l.named b name

/-- The handle that is reserved for a body is labelled by it. -/
lemma Labelled.resolving (l : Labelled declarations s labels) (f : s.Faithful declarations pending)
    (ends : EndsAt declarations last.name last) (r : s.resolved.lookup last.name = none)
    (k : last.type.isStructural = true) :
    Labelled declarations (s.resolving last.name)
      (Function.update labels s.store.nextId (some (.top last.name))) := by
  refine l.extend (faithful_resolving f r).1 (fun b e => l.resolved b _ e r) ?_
    ⟨last.type, Spot.type?_top ends.declared, k, .inl TypeStore.lookup_alloc⟩ (fun b ne => ?_)
    (fun name => ?_) fun name id last' r' ends' k' => ?_
  · show List.lookup last.name ((last.name, s.store.nextId) :: s.resolved) ≠ none
    rw [List.lookup_cons_self]
    exact nofun
  · show List.lookup b ((s.store.nextId, last.name) :: s.store.aliasNames) = _
    rw [lookup_cons_of_ne ne]
    rfl
  · show (s.store.reserveNamed last.name).aliasName? s.store.nextId = _ ↔ _
    rw [TypeStore.aliasName?_reserveNamed]
    simp [Spot.top]
  · have found : List.lookup name ((last.name, s.store.nextId) :: s.resolved) = some id := r'
    rw [List.lookup_cons] at found
    split at found
    case h_1 eq =>
      obtain rfl := eq_of_beq eq
      obtain rfl := Option.some.inj found
      rw [ends'.unique ends, Function.update_self]
    case h_2 => exact l.update (l.known name id last' found ends' k')

/-- A labelled handle is defined as the expression at its spot. -/
lemma Labelled.define (l : Labelled declarations s labels)
    (reserved : s.store.lookup id = some .pending) (e : labels id = some spot)
    (at_spot : spot.type? declarations = some type) (k : type.isStructural = true)
    (shape : s.store.HasShape type ids data) (parts : List.Forall₂ s.Denotes type.parts ids)
    (labelled : ∀ i part handle, type.parts[i]? = some part → ids[i]? = some handle →
      part.isStructural = true → labels handle = some (spot.part i)) :
    Labelled declarations { s with store := (s.store.define id data).2 } labels := by
  have retains : s.store.Retains (s.store.define id data).2 := TypeStore.retains_define reserved
  refine ⟨l.injective, l.resolved, fun b other eb => ?_, fun b name => ?_, l.known⟩
  · by_cases eq : b = id
    · subst eq
      obtain rfl := Option.some.inj (e.symm.trans eb)
      exact ⟨type, at_spot, k, .inr ⟨ids, data, TypeStore.lookup_define reserved,
        shape.mono retains.toKeeps, parts.imp fun _ _ d => d.mono retains fun _ _ e => e, labelled⟩⟩
    · obtain ⟨type', e', k', p | ⟨ids', data', found, shape', parts', labelled'⟩⟩ :=
        l.laid b other eb
      · exact ⟨type', e', k', .inl ((TypeStore.lookup_define_of_ne reserved eq).trans p)⟩
      · exact ⟨type', e', k', .inr ⟨ids', data',
          (TypeStore.lookup_define_of_ne reserved eq).trans found, shape'.mono retains.toKeeps,
          parts'.imp fun _ _ d => d.mono retains fun _ _ e => e, labelled'⟩⟩
  · show (s.store.define id data).2.aliasName? b = _ ↔ _
    rw [TypeStore.aliasName?_define reserved]
    exact l.named b name

/-- The new handle of an expression inside of a body is labelled by its spot. -/
lemma Labelled.place (l : Labelled declarations s labels)
    (at_spot : spot.type? declarations = some type) (k : type.isStructural = true)
    (inner : spot.path ≠ []) (resolved : s.resolved.lookup spot.name ≠ none)
    (fresh : ∀ b, labels b ≠ some spot)
    (shape : s.store.HasShape type ids data) (parts : List.Forall₂ s.Denotes type.parts ids)
    (labelled : ∀ i part handle, type.parts[i]? = some part → ids[i]? = some handle →
      part.isStructural = true → labels handle = some (spot.part i)) :
    Labelled declarations { s with store := s.store.place data }
      (Function.update labels s.store.nextId (some spot)) := by
  have a : s.Advances { s with store := s.store.place data } := advances_place
  refine l.extend a fresh resolved ?_ (fun b _ => congrFun TypeStore.aliasName?_place b)
    (fun name => ?_) fun name id last r ends k => l.update (l.known name id last r ends k)
  · exact ⟨type, at_spot, k, .inr ⟨ids, data, TypeStore.lookup_place,
      shape.mono a.retains.toKeeps, parts.imp fun _ _ d => d.advances a,
      fun i part handle p h k => l.update (labelled i part handle p h k)⟩⟩
  · show (s.store.place data).aliasName? s.store.nextId = _ ↔ _
    rw [TypeStore.aliasName?_place, l.named, l.nextId]
    constructor
    · exact nofun
    · rintro rfl
      exact absurd rfl inner

/-! ## Labels of a lowering -/

/-- Nothing at the spot, which the expression is at, is lowered yet. -/
structure Vacant (declarations : List Declaration) (s : LowerState) (labels : Labels) (spot : Spot)
    (type : TypeExpr) : Prop where
  type : spot.type? declarations = some type
  inner : spot.path ≠ []
  resolved : s.resolved.lookup spot.name ≠ none
  free : ∀ id other, labels id = some other → ¬ spot.Under other

/-- Labels are kept, and new ones are such spots or belong to names that were not resolved. -/
structure Labels.Extends (labels labels' : Labels) (s : LowerState) (new : Spot → Prop) : Prop where
  more : ∀ id spot, labels id = some spot → labels' id = some spot
  fresh : ∀ id spot, labels' id = some spot →
    labels id = some spot ∨ new spot ∨ s.resolved.lookup spot.name = none

lemma Labels.Extends.refl {new : Spot → Prop} (labels : Labels) : labels.Extends labels s new :=
  ⟨fun _ _ e => e, fun _ _ e => .inl e⟩

/-- A part is left alone while another one is lowered. -/
lemma Vacant.next {i j : Nat} (v : Vacant declarations s labels (spot.part j) type)
    (e : labels.Extends labels' s (spot.part i).Under) (a : s.Advances s') (ne : i ≠ j) :
    Vacant declarations s' labels' (spot.part j) type := by
  refine ⟨v.type, v.inner, a.resolved_ne_none v.resolved, fun id other e' under => ?_⟩
  rcases e.fresh id other e' with old | new | none
  · exact v.free id other old under
  · exact ne (new.position_eq under)
  · rw [under.1] at none
    exact v.resolved none

/-- A lowering from a labelled state leads to one, and gives a handle that is labelled by the spot
of the expression if this has parts. -/
def LabelsOne (declarations : List Declaration) (type : TypeExpr) (s : LowerState) (id : TypeId)
    (s' : LowerState) : Prop :=
  ∀ pending labels spot, s.Faithful declarations pending → Grounded declarations s.resolved →
    Labelled declarations s labels →
    (type.isStructural = true → Vacant declarations s labels spot type) →
    ∃ labels' : Labels, Labelled declarations s' labels' ∧ labels.Extends labels' s spot.Under ∧
      (type.isStructural = true → labels' id = some spot)

/-- Parts are labelled one after the other. -/
lemma labels_threads (spot : Spot) {types : List TypeExpr}
    (h : Walk.Threads (fun type s id s' => ∃ _ : Lowers declarations type s id s',
      LabelsOne declarations type s id s') types s ids s')
    (f : s.Faithful declarations pending) (g : Grounded declarations s.resolved)
    (l : Labelled declarations s labels) (position : Nat)
    (v : ∀ i part, types[i]? = some part → part.isStructural = true →
      Vacant declarations s labels (spot.part (position + i)) part) :
    ∃ labels' : Labels, Labelled declarations s' labels' ∧
      labels.Extends labels' s (fun other => ∃ i, position ≤ i ∧ (spot.part i).Under other) ∧
      ∀ i part handle, types[i]? = some part → ids[i]? = some handle → part.isStructural = true →
        labels' handle = some (spot.part (position + i)) := by
  induction h generalizing labels position with
  | nil => exact ⟨labels, l, .refl labels, fun i _ _ e => by cases e⟩
  | @cons type types s id s1 ids s' first _ ih =>
    obtain ⟨lowers, one⟩ := first
    obtain ⟨labels1, l1, e1, own⟩ := one pending labels (spot.part position) f g l (v 0 type rfl)
    have o := lowers.outcome f
    -- What the first part adds lies under its own spot, and so leaves those of the others free.
    have others : ∀ i part, types[i]? = some part → part.isStructural = true →
        Vacant declarations s1 labels1 (spot.part (position + 1 + i)) part := by
      intro i part e k
      have next := v (i + 1) part e k
      rw [show position + (i + 1) = position + 1 + i by omega] at next
      exact next.next e1 o.advances (by omega)
    obtain ⟨labels', l', e2, rest⟩ := ih o.faithful (lowers.grounded g) l1 (position + 1) others
    refine ⟨labels', l', ⟨fun a other e => e2.more a other (e1.more a other e), ?_⟩, ?_⟩
    · intro a other e
      rcases e2.fresh a other e with old | ⟨i, le, under⟩ | none
      · rcases e1.fresh a other old with old | under | none
        · exact .inl old
        · exact .inr (.inl ⟨position, Nat.le_refl _, under⟩)
        · exact .inr (.inr none)
      · exact .inr (.inl ⟨i, by omega, under⟩)
      · refine .inr (.inr ?_)
        by_contra r
        exact o.advances.resolved_ne_none r none
    · intro i part handle e e' k
      cases i with
      | zero =>
        cases e
        cases e'
        exact e2.more id _ (own k)
      | succ i =>
        have := rest i part handle e e' k
        rwa [show position + 1 + i = position + (i + 1) by omega] at this

/-- A body is labelled by the top of its declaration, and its parts by the spots inside. -/
lemma labels_body (spot : Spot) {declaration : Declaration}
    (r : s.resolved.lookup declaration.name = none)
    (own : EndsAt declarations declaration.name declaration)
    (k : declaration.type.isStructural = true)
    (all : Walk.Threads (fun type s id s' => ∃ _ : Lowers declarations type s id s',
      LabelsOne declarations type s id s') declaration.type.parts (s.resolving declaration.name) ids
      t)
    (shape : t.store.HasShape declaration.type ids data) (f : s.Faithful declarations pending)
    (g : Grounded declarations s.resolved) (l : Labelled declarations s labels) :
    ∃ labels' : Labels,
      Labelled declarations { t with store := (t.store.define s.store.nextId data).2 } labels' ∧
        labels.Extends labels' s spot.Under ∧
        labels' s.store.nextId = some (.top declaration.name) := by
  obtain ⟨a, f1⟩ := faithful_resolving f r
  have g1 : Grounded declarations (s.resolving declaration.name).resolved := g.cons own
  have at_top := Spot.type?_top own.declared
  have here : List.lookup declaration.name
      ((declaration.name, s.store.nextId) :: s.resolved) ≠ none := by
    rw [List.lookup_cons_self]
    exact nofun
  have vacant : ∀ i part, declaration.type.parts[i]? = some part → part.isStructural = true →
      Vacant declarations (s.resolving declaration.name)
        (Function.update labels s.store.nextId (some (.top declaration.name)))
        ((Spot.top declaration.name).part (0 + i)) part := by
    intro i part e _
    rw [Nat.zero_add]
    refine ⟨Spot.type?_part at_top e, nofun, here, fun id other e under => ?_⟩
    -- Only the new label belongs to the name, as the name was not resolved before.
    by_cases eq : id = s.store.nextId
    · rw [eq, Function.update_self] at e
      obtain rfl := Option.some.inj e
      exact Spot.not_under_part under
    · rw [Function.update_of_ne eq] at e
      refine l.resolved id other e ?_
      rw [under.1]
      exact r
  obtain ⟨labels', l', e', sits⟩ := labels_threads _ all f1 g1 (l.resolving f own r k) 0 vacant
  have top : labels' s.store.nextId = some (.top declaration.name) :=
    e'.more _ _ (Function.update_self _ _ _)
  obtain ⟨a1, -, parts⟩ := outcome_threads (all.imp fun _ _ _ _ ⟨h, _⟩ _ f => h.outcome f) f1
  have reserved : t.store.lookup s.store.nextId = some .pending :=
    a1.grows.lookup_some TypeStore.lookup_alloc
  refine ⟨labels', l'.define reserved top at_top k shape parts fun i part handle p h k => ?_,
    ⟨fun id other e => e'.more id other (l.update e), fun id other e => ?_⟩, top⟩
  · rw [sits i part handle p h k, Nat.zero_add]
  · rcases e'.fresh id other e with old | ⟨i, -, under⟩ | none
    · by_cases eq : id = s.store.nextId
      · rw [eq, Function.update_self] at old
        obtain rfl := Option.some.inj old
        exact .inr (.inr r)
      · rw [Function.update_of_ne eq] at old
        exact .inl old
    · refine .inr (.inr ?_)
      rw [under.1]
      exact r
    · refine .inr (.inr ?_)
      by_contra known
      exact a.resolved_ne_none known none

/-- An expression inside of a body is labelled by its spot, and its parts by theirs. -/
lemma labels_parted (k : type.isStructural = true)
    (all : Walk.Threads (fun type s id s' => ∃ _ : Lowers declarations type s id s',
      LabelsOne declarations type s id s') type.parts s ids t)
    (shape : t.store.HasShape type ids data) (f : s.Faithful declarations pending)
    (g : Grounded declarations s.resolved) (l : Labelled declarations s labels)
    (v : Vacant declarations s labels spot type) :
    ∃ labels' : Labels, Labelled declarations { t with store := t.store.place data } labels' ∧
      labels.Extends labels' s spot.Under ∧ labels' t.store.nextId = some spot := by
  have vacant : ∀ i part, type.parts[i]? = some part → part.isStructural = true →
      Vacant declarations s labels (spot.part (0 + i)) part := by
    intro i part e _
    rw [Nat.zero_add]
    exact ⟨Spot.type?_part v.type e, nofun, v.resolved,
      fun id other e under => v.free id other e under.of_part⟩
  obtain ⟨labels', l', e', sits⟩ := labels_threads spot all f g l 0 vacant
  obtain ⟨a, -, parts⟩ := outcome_threads (all.imp fun _ _ _ _ ⟨h, _⟩ _ f => h.outcome f) f
  have resolved : t.resolved.lookup spot.name ≠ none := a.resolved_ne_none v.resolved
  have fresh : ∀ b, labels' b ≠ some spot := by
    intro b e
    rcases e'.fresh b spot e with old | ⟨i, -, under⟩ | none
    · exact v.free b spot old (.refl spot)
    · exact Spot.not_under_part under
    · exact v.resolved none
  refine ⟨_, l'.place v.type k v.inner resolved fresh shape parts fun i part handle p h k => ?_,
    ⟨fun id other e => l'.update (e'.more id other e), fun id other e => ?_⟩,
    Function.update_self _ _ _⟩
  · rw [sits i part handle p h k, Nat.zero_add]
  · by_cases eq : id = t.store.nextId
    · rw [eq, Function.update_self] at e
      obtain rfl := Option.some.inj e
      exact .inr (.inl (.refl _))
    · rw [Function.update_of_ne eq] at e
      rcases e'.fresh id other e with old | ⟨i, -, under⟩ | none
      · exact .inl old
      · exact .inr (.inl under.of_part)
      · exact .inr (.inr none)

/-- Every lowering labels the handles that it makes. -/
theorem Lowers.labelsOne (h : Lowers declarations type s id s') :
    LabelsOne declarations type s id s' := by
  induction h using Lowers.induct with
  | keyword => exact fun _ labels _ _ _ l _ => ⟨labels, l, .refl labels, fun k => by cases k⟩
  | @literal value s =>
    intro pending labels spot f g l _
    exact ⟨labels, l.advances (advances_literal value) (s.store.aliasName?_literal value) l.known,
      .refl labels, fun k => by cases k⟩
  | known => exact fun _ labels _ _ _ l _ => ⟨labels, l, .refl labels, fun k => by cases k⟩
  | @linked name s chain id r e =>
    intro pending labels spot f g l _
    obtain ⟨target, last, found, ends, all⟩ := endsAt_of_linked g r e
    obtain ⟨-, _, _, c, -⟩ : EndsWell declarations s.resolved name (.resolved chain id) :=
      e ▸ endsWell_chainEnd r
    exact ⟨labels, l.withChain c.advances all fun k => l.known target id last found ends k,
      .refl labels, fun k => by cases k⟩
  | @plain name s chain declaration id t r e k h ih =>
    intro pending labels spot f g l _
    obtain ⟨ends, own⟩ := endsAt_of_body r e
    have c := aliasChain_of_chainEnd r e
    have none := c.unresolved_last
    have o := h.outcome f
    obtain ⟨labels', l', e', -⟩ := ih pending labels spot f g l fun k' => by cases k.symm.trans k'
    have first := l'.withChain (advances_of_outcome c.declared none k f o)
      (List.forall_mem_singleton.2 own) fun k' => by cases k.symm.trans k'
    have second := first.withChain
      (advances_of_body f c (resolves_of_outcome c.declared none k f o)) ends
      fun k' => by cases k.symm.trans k'
    exact ⟨labels', second, e', fun k => by cases k⟩
  | @body name s chain declaration ids t data r e k _ shape ih =>
    intro pending labels spot f g l _
    obtain ⟨ends, own⟩ := endsAt_of_body r e
    have c := aliasChain_of_chainEnd r e
    have none := c.unresolved_last
    obtain ⟨labels', l', e', top⟩ := labels_body spot none own k ih shape f g l
    obtain ⟨-, f1⟩ := faithful_resolving f none
    obtain ⟨a, f2, parts⟩ := outcome_threads (ih.imp fun _ _ _ _ ⟨h, _⟩ _ f => h.outcome f) f1
    have resolves := resolves_define own.declared none f a f2 shape parts
    exact ⟨labels', l'.withChain (advances_of_body f c resolves) ends fun _ => top, e',
      fun k => by cases k⟩
  | parted k _ shape ih =>
    intro pending labels spot f g l v
    obtain ⟨labels', l', e', own⟩ := labels_parted k ih shape f g l (v k)
    exact ⟨labels', l', e', fun _ => own⟩

/-! ## Lowered declarations -/

/-- What a lowering into a new store that succeeds ends with. -/
structure Complete (declarations : List Declaration) (s : LowerState) (labels : Labels) : Prop where
  faithful : s.Faithful declarations []
  grounded : Grounded declarations s.resolved
  labelled : Labelled declarations s labels
  /-- No handle is only reserved. -/
  defined : ∀ id, s.store.lookup id ≠ some .pending

lemma labelled_start : Labelled declarations (start .new) fun _ => none where
  injective _ _ _ e := by cases e
  resolved _ _ e := by cases e
  laid _ _ e := by cases e
  named _ _ := ⟨nofun, nofun⟩
  known _ _ _ r := by cases r

/-- The handles of declarations that are lowered into a new store are labelled by their spots. -/
theorem exists_complete {store' : TypeStore} {handles : List (String × TypeId)}
    (h : lowerDeclarations .new declarations = (.ok handles, store')) :
    ∃ s labels, s.store = store' ∧ Complete declarations s labels ∧
      ∀ declaration ∈ declarations, ∃ id, handles.lookup declaration.name = some id ∧
        s.resolved.lookup declaration.name = some id := by
  obtain ⟨n, s, _, rfl, threads, rfl⟩ := names_of_lowerDeclarations h
  have settled := settles_threads (threads.imp fun _ _ _ _ h => h.settles)
  obtain ⟨-, f, all⟩ := faithful_names threads (faithful_start .new)
  have nothing : Grounded declarations (start .new).resolved := fun _ _ r => by cases r
  have grounded := grounded_threads (threads.imp fun _ _ _ _ h => h.grounded) nothing
  -- Bare names are lowered one after the other, which need no spot of their own.
  obtain ⟨labels, l, -, -⟩ := labels_threads (.top "")
    (threads.imp fun _ _ _ _ h => ⟨h, h.labelsOne⟩) (faithful_start .new) nothing labelled_start 0
    (by
      intro i part e k
      rw [List.getElem?_map] at e
      obtain ⟨_, -, rfl⟩ := Option.map_eq_some_iff.1 e
      cases k)
  have defined : ∀ id, s.store.lookup id ≠ some .pending := by
    intro id p
    have p := settled id p
    have l := TypeStore.index_lt p
    have known : ∀ k < TypeId.intrinsicCount, TypeStore.new.lookup ⟨k⟩ ≠ some .pending := by decide
    exact known id.index l p
  refine ⟨s, labels, rfl, ⟨f, grounded, l, defined⟩, fun declaration m => ?_⟩
  obtain ⟨id, e⟩ := all declaration m
  exact ⟨id, lookup_handles (fun name => s.resolved.lookup name) n all m e, e⟩

end TypeSchema.Lowering
