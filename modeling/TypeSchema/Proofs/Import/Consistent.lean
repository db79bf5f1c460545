import TypeSchema.Proofs.Guard
import TypeSchema.Proofs.Import.Claim
import TypeSchema.Proofs.Import.Run
import TypeSchema.Proofs.Lists

/-!
# The identity of types during an import

While a graph is imported, an identifier belongs to at most one type: to one that the walk is inside
of, or to one that is completed. `Consistent` says this of a state, and every import that succeeds
preserves it; an identifier that a type has once is never taken from it again.
-/

namespace TypeSchema

namespace ImportState

/-- The type has the identifier, completed or not. -/
def Assigned (s : ImportState) (id : TypeId) (identifier : String) : Prop :=
  (id, identifier) ∈ s.named ∨ s.currentIdentifier? id = some identifier

/-- The state says of no identifier that two types have it, and its parts agree about which types
the walk is inside of. -/
structure Consistent (s : ImportState) : Prop where
  nodup : s.guard.visiting.Nodup
  depth : s.guard.depth = s.guard.visiting.length
  /-- Only a type the walk is inside of is in progress. -/
  entered : ∀ id identifier, s.currentIdentifier? id = some identifier → id ∈ s.guard.visiting
  completed : ∀ id identifier, (id, identifier) ∈ s.named → id ∉ s.guard.visiting
  used : ∀ id identifier, s.Assigned id identifier → identifier ∈ s.usedIdentifiers
  unique : ∀ id id' identifier, s.Assigned id identifier → s.Assigned id' identifier → id = id'
  distinct : (s.named.map (·.2)).Nodup

/-- What an import leaves of the state: the types it was inside of, what was completed, and every
identifier that a type has. -/
structure Extends (s s' : ImportState) : Prop where
  visiting : s'.guard.visiting = s.guard.visiting
  depth : s'.guard.depth = s.guard.depth
  limits : s'.guard.limits = s.guard.limits
  named : s.named <:+ s'.named
  used : s.usedIdentifiers ⊆ s'.usedIdentifiers
  assigned : ∀ id identifier, s.Assigned id identifier → s'.Assigned id identifier

lemma Extends.refl (s : ImportState) : s.Extends s :=
  ⟨rfl, rfl, rfl, List.suffix_rfl, fun _ h => h, fun _ _ h => h⟩

lemma Extends.trans {s t u : ImportState} (h : s.Extends t) (h' : t.Extends u) : s.Extends u where
  visiting := h'.visiting.trans h.visiting
  depth := h'.depth.trans h.depth
  limits := h'.limits.trans h.limits
  named := h.named.trans h'.named
  used := fun _ m => h'.used (h.used m)
  assigned := fun id identifier a => h'.assigned id identifier (h.assigned id identifier a)

/-- An identifier that no type has is claimed; nothing but the bookkeeping of claims changes. -/
def Claims (s : ImportState) (identifier : String) (s' : ImportState) : Prop :=
  identifier ∉ s.usedIdentifiers ∧ ∃ count, s' = { s.use identifier with anonymousCount := count }

lemma claims_claim {s : ImportState} {name : String} :
    s.Claims (s.claim name).1 (s.claim name).2 := by
  refine ⟨claim_not_mem, s.anonymousCount, ?_⟩
  rw [claim_state]
  rfl

lemma claims_claimAnonymous {s : ImportState} {start : String} :
    s.Claims (s.claimAnonymous start).1 (s.claimAnonymous start).2 :=
  ⟨claimAnonymous_not_mem, claimAnonymous_state⟩

/-! ## Looking up what is in progress -/

lemma lookup_filter_ne {α : Type} {entries : List (TypeId × α)} {id j : TypeId} :
    (entries.filter fun entry => entry.1 ≠ id).lookup j =
      if j = id then none else entries.lookup j := by
  induction entries with
  | nil => simp
  | cons entry entries ih =>
    obtain ⟨k, a⟩ := entry
    by_cases e : k = id
    · subst e
      rw [List.filter_cons_of_neg (by simp), ih]
      split
      · rfl
      · rw [List.lookup_cons]
        simp [beq_eq_false_iff_ne.2 ‹j ≠ k›]
    · rw [List.filter_cons_of_pos (by simp [e]), List.lookup_cons, List.lookup_cons, ih]
      by_cases f : j = k
      · subst f
        simp [e]
      · simp [beq_eq_false_iff_ne.2 f]

@[simp] lemma currentIdentifier?_setProgress {s : ImportState} {id j : TypeId}
    {identifier : Option String} :
    (s.setProgress id identifier).currentIdentifier? j =
      if j = id then identifier else s.currentIdentifier? j := by
  unfold currentIdentifier? setProgress withoutProgress
  rw [List.lookup_cons, lookup_filter_ne]
  by_cases e : j = id
  · simp [e]
  · simp [e, beq_eq_false_iff_ne.2 e]

@[simp] lemma currentIdentifier?_left {s : ImportState} {guard : WalkGuard TypeId}
    {id j : TypeId} :
    (s.left guard id).currentIdentifier? j = if j = id then none else s.currentIdentifier? j := by
  unfold currentIdentifier? left withoutProgress
  rw [lookup_filter_ne]
  split <;> rfl

@[simp] lemma currentIdentifier?_complete {s : ImportState} {id j : TypeId}
    {identifier : Option String} :
    (s.complete id identifier).currentIdentifier? j = s.currentIdentifier? j := by
  cases identifier <;> rfl

/-! ## Steps that keep a state consistent -/

variable {s : ImportState} {id : TypeId} {guard guard' : WalkGuard TypeId} {identifier : String}

/-- Counting an attempt leaves a state as it is but for the count. -/
lemma Consistent.count (c : s.Consistent) (n : Nat) :
    Consistent { s with guard := { s.guard with iterations := n } } :=
  ⟨c.nodup, c.depth, c.entered, c.completed, c.used, c.unique, c.distinct⟩

/-- A type the walk is inside of, and that has no identifier, is given one that is free. -/
lemma Consistent.assign (c : s.Consistent) {t : ImportState} (h : s.Claims identifier t)
    (m : id ∈ s.guard.visiting) (n : s.currentIdentifier? id = none) :
    (t.setProgress id (some identifier)).Consistent ∧
      s.Extends (t.setProgress id (some identifier)) ∧
      ∀ j i, (t.setProgress id (some identifier)).Assigned j i →
        s.Assigned j i ∨ (j = id ∧ i = identifier) := by
  obtain ⟨fresh, count, rfl⟩ := h
  have current : ∀ j, (({ s.use identifier with anonymousCount := count } :
      ImportState).setProgress id (some identifier)).currentIdentifier? j =
      if j = id then some identifier else s.currentIdentifier? j :=
    fun j => currentIdentifier?_setProgress
  have back : ∀ j i, (({ s.use identifier with anonymousCount := count } :
      ImportState).setProgress id (some identifier)).Assigned j i →
        s.Assigned j i ∨ (j = id ∧ i = identifier) := by
    intro j i a
    cases a with
    | inl a => exact .inl (.inl a)
    | inr a =>
      rw [current] at a
      split at a
      case isTrue e => exact .inr ⟨e, (Option.some.inj a).symm⟩
      case isFalse e => exact .inl (.inr a)
  have forth : ∀ j i, s.Assigned j i → (({ s.use identifier with anonymousCount := count } :
      ImportState).setProgress id (some identifier)).Assigned j i := by
    intro j i a
    cases a with
    | inl a => exact .inl a
    | inr a =>
      right
      rw [current, if_neg]
      · exact a
      · rintro rfl
        simp [n] at a
  refine ⟨⟨c.nodup, c.depth, ?_, c.completed, ?_, ?_, c.distinct⟩,
    ⟨rfl, rfl, rfl, List.suffix_rfl, fun _ h => List.mem_cons_of_mem _ h, forth⟩, back⟩
  · intro j i a
    rw [current] at a
    split at a
    case isTrue e => exact e ▸ m
    case isFalse e => exact c.entered j i a
  · intro j i a
    cases back j i a with
    | inl a => exact List.mem_cons_of_mem _ (c.used j i a)
    | inr e => exact e.2 ▸ List.mem_cons_self
  -- The identifier is fresh, so it is assigned to no other type.
  · intro j j' i a a'
    rcases back j i a with b | ⟨rfl, rfl⟩
    · rcases back j' i a' with b' | ⟨rfl, rfl⟩
      · exact c.unique j j' i b b'
      · exact absurd (c.used j i b) fresh
    · rcases back j' i a' with b' | ⟨rfl, -⟩
      · exact absurd (c.used j' i b') fresh
      · rfl

/-- A type that is entered has no identifier. -/
lemma Consistent.currentIdentifier?_eq_none (c : s.Consistent) (h : id ∉ s.guard.visiting) :
    s.currentIdentifier? id = none := by
  cases e : s.currentIdentifier? id with
  | none => rfl
  | some identifier => exact absurd (c.entered id identifier e) h

/-- Entering a type changes no identifier of a type that is in progress. -/
lemma Consistent.currentIdentifier?_begin (c : s.Consistent) (n : id ∉ s.guard.visiting)
    {j : TypeId} : (s.begin guard id).currentIdentifier? j = s.currentIdentifier? j := by
  unfold begin
  rw [currentIdentifier?_setProgress]
  split
  case isTrue e => exact e ▸ (c.currentIdentifier?_eq_none n).symm
  case isFalse => rfl

/-- Entering a type changes no identifier. -/
lemma Consistent.assigned_begin (c : s.Consistent) (n : id ∉ s.guard.visiting) {j : TypeId}
    {i : String} : (s.begin guard id).Assigned j i ↔ s.Assigned j i := by
  unfold Assigned
  rw [c.currentIdentifier?_begin n]
  rfl

/-- A type that is neither inside nor completed is entered. -/
lemma Consistent.begin (c : s.Consistent) (n : s.named.lookup id = none)
    (h : s.guard.enter id = (.entered, guard)) : (s.begin guard id).Consistent := by
  obtain ⟨-, m, -, rfl⟩ := WalkGuard.enter_eq_entered.1 h
  refine ⟨List.nodup_cons.2 ⟨m, c.nodup⟩, congrArg (· + 1) c.depth, ?_, ?_, ?_, ?_, c.distinct⟩
  · intro j i a
    rw [c.currentIdentifier?_begin m] at a
    exact List.mem_cons_of_mem _ (c.entered j i a)
  · intro j i a v
    cases v with
    | head => exact lookup_ne_none a n
    | tail _ v => exact c.completed j i a v
  · intro j i a
    exact c.used j i ((c.assigned_begin m).1 a)
  · intro j j' i a a'
    exact c.unique j j' i ((c.assigned_begin m).1 a) ((c.assigned_begin m).1 a')

/-- Leaving a type and completing it under the identifier it has changes no identifier. -/
lemma assigned_leave {j : TypeId} {i : String} :
    ((s.left guard id).complete id (s.currentIdentifier? id)).Assigned j i ↔ s.Assigned j i := by
  unfold Assigned
  rw [currentIdentifier?_complete, currentIdentifier?_left]
  cases e : s.currentIdentifier? id with
  | none =>
    show (j, i) ∈ s.named ∨ _ ↔ _
    split
    case isTrue f => simp [f, e]
    case isFalse => rfl
  | some k =>
    show (j, i) ∈ (id, k) :: s.named ∨ _ ↔ _
    rw [List.mem_cons]
    split
    case isTrue f => simp [f, e, eq_comm, or_comm]
    case isFalse f => simp [f]

/-- Claiming a name and leaving a type do not affect each other. -/
lemma claim_left {name : String} :
    (s.left guard id).claim name = ((s.claim name).1, (s.claim name).2.left guard id) := by
  unfold claim
  show (if name ∈ s.usedIdentifiers then _ else _) = _
  split <;> rfl

/-- A type that is left is no longer in progress, whatever identifier it had. -/
lemma left_setProgress {identifier : Option String} :
    (s.setProgress id identifier).left guard id = s.left guard id := by
  unfold left setProgress withoutProgress
  simp

@[simp] lemma complete_guard {identifier : Option String} :
    (s.complete id identifier).guard = s.guard := by
  cases identifier <;> rfl

@[simp] lemma complete_usedIdentifiers {identifier : Option String} :
    (s.complete id identifier).usedIdentifiers = s.usedIdentifiers := by
  cases identifier <;> rfl

/-- Completing a type adds it to those that are named, if it has an identifier. -/
lemma complete_named {identifier : Option String} :
    (s.complete id identifier).named = (identifier.map (id, ·)).toList ++ s.named := by
  cases identifier <;> rfl

/-- The type that was entered last is left, and completed under the identifier it has. -/
lemma Consistent.leave (c : s.Consistent) {rest : List TypeId}
    (v : s.guard.visiting = id :: rest) (h : s.guard.leave id = .ok guard) :
    ((s.left guard id).complete id (s.currentIdentifier? id)).Consistent := by
  obtain ⟨-, rfl⟩ := WalkGuard.leave_eq_ok.1 h
  have nodup := c.nodup
  rw [v, List.nodup_cons] at nodup
  have visiting : s.guard.visiting.erase id = rest := by rw [v, List.erase_cons_head]
  have named : ∀ j i, (j, i) ∈ ((s.left { s.guard with
      visiting := s.guard.visiting.erase id
      depth := s.guard.depth - 1 } id).complete id (s.currentIdentifier? id)).named →
      (j, i) ∈ s.named ∨ (j = id ∧ s.currentIdentifier? id = some i) := by
    intro j i m
    rw [complete_named, List.mem_append] at m
    cases m with
    | inl m =>
      obtain ⟨k, e, f⟩ := Option.map_eq_some_iff.1 (Option.mem_toList.1 m)
      cases f
      exact .inr ⟨rfl, e⟩
    | inr m => exact .inl m
  refine ⟨?_, ?_, ?_, ?_, ?_, ?_, ?_⟩
  · rw [complete_guard]
    exact visiting ▸ nodup.2
  · rw [complete_guard]
    show s.guard.depth - 1 = (s.guard.visiting.erase id).length
    rw [visiting, c.depth, v]
    rfl
  · intro j i a
    rw [complete_guard]
    rw [currentIdentifier?_complete, currentIdentifier?_left] at a
    split at a
    case isTrue => simp at a
    case isFalse f => exact (List.mem_erase_of_ne f).2 (c.entered j i a)
  · intro j i m
    rw [complete_guard]
    show j ∉ s.guard.visiting.erase id
    rcases named j i m with m | ⟨rfl, -⟩
    · exact fun m' => c.completed j i m (List.mem_of_mem_erase m')
    · exact visiting ▸ nodup.1
  · intro j i a
    rw [complete_usedIdentifiers]
    exact c.used j i (assigned_leave.1 a)
  · intro j j' i a a'
    exact c.unique j j' i (assigned_leave.1 a) (assigned_leave.1 a')
  · rw [complete_named]
    cases e : s.currentIdentifier? id with
    | none => exact c.distinct
    | some i =>
      refine List.nodup_cons.2 ⟨?_, c.distinct⟩
      intro m
      obtain ⟨⟨j, i⟩, m', rfl⟩ := List.mem_map.1 m
      obtain rfl := c.unique j id i (.inl m') (.inr e)
      exact c.completed j i m' (v ▸ List.mem_cons_self)

end ImportState

namespace Importer

open ImportState

variable {importer : Importer} {id : TypeId} {s s' : ImportState} {node : Schema}

/-- A type that is referred to keeps the identifier it has, or is given a free one. -/
lemma refer_cases (importer : Importer) (id : TypeId) (s : ImportState) :
    (s.currentIdentifier? id = some (importer.refer id s).1 ∧ (importer.refer id s).2 = s) ∨
      (s.currentIdentifier? id = none ∧
        ∃ t, s.Claims (importer.refer id s).1 t ∧
          (importer.refer id s).2 = t.setProgress id (some (importer.refer id s).1)) := by
  unfold refer
  cases s.currentIdentifier? id with
  | some identifier => exact .inl ⟨rfl, rfl⟩
  | none =>
    right
    cases importer.aliasName? id with
    | some name => exact ⟨rfl, _, claims_claim, rfl⟩
    | none => exact ⟨rfl, _, claims_claimAnonymous, rfl⟩

/-- Referring to a type completes none. -/
lemma refer_named : (importer.refer id s).2.named = s.named := by
  rcases refer_cases importer id s with ⟨-, e⟩ | ⟨-, t, c, e⟩
  · rw [e]
  · rw [e]
    obtain ⟨-, count, rfl⟩ := c
    rfl

/-- Inside of a type that was entered, it comes before those that were entered earlier. -/
lemma visiting_begin {guard : WalkGuard TypeId} (h : s.guard.enter id = (.entered, guard)) :
    (s.begin guard id).guard.visiting = id :: s.guard.visiting := by
  obtain ⟨-, -, -, rfl⟩ := WalkGuard.enter_eq_entered.1 h
  rfl

/-- A type is completed under the identifier that it has when it is left, or is given just before
because of its alias name. -/
lemma conclude_cases {isNested : Bool} {inside : ImportState} {guard : WalkGuard TypeId}
    {identifier : Option String}
    (h : importer.conclude isNested id (inside.currentIdentifier? id) (inside.left guard id) =
      (identifier, s)) :
    ∃ known : ImportState,
      (known = inside ∨
        (inside.currentIdentifier? id = none ∧ isNested = true ∧ importer.aliasName? id ≠ none ∧
          ∃ i t, inside.Claims i t ∧ known = t.setProgress id (some i))) ∧
      known.guard = inside.guard ∧ known.currentIdentifier? id = identifier ∧
      s.complete id identifier = (known.left guard id).complete id identifier := by
  unfold conclude at h
  cases e : inside.currentIdentifier? id with
  | some i =>
    rw [e] at h
    cases h
    exact ⟨inside, .inl rfl, rfl, e, rfl⟩
  | none =>
    rw [e] at h
    dsimp only at h
    cases isNested with
    | false =>
      cases h
      exact ⟨inside, .inl rfl, rfl, e, rfl⟩
    | true =>
      cases a : importer.aliasName? id with
      | none =>
        rw [a] at h
        cases h
        exact ⟨inside, .inl rfl, rfl, e, rfl⟩
      | some name =>
        rw [a, if_pos rfl] at h
        dsimp only at h
        rw [claim_left] at h
        cases h
        refine ⟨(inside.claim name).2.setProgress id (some (inside.claim name).1),
          .inr ⟨rfl, rfl, by simp, _, _, claims_claim, rfl⟩, ?_, ?_, ?_⟩
        · rw [claim_state]
          rfl
        · simp
        · rw [left_setProgress]

/-- A type that is left is completed, whose identifiers then are those of a consistent state: the
state inside of the type, with an identifier for the type if it is given one last. -/
lemma complete_of_conclude {isNested : Bool} {inside : ImportState} {guard : WalkGuard TypeId}
    {identifier : Option String} {rest : List TypeId} (c : inside.Consistent)
    (v : inside.guard.visiting = id :: rest) (l : inside.guard.leave id = .ok guard)
    (o : importer.conclude isNested id (inside.currentIdentifier? id) (inside.left guard id) =
      (identifier, s)) :
    (s.complete id identifier).Consistent ∧
      (s.complete id identifier).guard = guard ∧
      (s.complete id identifier).named = (identifier.map (id, ·)).toList ++ inside.named ∧
      inside.usedIdentifiers ⊆ (s.complete id identifier).usedIdentifiers ∧
      (∀ j i, inside.Assigned j i → (s.complete id identifier).Assigned j i) ∧
      ∀ j i, (s.complete id identifier).Assigned j i →
        inside.Assigned j i ∨
          (j = id ∧ isNested = true ∧ importer.aliasName? id ≠ none) := by
  obtain ⟨known, k, g, rfl, eq⟩ := conclude_cases o
  have l' : known.guard.leave id = .ok guard := by rw [g]; exact l
  rw [eq]
  rcases k with rfl | ⟨u, n, a, i, t, cl, rfl⟩
  · refine ⟨c.leave v l, complete_guard, complete_named, ?_, ?_, ?_⟩
    · rw [complete_usedIdentifiers]
      exact fun _ m => m
    · exact fun j i b => assigned_leave.2 b
    · exact fun j i b => .inl (assigned_leave.1 b)
  · obtain ⟨ck, x, back⟩ := c.assign cl (v ▸ List.mem_cons_self) u
    refine ⟨ck.leave (g ▸ v) l', complete_guard, ?_, ?_, ?_, ?_⟩
    · rw [complete_named]
      obtain ⟨-, count, rfl⟩ := cl
      rfl
    · rw [complete_usedIdentifiers]
      exact x.used
    · exact fun j i b => assigned_leave.2 (x.assigned j i b)
    · intro j i b
      rcases back j i (assigned_leave.1 b) with b | ⟨rfl, -⟩
      · exact .inl b
      · exact .inr ⟨rfl, n, a⟩

/-- The state in which the parts of an entered type are imported determines the state after it. -/
lemma extends_of_entered {guard guard' : WalkGuard TypeId} {inside : ImportState}
    {identifier : Option String} (c : s.Consistent)
    (h : s.guard.enter id = (.entered, guard)) (ci : inside.Consistent)
    (e : (s.begin guard id).Extends inside) (l : inside.guard.leave id = .ok guard')
    (o : importer.conclude (1 < guard.depth) id (inside.currentIdentifier? id)
      (inside.left guard' id) = (identifier, s')) :
    (s'.complete id identifier).Consistent ∧ s.Extends (s'.complete id identifier) := by
  have v : inside.guard.visiting = id :: s.guard.visiting := e.visiting.trans (visiting_begin h)
  obtain ⟨-, m, -, rfl⟩ := WalkGuard.enter_eq_entered.1 h
  obtain ⟨cs, g, named, used, forth, -⟩ := complete_of_conclude ci v l o
  obtain ⟨-, rfl⟩ := WalkGuard.leave_eq_ok.1 l
  refine ⟨cs, ?_, ?_, ?_, ?_, ?_, ?_⟩
  · rw [g]
    show inside.guard.visiting.erase id = _
    rw [v, List.erase_cons_head]
  · rw [g]
    show inside.guard.depth - 1 = _
    rw [e.depth]
    rfl
  · rw [g]
    exact e.limits
  · rw [named]
    exact e.named.trans (List.suffix_append _ _)
  · exact fun _ u => used (e.used u)
  · intro j i a
    exact forth j i (e.assigned j i ((c.assigned_begin m).2 a))

/-- An import keeps the state consistent, and every identifier with its type. -/
theorem Imports.consistent (h : importer.Imports id s node s') (c : s.Consistent) :
    s'.Consistent ∧ s.Extends s' := by
  induction h using Imports.induct with
  | leaf _ => exact ⟨c, .refl _⟩
  | named _ _ _ => exact ⟨c, .refl _⟩
  | @cycle id s guard _ _ e _ =>
    obtain ⟨-, m, rfl⟩ := WalkGuard.enter_eq_cycle.1 e
    have c' := c.count s.guard.nextIteration
    have x : s.Extends { s with guard := { s.guard with iterations := s.guard.nextIteration } } :=
      ⟨rfl, rfl, rfl, List.suffix_rfl, fun _ h => h, fun _ _ h => h⟩
    rcases refer_cases importer id
      { s with guard := { s.guard with iterations := s.guard.nextIteration } } with
      ⟨-, r⟩ | ⟨u, t, cl, r⟩
    · rw [r]
      exact ⟨c', x⟩
    · rw [r]
      have a := c'.assign cl m u
      exact ⟨a.1, x.trans a.2.1⟩
  | entered _ n e _ _ l o ih =>
    have i := ih.preserves .refl (fun _ _ _ => .trans) (fun _ _ _ _ ⟨_, h⟩ c => h c) (c.begin n e)
    exact extends_of_entered c e i.1 i.2 l o

/-- Imports one after the other keep the state consistent, and every identifier with its type. -/
lemma threads_consistent {ids : List TypeId} {nodes : List Schema}
    (h : Walk.Threads importer.Imports ids s nodes s') (c : s.Consistent) :
    s'.Consistent ∧ s.Extends s' :=
  h.preserves .refl (fun _ _ _ => .trans) (fun _ _ _ _ h c => h.consistent c) c

/-- An import starts in a consistent state, in which no type has an identifier. -/
lemma consistent_start : importer.start.Consistent := by
  refine ⟨.nil, rfl, ?_, ?_, ?_, ?_, .nil⟩
  · intro id i h
    cases h
  · intro id i h
    cases h
  · rintro id i (h | h) <;> cases h
  · rintro id id' i (h | h) <;> cases h

/-- An import that succeeds as a whole imports its root, and every reference of the node names one
of its nodes. -/
lemma gives_of_fromType {root : TypeId} (h : importer.fromType root = .ok node) :
    ∃ s', (importer.importRoot root).Gives importer.start node s' ∧
      ∀ r ∈ node.references, r ∈ node.identifiers := by
  unfold fromType finish at h
  have g : ∃ s', (importer.importChecked root).Gives importer.start node s' := by
    cases e : (importer.importChecked root).run importer.start with
    | mk result s' =>
      rw [e] at h
      cases c : s'.guard.close with
      | error misuse => simp [c] at h
      | ok _ =>
        simp only [c] at h
        rw [h] at e
        exact ⟨s', e⟩
  obtain ⟨s', g⟩ := g
  obtain ⟨node', s1, h1, h2⟩ := Walk.gives_bind.1 g
  obtain ⟨_, s2, h3, h4⟩ := Walk.gives_bind.1 h2
  obtain ⟨rfl, rfl⟩ := Walk.gives_pure.1 h4
  obtain ⟨h3, rfl⟩ := Walk.gives_ofExcept.1 h3
  refine ⟨_, h1, ?_⟩
  unfold checkReferences at h3
  dsimp only at h3
  split at h3
  case h_1 => cases h3
  case h_2 e =>
    intro r m
    have := List.find?_eq_none.1 e r m
    simpa using this

/-- An import that succeeds as a whole leaves every type, and every reference of its node names one
of its nodes. -/
lemma imports_of_fromType {root : TypeId} (h : importer.fromType root = .ok node) :
    ∃ s', importer.Imports root importer.start node s' ∧
      ∀ r ∈ node.references, r ∈ node.identifiers := by
  obtain ⟨s', g, refs⟩ := gives_of_fromType h
  exact ⟨s', imports_of_gives g, refs⟩

/-- An import succeeds as a whole if it leaves every type, and every reference of its node names one
of its nodes. -/
lemma fromType_of_gives {root : TypeId}
    (h : (importer.importRoot root).Gives importer.start node s') (v : s'.guard.visiting = [])
    (r : ∀ r ∈ node.references, r ∈ node.identifiers) : importer.fromType root = .ok node := by
  have checked : checkReferences node = .ok () := by
    unfold checkReferences
    dsimp only
    split
    case h_1 reference e =>
      have m := r reference (List.mem_of_find?_eq_some e)
      have n := List.find?_some e
      simp [m] at n
    case h_2 => rfl
  have g : (importer.importChecked root).Gives importer.start node s' :=
    Walk.gives_bind.2 ⟨node, s', h, Walk.gives_bind.2 ⟨(), s',
      Walk.gives_ofExcept.2 ⟨checked, rfl⟩, rfl⟩⟩
  have close : s'.guard.close = .ok () := by
    unfold WalkGuard.close
    rw [v]
    rfl
  unfold Walk.Gives at g
  unfold fromType finish
  rw [g]
  simp only [close]

end Importer

end TypeSchema
