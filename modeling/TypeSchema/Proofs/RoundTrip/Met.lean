import TypeSchema.Proofs.Import.Consistent

/-!
# Types met under their alias names

In a graph that was lowered from declarations the types that may be met again have the names of
their declarations. While such a graph is imported, every identifier in use is the alias name of the
type that has it, so no name is ever taken when it is claimed.
-/

namespace TypeSchema

namespace Importer

variable {importer : Importer} {handle : String → TypeId} {seen : List String} {s : ImportState}
  {id : TypeId} {guard : WalkGuard TypeId} {name : String}

/-- The types of the seen names were met, each under its own name, and no other type has an
identifier. -/
structure Met (importer : Importer) (handle : String → TypeId) (seen : List String)
    (s : ImportState) : Prop where
  consistent : s.Consistent
  names : ∀ name ∈ seen, importer.aliasName? (handle name) = some name
  structural : ∀ name ∈ seen,
    importer.importLeaf? (handle name) (importer.checker.flags (handle name)) = none
  met : ∀ name ∈ seen, s.named.lookup (handle name) = some name ∨ handle name ∈ s.guard.visiting
  assigned : ∀ id name, s.Assigned id name → name ∈ seen ∧ id = handle name
  used : ∀ name ∈ s.usedIdentifiers, s.Assigned (handle name) name

/-- No alias name is empty. -/
lemma ne_empty_of_aliasName? (h : importer.aliasName? id = some name) : name ≠ "" := by
  unfold Importer.aliasName? at h
  simpa using (Option.filter_eq_some_iff.1 h).2

/-- Types of different names are different. -/
lemma Met.handle_injective (m : Met importer handle seen s) {other : String} (hm : name ∈ seen)
    (ho : other ∈ seen) (e : handle name = handle other) : name = other := by
  have h := m.names name hm
  rw [e, m.names other ho] at h
  exact (Option.some.inj h).symm

/-- A type the walk is inside of is not among those that are completed. -/
lemma Met.lookup_eq_none (m : Met importer handle seen s) (v : id ∈ s.guard.visiting) :
    s.named.lookup id = none := by
  cases e : s.named.lookup id with
  | none => rfl
  | some name => exact absurd v (m.consistent.completed id name (mem_of_lookup e))

/-- A type that has no identifier yet, and is inside of the walk, has its name free. -/
lemma Met.not_used (m : Met importer handle seen s) (v : handle name ∈ s.guard.visiting)
    (u : s.currentIdentifier? (handle name) = none) : name ∉ s.usedIdentifiers := by
  intro mu
  rcases m.used name mu with a | a
  · exact m.consistent.completed _ _ a v
  · rw [u] at a
    cases a

/-- A type that is referred to inside of itself is referred to by its name. -/
theorem Met.refer (m : Met importer handle seen s) (hm : name ∈ seen)
    (v : handle name ∈ s.guard.visiting) :
    (importer.refer (handle name) s).1 = name ∧
      Met importer handle seen (importer.refer (handle name) s).2 ∧
      (importer.refer (handle name) s).2.guard = s.guard ∧
      (importer.refer (handle name) s).2.currentIdentifier? (handle name) = some name := by
  cases e : s.currentIdentifier? (handle name) with
  | some other =>
    have r : importer.refer (handle name) s = (other, s) := by
      unfold Importer.refer
      rw [e]
    obtain ⟨ho, eq⟩ := m.assigned _ _ (.inr e)
    obtain rfl := m.handle_injective hm ho eq
    rw [r]
    exact ⟨rfl, m, rfl, e⟩
  | none =>
    have free : name ∉ s.usedIdentifiers := m.not_used v e
    have r : importer.refer (handle name) s =
        (name, (s.use name).setProgress (handle name) (some name)) := by
      unfold Importer.refer
      rw [e, m.names name hm]
      simp only [ImportState.claim_of_not_mem free]
    have claims : s.Claims name (s.use name) := ⟨free, s.anonymousCount, rfl⟩
    obtain ⟨c, x, back⟩ := m.consistent.assign claims v e
    have current : ((s.use name).setProgress (handle name) (some name)).currentIdentifier?
        (handle name) = some name := by simp
    rw [r]
    refine ⟨rfl, ⟨c, m.names, m.structural, m.met, ?_, ?_⟩, rfl, current⟩
    · intro id other a
      rcases back id other a with a | ⟨rfl, rfl⟩
      · exact m.assigned id other a
      · exact ⟨hm, rfl⟩
    · intro other mo
      cases mo with
      | head => exact .inr current
      | tail _ mo => exact x.assigned _ _ (m.used other mo)

/-- A type of a new name is entered. -/
theorem Met.begin (m : Met importer handle seen s) {added : List String}
    (n : s.named.lookup id = none) (e : s.guard.enter id = (.entered, guard))
    (new : ∀ name ∈ added, id = handle name ∧ importer.aliasName? id = some name)
    (leaf : importer.importLeaf? id (importer.checker.flags id) = none) :
    Met importer handle (added ++ seen) (s.begin guard id) := by
  have v := visiting_begin e
  obtain ⟨-, apart, -, -⟩ := WalkGuard.enter_eq_entered.1 e
  refine ⟨m.consistent.begin n e, ?_, ?_, ?_, ?_, ?_⟩
  · intro name hm
    rcases List.mem_append.1 hm with hm | hm
    · obtain ⟨rfl, a⟩ := new name hm
      exact a
    · exact m.names name hm
  · intro name hm
    rcases List.mem_append.1 hm with hm | hm
    · obtain ⟨rfl, -⟩ := new name hm
      exact leaf
    · exact m.structural name hm
  · intro name hm
    rcases List.mem_append.1 hm with hm | hm
    · right
      rw [v, (new name hm).1]
      exact List.mem_cons_self
    · refine (m.met name hm).imp_right fun mv => ?_
      rw [v]
      exact List.mem_cons_of_mem _ mv
  · intro j name a
    obtain ⟨hm, rfl⟩ := m.assigned j name ((m.consistent.assigned_begin apart).1 a)
    exact ⟨List.mem_append_right _ hm, rfl⟩
  · intro name mu
    exact (m.consistent.assigned_begin apart).2 (m.used name mu)

/-- A type is left and completed under the identifier it has; if it has a seen name, it must be
that. -/
theorem Met.leave (m : Met importer handle seen s) {rest : List TypeId}
    (v : s.guard.visiting = id :: rest) (l : s.guard.leave id = .ok guard)
    (current : ∀ name ∈ seen, handle name = id → s.currentIdentifier? id = some name) :
    Met importer handle seen ((s.left guard id).complete id (s.currentIdentifier? id)) := by
  obtain ⟨-, rfl⟩ := WalkGuard.leave_eq_ok.1 l
  refine ⟨m.consistent.leave v l, m.names, m.structural, ?_, ?_, ?_⟩
  · intro name hm
    rw [ImportState.complete_named, ImportState.complete_guard]
    by_cases e : handle name = id
    · left
      rw [current name hm e, e]
      simp
    · have visiting : s.guard.visiting.erase id = rest := by rw [v, List.erase_cons_head]
      rcases m.met name hm with mn | mv
      · left
        cases s.currentIdentifier? id with
        | none => exact mn
        | some other =>
          show List.lookup _ ((id, other) :: s.named) = _
          rw [lookup_cons_of_ne e]
          exact mn
      · right
        show handle name ∈ s.guard.visiting.erase id
        rw [v] at mv
        rw [visiting]
        cases mv with
        | head => exact absurd rfl e
        | tail _ mv => exact mv
  · intro j name a
    exact m.assigned j name (ImportState.assigned_leave.1 a)
  · intro name mu
    rw [ImportState.complete_usedIdentifiers] at mu
    exact ImportState.assigned_leave.2 (m.used name mu)

/-- A nested type that has an alias name is completed as one that is referred to. -/
lemma conclude_of_aliasName? (a : importer.aliasName? id = some name) :
    importer.conclude true id (s.currentIdentifier? id) (s.left guard id) =
      (some (importer.refer id s).1, (importer.refer id s).2.left guard id) := by
  unfold conclude refer
  cases s.currentIdentifier? id with
  | some identifier => rfl
  | none =>
    simp only [a, if_true, ImportState.claim_left, ImportState.left_setProgress]

end Importer

end TypeSchema
