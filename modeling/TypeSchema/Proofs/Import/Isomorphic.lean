import TypeSchema.Proofs.Guard
import TypeSchema.Proofs.Import.Alike
import TypeSchema.Proofs.Import.Claim
import TypeSchema.Proofs.Import.Run

/-!
# Handles are only keys

Types that two checkers answer alike are imported alike: both imports take the same steps, their
states stay related, and the outcome is the same node or an error of the same kind.
-/

namespace TypeSchema

variable {R : TypeId → TypeId → Prop}

section

variable (R)

/-- Guards that hold related keys and have counted the same. -/
structure WalkGuard.Alike (guard guard' : WalkGuard TypeId) : Prop where
  limits : guard.limits = guard'.limits
  visiting : List.Forall₂ R guard.visiting guard'.visiting
  depth : guard.depth = guard'.depth
  iterations : guard.iterations = guard'.iterations

/-- States that remember the same about related types. -/
structure ImportState.Alike (s s' : ImportState) : Prop where
  guard : s.guard.Alike R s'.guard
  inProgress :
    List.Forall₂ (fun entry entry' => R entry.1 entry'.1 ∧ entry.2 = entry'.2) s.inProgress
      s'.inProgress
  named :
    List.Forall₂ (fun entry entry' => R entry.1 entry'.1 ∧ entry.2 = entry'.2) s.named s'.named
  usedIdentifiers : s.usedIdentifiers = s'.usedIdentifiers
  anonymousCount : s.anonymousCount = s'.anonymousCount

end

/-! ## Guards and states -/

namespace WalkGuard.Alike

variable {guard guard' : WalkGuard TypeId} {a b : TypeId}

/-- An attempt is counted the same. -/
lemma nextIteration (g : guard.Alike R guard') : guard.nextIteration = guard'.nextIteration := by
  unfold WalkGuard.nextIteration
  rw [g.iterations]

/-- Attempts to enter related keys are answered alike. -/
lemma enter (g : guard.Alike R guard') (unique : Relator.BiUnique R) (r : R a b) :
    (guard.enter a).1 = (guard'.enter b).1 ∧ (guard.enter a).2.Alike R (guard'.enter b).2 := by
  unfold WalkGuard.enter
  dsimp only
  rw [g.limits, g.nextIteration, g.depth]
  split
  · exact ⟨rfl, rfl, g.visiting, rfl, rfl⟩
  · have met : a ∈ guard.visiting ↔ b ∈ guard'.visiting := List.rel_mem unique r g.visiting
    by_cases m : b ∈ guard'.visiting
    · rw [if_pos m, if_pos (met.2 m)]
      exact ⟨rfl, rfl, g.visiting, rfl, rfl⟩
    · rw [if_neg m, if_neg (mt met.1 m)]
      split
      · exact ⟨rfl, rfl, g.visiting, rfl, rfl⟩
      · exact ⟨rfl, rfl, .cons r g.visiting, rfl, rfl⟩

/-- A key is left when the related one is. -/
lemma leave (g : guard.Alike R guard') (unique : Relator.BiUnique R) (r : R a b) :
    (∃ next next', guard.leave a = .ok next ∧ guard'.leave b = .ok next' ∧ next.Alike R next') ∨
      ∃ misuse, guard.leave a = .error misuse ∧ guard'.leave b = .error misuse := by
  have met : a ∈ guard.visiting ↔ b ∈ guard'.visiting := List.rel_mem unique r g.visiting
  unfold WalkGuard.leave
  by_cases m : b ∈ guard'.visiting
  · rw [if_pos m, if_pos (met.2 m)]
    refine .inl ⟨_, _, rfl, rfl, g.limits, erase_of_forall₂ unique g.visiting r, ?_, g.iterations⟩
    exact congrArg (· - 1) g.depth
  · rw [if_neg m, if_neg (mt met.1 m)]
    exact .inr ⟨_, rfl, rfl⟩

/-- Guards are given up alike. -/
lemma close (g : guard.Alike R guard') : guard.close = guard'.close := by
  have l := g.visiting.length_eq
  have e : guard.visiting.isEmpty = guard'.visiting.isEmpty := by
    rw [Bool.eq_iff_iff, List.isEmpty_iff_length_eq_zero, List.isEmpty_iff_length_eq_zero, l]
  unfold WalkGuard.close
  rw [e, l]

end WalkGuard.Alike

namespace ImportState.Alike

variable {s s' : ImportState} {a b : TypeId} (h : s.Alike R s')

include h

lemma withGuard {guard guard' : WalkGuard TypeId} (g : guard.Alike R guard') :
    ({ s with guard } : ImportState).Alike R { s' with guard := guard' } :=
  ⟨g, h.inProgress, h.named, h.usedIdentifiers, h.anonymousCount⟩

lemma currentIdentifier? (unique : Relator.BiUnique R) (r : R a b) :
    s.currentIdentifier? a = s'.currentIdentifier? b :=
  congrArg Option.join (lookup_of_forall₂ unique h.inProgress r)

lemma withoutProgress (unique : Relator.BiUnique R) (r : R a b) :
    List.Forall₂ (fun entry entry' => R entry.1 entry'.1 ∧ entry.2 = entry'.2)
      (s.withoutProgress a) (s'.withoutProgress b) := by
  refine List.rel_filter ?_ h.inProgress
  intro entry entry' e
  simpa using not_congr (Relator.rel_eq unique e.1 r)

lemma setProgress (unique : Relator.BiUnique R) (r : R a b) (identifier : Option String) :
    (s.setProgress a identifier).Alike R (s'.setProgress b identifier) :=
  ⟨h.guard, .cons ⟨r, rfl⟩ (h.withoutProgress unique r), h.named, h.usedIdentifiers,
    h.anonymousCount⟩

lemma left (unique : Relator.BiUnique R) (r : R a b) {guard guard' : WalkGuard TypeId}
    (g : guard.Alike R guard') : (s.left guard a).Alike R (s'.left guard' b) :=
  ⟨g, h.withoutProgress unique r, h.named, h.usedIdentifiers, h.anonymousCount⟩

lemma use (identifier : String) : (s.use identifier).Alike R (s'.use identifier) :=
  ⟨h.guard, h.inProgress, h.named, congrArg (identifier :: ·) h.usedIdentifiers, h.anonymousCount⟩

/-- A name is claimed as the same identifier. -/
lemma claim (name : String) :
    (s.claim name).1 = (s'.claim name).1 ∧ (s.claim name).2.Alike R (s'.claim name).2 := by
  have e : (s.claim name).1 = (s'.claim name).1 := by
    unfold ImportState.claim
    rw [h.usedIdentifiers]
    split <;> rfl
  refine ⟨e, ?_⟩
  rw [ImportState.claim_state, ImportState.claim_state, e]
  exact h.use _

/-- A numbered prefix is claimed as the same identifier. -/
lemma claimAnonymous (start : String) :
    (s.claimAnonymous start).1 = (s'.claimAnonymous start).1 ∧
      (s.claimAnonymous start).2.Alike R (s'.claimAnonymous start).2 := by
  unfold ImportState.claimAnonymous
  rw [h.usedIdentifiers, h.anonymousCount]
  exact ⟨rfl, h.guard, h.inProgress, h.named, congrArg (_ :: ·) h.usedIdentifiers, rfl⟩

end ImportState.Alike

/-! ## Walks -/

/-- From states that are alike, both walks lead to the same outcome and to states that are alike. -/
def ImportWalk.Alike (R : TypeId → TypeId → Prop) {α : Type} (walk walk' : ImportWalk α) : Prop :=
  Walk.Parallel (ImportState.Alike R) ImportError.SameKind walk walk'

/-- What construction gives does not depend on handles. -/
lemma ImportWalk.constructed_alike {α : Type} {result : Except ConstructionError α} :
    ImportWalk.Alike R (ImportWalk.constructed result) (ImportWalk.constructed result) := by
  cases result with
  | ok => exact Walk.parallel_pure
  | error => exact Walk.parallel_fail .construction

/-- Steps that are alike are taken alike. -/
lemma ImportStep.take_alike {importPart importPart' : TypeId → ImportWalk Schema}
    (parts : ∀ a b, R a b → ImportWalk.Alike R (importPart a) (importPart' b))
    {step step' : ImportStep} (h : step.Alike R step') :
    ImportWalk.Alike R (step.take importPart) (step'.take importPart') := by
  cases h with
  | part r => exact parts _ _ r
  | stop k => exact Walk.parallel_fail k

namespace Importer

variable {importer importer' : Importer} (iso : importer.Isomorphic R importer') {a b : TypeId}
  {s s' : ImportState}

include iso

/-- A leaf rule makes the same node of related types. -/
lemma applyLeaf_alike (r : R a b) (rule : ImportRule) :
    Option.Rel (ImportWalk.Alike R) (importer.applyLeaf a (importer.checker.flags a) rule)
      (importer'.applyLeaf b (importer'.checker.flags b) rule) := by
  cases rule with
  | literal =>
    simp only [applyLeaf, iso.checker.flags r, iso.checker.literalValue? r]
    split
    · cases importer'.checker.literalValue? b with
      | some value => exact .some Walk.parallel_pure
      | none =>
        refine .some (Walk.parallel_fail ?_)
        rw [iso.file]
        exact .unsupportedType
    · exact .none
  | primitive =>
    simp only [applyLeaf, iso.checker.flags r]
    cases (importer'.checker.flags b).primitive? with
    | some type => exact .some Walk.parallel_pure
    | none => exact .none
  | _ => exact .none

/-- The first leaf rule that applies makes the same node of related types. -/
lemma importLeaf?_alike (r : R a b) :
    Option.Rel (ImportWalk.Alike R) (importer.importLeaf? a (importer.checker.flags a))
      (importer'.importLeaf? b (importer'.checker.flags b)) := by
  unfold importLeaf?
  induction ImportRule.all with
  | nil => exact .none
  | cons rule rules ih =>
    rw [List.findSome?_cons, List.findSome?_cons]
    have first := applyLeaf_alike iso r rule
    generalize importer.applyLeaf a (importer.checker.flags a) rule = walk?,
      importer'.applyLeaf b (importer'.checker.flags b) rule = walk?' at first
    cases first with
    | some h => exact .some h
    | none => exact ih

/-- The structures of related types are imported alike if related parts are. -/
lemma importStructure_alike {importPart importPart' : TypeId → ImportWalk Schema}
    (parts : ∀ a b, R a b → ImportWalk.Alike R (importPart a) (importPart' b)) (r : R a b)
    (n : importer.importLeaf? a (importer.checker.flags a) = none)
    (n' : importer'.importLeaf? b (importer'.checker.flags b) = none) :
    ImportWalk.Alike R (importer.importStructure importPart a (importer.checker.flags a))
      (importer'.importStructure importPart' b (importer'.checker.flags b)) := by
  rw [importStructure_eq n, importStructure_eq n', build_alike iso r]
  refine Walk.Parallel.bind (.mapM ?_) fun _ => Walk.parallel_pure
  exact (steps_alike iso r).imp fun _ _ => ImportStep.take_alike parts

/-- Related types have the same alias name. -/
lemma aliasName?_alike (r : R a b) : importer.aliasName? a = importer'.aliasName? b := by
  unfold aliasName?
  rw [iso.checker.aliasName? r]

/-- Related types are referred to by the same identifier. -/
lemma refer_alike (r : R a b) (h : s.Alike R s') :
    (importer.refer a s).1 = (importer'.refer b s').1 ∧
      (importer.refer a s).2.Alike R (importer'.refer b s').2 := by
  have unique := iso.checker.unique
  unfold refer
  rw [h.currentIdentifier? unique r, aliasName?_alike iso r, iso.options]
  cases s'.currentIdentifier? b with
  | some identifier => exact ⟨rfl, h⟩
  | none =>
    cases importer'.aliasName? b with
    | some name =>
      obtain ⟨same, claimed⟩ := h.claim name
      dsimp only
      rw [same]
      exact ⟨rfl, claimed.setProgress unique r _⟩
    | none =>
      obtain ⟨same, claimed⟩ := h.claimAnonymous importer'.options.anonymousPrefix
      dsimp only
      rw [same]
      exact ⟨rfl, claimed.setProgress unique r _⟩

/-- The walk that refers to a type refers to related types alike. -/
lemma identifierFor_alike (r : R a b) :
    ImportWalk.Alike R (importer.identifierFor a) (importer'.identifierFor b) := by
  intro s s' h
  obtain ⟨same, left⟩ := refer_alike iso r h
  have e : (importer.identifierFor a).run s =
      (.ok (importer.refer a s).1, (importer.refer a s).2) := gives_identifierFor.2 rfl
  have e' : (importer'.identifierFor b).run s' =
      (.ok (importer'.refer b s').1, (importer'.refer b s').2) := gives_identifierFor.2 rfl
  rw [e, e', same]
  exact ⟨.ok, left⟩

/-- Related types are completed under the same identifier. -/
lemma conclude_alike (r : R a b) (isNested : Bool) (identifier : Option String)
    (h : s.Alike R s') :
    (importer.conclude isNested a identifier s).1 =
        (importer'.conclude isNested b identifier s').1 ∧
      (importer.conclude isNested a identifier s).2.Alike R
        (importer'.conclude isNested b identifier s').2 := by
  unfold conclude
  rw [aliasName?_alike iso r]
  split
  · exact ⟨rfl, h⟩
  · split
    · split
      · obtain ⟨same, claimed⟩ := h.claim _
        exact ⟨congrArg some same, claimed⟩
      · exact ⟨rfl, h⟩
    · exact ⟨rfl, h⟩

omit iso in
/-- Related types are completed alike. -/
lemma complete_alike (r : R a b) {identifier : Option String} {node : Schema} :
    ImportWalk.Alike R (complete a identifier node) (complete b identifier node) := by
  cases identifier with
  | none => exact Walk.parallel_pure
  | some identifier =>
    refine Walk.Parallel.bind ?_ fun _ => Walk.parallel_pure
    intro s s' h
    exact ⟨.ok, h.guard, h.inProgress, .cons ⟨r, rfl⟩ h.named, h.usedIdentifiers,
      h.anonymousCount⟩

/-- Related types that are entered are left and completed alike. -/
lemma importEntered_alike (r : R a b) {body body' : ImportWalk Schema}
    (h : ImportWalk.Alike R body body') {isNested : Bool} :
    ImportWalk.Alike R (importer.importEntered body isNested a)
      (importer'.importEntered body' isNested b) := by
  have unique := iso.checker.unique
  intro s s' alike
  obtain ⟨same, within⟩ := h _ _ (alike.setProgress unique r none)
  rw [run_importEntered, run_importEntered]
  cases e : body.run (s.setProgress a none) with
  | mk result inside =>
    cases e' : body'.run (s'.setProgress b none) with
    | mk result' inside' =>
      rw [e, e'] at same within
      dsimp only at same within ⊢
      -- A key that cannot be left hides how the body ended.
      obtain ⟨next, next', l, l', g⟩ | ⟨misuse, l, l'⟩ := within.guard.leave unique r
      · rw [l, l']
        have left := within.left unique r g
        cases same with
        | stop k => exact ⟨.stop k, left⟩
        | ok =>
          dsimp only
          rw [within.currentIdentifier? unique r]
          obtain ⟨same, concluded⟩ :=
            conclude_alike iso r isNested (inside'.currentIdentifier? b) left
          rw [same]
          exact complete_alike r _ _ concluded
      · rw [l, l']
        exact ⟨.stop .misused, within⟩

/-- Related types are imported alike if their parts are. -/
lemma importWith_alike (r : R a b) {importPart? importPart?' : Option (TypeId → ImportWalk Schema)}
    (parts : Option.Rel (fun importPart importPart' =>
      ∀ a b, R a b → ImportWalk.Alike R (importPart a) (importPart' b)) importPart? importPart?') :
    ImportWalk.Alike R (importer.importWith importPart? a)
      (importer'.importWith importPart?' b) := by
  have leaf := importLeaf?_alike iso r
  cases n : importer.importLeaf? a (importer.checker.flags a) with
  | some walk =>
    cases n' : importer'.importLeaf? b (importer'.checker.flags b) with
    | none =>
      rw [n, n'] at leaf
      cases leaf
    | some walk' =>
      rw [n, n'] at leaf
      rw [importWith_of_leaf n, importWith_of_leaf n']
      cases leaf with
      | some h => exact h
  | none =>
    cases n' : importer'.importLeaf? b (importer'.checker.flags b) with
    | some walk' =>
      rw [n, n'] at leaf
      cases leaf
    | none =>
      intro s s' h
      rw [run_importWith n, run_importWith n', lookup_of_forall₂ iso.checker.unique h.named r]
      cases s'.named.lookup b with
      | some identifier => exact ImportWalk.constructed_alike s s' h
      | none =>
        obtain ⟨same, g⟩ := h.guard.enter iso.checker.unique r
        generalize s.guard.enter a = entered at same g
        generalize s'.guard.enter b = entered' at same g
        obtain ⟨answer, guard⟩ := entered
        obtain ⟨answer', guard'⟩ := entered'
        obtain rfl : answer = answer' := same
        have counted := h.withGuard g
        have exceeded : ImportWalk.Alike R (importer.limitExceeded a : ImportWalk Schema)
            (importer'.limitExceeded b) := Walk.parallel_fail .depthLimitExceeded
        cases answer with
        | entered =>
          cases parts with
          | none => exact exceeded _ _ counted
          | some parts =>
            -- Whether a type is nested is told by the depth, not by the handle.
            have depth : guard.depth = guard'.depth := g.depth
            dsimp only
            rw [depth]
            exact importEntered_alike iso r (importStructure_alike iso parts r n n') _ _ counted
        | cycle =>
          refine Walk.Parallel.bind (identifierFor_alike iso r) (fun _ => ?_) _ _ counted
          exact ImportWalk.constructed_alike
        | depthExceeded => exact exceeded _ _ counted
        | iterationExceeded => exact exceeded _ _ counted

/-- Related types are imported alike. -/
theorem importType_alike (room : Nat) :
    ∀ a b, R a b →
      ImportWalk.Alike R (importer.importType room a) (importer'.importType room b) := by
  induction room with
  | zero => exact fun a b r => importWith_alike iso r .none
  | succ room ih => exact fun a b r => importWith_alike iso r (.some ih)

/-- An import that also checks its references treats related types alike. -/
lemma importChecked_alike (r : R a b) :
    ImportWalk.Alike R (importer.importChecked a) (importer'.importChecked b) := by
  unfold importChecked importRoot
  rw [iso.options]
  refine Walk.Parallel.bind (importType_alike iso _ a b r) fun node => ?_
  refine Walk.Parallel.bind ?_ fun _ => Walk.parallel_pure
  unfold checkReferences
  dsimp only
  split
  · exact Walk.parallel_fail .recursionIntegrity
  · exact Walk.parallel_pure

/-- Related types have the same schema tree, or none for reasons of one kind. -/
theorem fromType_alike (r : R a b) :
    Walk.SameOutcome ImportError.SameKind (importer.fromType a) (importer'.fromType b) := by
  have start : importer.start.Alike R importer'.start := by
    unfold Importer.start
    rw [iso.options]
    exact ⟨⟨rfl, .nil, rfl, rfl⟩, .nil, .nil, rfl, rfl⟩
  obtain ⟨same, left⟩ := importChecked_alike iso r _ _ start
  unfold fromType finish
  rw [left.guard.close]
  cases (((importer'.importChecked b).run importer'.start).2.guard).close with
  | ok => exact same
  | error misuse => exact .stop .misused

end Importer

end TypeSchema
