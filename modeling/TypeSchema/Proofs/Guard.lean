import Mathlib.Tactic.Lemma
import TypeSchema.Walk.Guard

/-!
# Answers of a guard

What each answer of a guard says about the keys it holds, and when a key may be entered. A walk that
leaves the keys of a guard as they are can leave what was entered before it.
-/

namespace TypeSchema.WalkGuard

variable {κ : Type} {guard guard' : WalkGuard κ} {key : κ}

/-- Two guards with the same limits hold the same keys, at the same depth. -/
structure SameKeys (guard guard' : WalkGuard κ) : Prop where
  limits : guard'.limits = guard.limits
  visiting : guard'.visiting = guard.visiting
  depth : guard'.depth = guard.depth

/-- No key is entered, and the depth is zero. -/
structure Idle (guard : WalkGuard κ) : Prop where
  visiting : guard.visiting = []
  depth : guard.depth = 0

namespace SameKeys

lemma refl (guard : WalkGuard κ) : guard.SameKeys guard := ⟨rfl, rfl, rfl⟩

lemma trans {guard'' : WalkGuard κ} (h : guard.SameKeys guard') (h' : guard'.SameKeys guard'') :
    guard.SameKeys guard'' :=
  ⟨h'.limits.trans h.limits, h'.visiting.trans h.visiting, h'.depth.trans h.depth⟩

lemma idle (h : guard.SameKeys guard') (i : guard.Idle) : guard'.Idle :=
  ⟨h.visiting.trans i.visiting, h.depth.trans i.depth⟩

end SameKeys

lemma idle_new {limits : WalkLimits} : (new limits : WalkGuard κ).Idle := ⟨rfl, rfl⟩

/-- A guard without keys may be given up. -/
lemma Idle.close_eq (i : guard.Idle) : guard.close = .ok () := by
  simp [close, i.visiting]

variable [DecidableEq κ]

/-- A key is entered when the work is not spent, the key is new and there is room. -/
lemma enter_eq_entered :
    guard.enter key = (.entered, guard') ↔
      guard.nextIteration ≤ guard.limits.maxIterations.toNat ∧ key ∉ guard.visiting ∧
        guard.depth < guard.limits.maxDepth.toNat ∧
        guard' = { guard with
          visiting := key :: guard.visiting
          depth := guard.depth + 1
          iterations := guard.nextIteration } := by
  unfold enter
  dsimp only
  split
  case isTrue h =>
    constructor
    · intro e
      simp at e
    · rintro ⟨h1, -⟩
      omega
  case isFalse h =>
    split
    case isTrue m =>
      constructor
      · intro e
        simp at e
      · rintro ⟨-, h2, -⟩
        exact absurd m h2
    case isFalse m =>
      split
      case isTrue d =>
        constructor
        · intro e
          simp at e
        · rintro ⟨-, -, h3, -⟩
          omega
      case isFalse d =>
        constructor
        · intro e
          simp only [Prod.mk.injEq, true_and] at e
          exact ⟨by omega, m, by omega, e.symm⟩
        · rintro ⟨-, -, -, rfl⟩
          rfl

/-- A key is met again when the work is not spent and the walk is inside of it. -/
lemma enter_eq_cycle :
    guard.enter key = (.cycle, guard') ↔
      guard.nextIteration ≤ guard.limits.maxIterations.toNat ∧ key ∈ guard.visiting ∧
        guard' = { guard with iterations := guard.nextIteration } := by
  unfold enter
  dsimp only
  split
  case isTrue h =>
    constructor
    · intro e
      simp at e
    · rintro ⟨h1, -⟩
      omega
  case isFalse h =>
    split
    case isTrue m =>
      constructor
      · intro e
        simp only [Prod.mk.injEq, true_and] at e
        exact ⟨by omega, m, e.symm⟩
      · rintro ⟨-, -, rfl⟩
        rfl
    case isFalse m =>
      constructor
      · intro e
        split at e <;> simp at e
      · rintro ⟨-, h2, -⟩
        exact absurd h2 m

/-- A key is left when the walk is inside of it. -/
lemma leave_eq_ok :
    guard.leave key = .ok guard' ↔
      key ∈ guard.visiting ∧
        guard' = { guard with
          visiting := guard.visiting.erase key
          depth := guard.depth - 1 } := by
  unfold leave
  split
  case isTrue m =>
    constructor
    · intro e
      exact ⟨m, (Except.ok.inj e).symm⟩
    · rintro ⟨-, rfl⟩
      rfl
  case isFalse m =>
    constructor
    · intro e
      simp at e
    · rintro ⟨h, -⟩
      exact absurd h m

/-- An attempt that enters nothing leaves the keys as they are. -/
lemma sameKeys_of_enter {answer : GuardAnswer} (e : guard.enter key = (answer, guard'))
    (n : answer ≠ .entered) : guard.SameKeys guard' := by
  unfold enter at e
  dsimp only at e
  split at e
  case isTrue =>
    cases e
    exact ⟨rfl, rfl, rfl⟩
  case isFalse =>
    split at e
    case isTrue =>
      cases e
      exact ⟨rfl, rfl, rfl⟩
    case isFalse =>
      split at e
      case isTrue =>
        cases e
        exact ⟨rfl, rfl, rfl⟩
      case isFalse =>
        cases e
        exact absurd rfl n

/-- Every attempt is counted. -/
lemma iterations_of_enter {answer : GuardAnswer} (e : guard.enter key = (answer, guard')) :
    guard'.iterations = guard.nextIteration := by
  unfold enter at e
  dsimp only at e
  split at e
  · cases e
    rfl
  · split at e
    · cases e
      rfl
    · split at e
      · cases e
        rfl
      · cases e
        rfl

/-- A key that was entered can be left if the keys are still the same, which gives back the keys
from before. -/
lemma exists_leave_of_entered {inner inner' : WalkGuard κ} (e : guard.enter key = (.entered, inner))
    (k : inner.SameKeys inner') : ∃ outer, inner'.leave key = .ok outer ∧ guard.SameKeys outer := by
  obtain ⟨-, -, -, rfl⟩ := enter_eq_entered.1 e
  have m : key ∈ inner'.visiting := by
    rw [k.visiting]
    exact List.mem_cons_self
  refine ⟨_, leave_eq_ok.2 ⟨m, rfl⟩, k.limits, ?_, ?_⟩
  · show inner'.visiting.erase key = guard.visiting
    rw [k.visiting]
    exact List.erase_cons_head key guard.visiting
  · show inner'.depth - 1 = guard.depth
    rw [k.depth]
    exact Nat.add_sub_cancel guard.depth 1

end TypeSchema.WalkGuard
