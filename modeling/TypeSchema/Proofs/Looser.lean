import TypeSchema.Proofs.Guard
import TypeSchema.Proofs.Walk

/-!
# Walks under looser limits

A guard that allows more than another one with the same keys, or that has been tried less often,
answers in the same way unless the other one refuses because of a limit. A walk follows another one
if it does the same from a state that allows more; where it need not, the other walk has stopped in
a state that excuses the difference.
-/

namespace TypeSchema

namespace WalkGuard

variable {κ : Type} {lenient : Prop} {guard guard' : WalkGuard κ} {key : κ}

/-- More attempts were made than are allowed. -/
def Spent (guard : WalkGuard κ) : Prop := guard.limits.maxIterations.toNat < guard.iterations

/-- Leaving a key takes no attempt back. -/
lemma Spent.leave [DecidableEq κ] (spent : guard.Spent) (l : guard.leave key = .ok guard') :
    guard'.Spent := by
  obtain ⟨-, rfl⟩ := leave_eq_ok.1 l
  exact spent

/-- The other guard holds the same keys, allows as much or more, and was tried as often or less. The
depth limits are the same, unless it is `lenient` to let them differ. -/
structure Looser (lenient : Prop) (guard guard' : WalkGuard κ) : Prop where
  visiting : guard'.visiting = guard.visiting
  depth : guard'.depth = guard.depth
  iterations : guard'.iterations ≤ guard.iterations
  maxIterations : guard.limits.maxIterations.toNat ≤ guard'.limits.maxIterations.toNat
  maxDepth : guard.limits.maxDepth.toNat ≤ guard'.limits.maxDepth.toNat
  sameDepth : lenient ∨ guard'.limits.maxDepth = guard.limits.maxDepth

namespace Looser

/-- Guards that allow the same and were tried as often, or less. -/
lemma of_sameKeys (h : guard.SameKeys guard') (i : guard.iterations ≤ guard'.iterations) :
    guard'.Looser lenient guard := by
  refine ⟨h.visiting.symm, h.depth.symm, i, ?_, ?_, .inr ?_⟩
  · exact Nat.le_of_eq (congrArg (·.maxIterations.toNat) h.limits)
  · exact Nat.le_of_eq (congrArg (·.maxDepth.toNat) h.limits)
  · exact congrArg (·.maxDepth) h.limits.symm

variable (h : guard.Looser lenient guard')

include h

lemma close : guard'.close = guard.close := by
  unfold WalkGuard.close
  rw [h.visiting]

variable [DecidableEq κ]

omit [DecidableEq κ] in
lemma nextIteration_le : guard'.nextIteration ≤ guard.nextIteration := by
  have fewer := h.iterations
  unfold nextIteration
  omega

/-- The looser guard gives the same answer, unless a limit of the other one is reached. -/
lemma enter (key : κ) :
    ((guard'.enter key).1 = (guard.enter key).1 ∧
        (guard.enter key).2.Looser lenient (guard'.enter key).2) ∨
      (((guard.enter key).1 = .depthExceeded ∨ (guard.enter key).1 = .iterationExceeded) ∧
        (lenient ∨ (guard.enter key).2.Spent)) := by
  have next := h.nextIteration_le
  have work := h.maxIterations
  have room := h.maxDepth
  have depth := h.depth
  unfold WalkGuard.enter
  dsimp only
  by_cases spent : guard.limits.maxIterations.toNat < guard.nextIteration
  · rw [if_pos spent]
    exact .inr ⟨.inr rfl, .inr spent⟩
  · rw [if_neg spent, if_neg (by omega), h.visiting]
    by_cases met : key ∈ guard.visiting
    · rw [if_pos met, if_pos met]
      exact .inl ⟨rfl, rfl, h.depth, next, h.maxIterations, h.maxDepth, h.sameDepth⟩
    · rw [if_neg met, if_neg met]
      by_cases deep : guard.limits.maxDepth.toNat ≤ guard.depth
      · rw [if_pos deep]
        rcases h.sameDepth with l | e
        · exact .inr ⟨.inl rfl, .inl l⟩
        · rw [if_pos (by rw [e, h.depth]; exact deep)]
          exact .inl ⟨rfl, rfl, h.depth, next, h.maxIterations, h.maxDepth, h.sameDepth⟩
      · rw [if_neg deep, if_neg (by omega)]
        refine .inl ⟨rfl, rfl, ?_, next, h.maxIterations, h.maxDepth, h.sameDepth⟩
        exact congrArg (· + 1) h.depth

/-- The looser guard is left when the other one is. -/
lemma leave (key : κ) :
    (∃ next next', guard.leave key = .ok next ∧ guard'.leave key = .ok next' ∧
        next.Looser lenient next') ∨
      ∃ misuse, guard.leave key = .error misuse ∧ guard'.leave key = .error misuse := by
  unfold WalkGuard.leave
  rw [h.visiting]
  by_cases m : key ∈ guard.visiting
  · rw [if_pos m, if_pos m]
    refine .inl ⟨_, _, rfl, rfl, rfl, ?_, h.iterations, h.maxIterations, h.maxDepth, h.sameDepth⟩
    exact congrArg (· - 1) h.depth
  · rw [if_neg m, if_neg m]
    exact .inr ⟨_, rfl, rfl⟩

end Looser

end WalkGuard

namespace Walk

variable {σ ε α β : Type} {S : σ → σ → Prop} {X : σ → Prop}

/-- Started in related states, the second walk has the outcome of the first one and leaves a related
state, unless the first one stops in a state that excuses it. -/
def Follows (S : σ → σ → Prop) (X : σ → Prop) (walk walk' : Walk σ ε α) : Prop :=
  ∀ s s', S s s' →
    ((walk'.run s').1 = (walk.run s).1 ∧ S (walk.run s).2 (walk'.run s').2) ∨
      (X (walk.run s).2 ∧ ∃ stop, (walk.run s).1 = .error stop)

lemma follows_pure {a : α} : Follows S X (pure a : Walk σ ε α) (pure a) :=
  fun _ _ r => .inl ⟨rfl, r⟩

lemma follows_fail {reason : ε} : Follows S X (fail reason : Walk σ ε α) (fail reason) :=
  fun _ _ r => .inl ⟨rfl, r⟩

/-- A walk that stops at once where this is excused is followed by any other. -/
lemma follows_of_fail {reason : ε} {walk : Walk σ ε α} (x : ∀ s, X s) :
    Follows S X (fail reason) walk :=
  fun s _ _ => .inr ⟨x s, _, rfl⟩

lemma follows_ofExcept {result : Except ε α} :
    Follows S X (ofExcept result : Walk σ ε α) (ofExcept result) := by
  cases result with
  | ok => exact follows_pure
  | error => exact follows_fail

/-- A change that keeps states related. -/
lemma follows_modify {change : σ → σ} (h : ∀ s s', S s s' → S (change s) (change s')) :
    Follows S X (modify change : Walk σ ε Unit) (modify change) :=
  fun s s' r => .inl ⟨rfl, h s s' r⟩

/-- What follows a look at the state is followed if it is so for related states. -/
lemma follows_get_bind {next next' : σ → Walk σ ε β}
    (h : ∀ s s', S s s' → (next s).Follows S X (next' s')) :
    (get >>= next).Follows S X (get >>= next') :=
  fun s s' r => h s s' r s s' r

/-- What follows a result is given, if the first walk gives one. -/
lemma Follows.gives {walk walk' : Walk σ ε α} {s s' t : σ} {a : α} (h : walk.Follows S X walk')
    (r : S s s') (g : walk.Gives s a t) : ∃ t', walk'.Gives s' a t' ∧ S t t' := by
  unfold Gives at g
  rcases h s s' r with ⟨same, left⟩ | ⟨-, stop, e⟩
  · rw [g] at same left
    exact ⟨(walk'.run s').2, Prod.ext same rfl, left⟩
  · rw [g] at e
    cases e

/-- A sequence follows another one if its parts do. -/
lemma Follows.bind {walk walk' : Walk σ ε α} {next next' : α → Walk σ ε β}
    (h : walk.Follows S X walk') (h' : ∀ a, (next a).Follows S X (next' a)) :
    (walk >>= next).Follows S X (walk' >>= next') := by
  intro s s' r
  have first := h s s' r
  rw [run_bind, run_bind]
  cases e : walk.run s with
  | mk result s1 =>
    cases e' : walk'.run s' with
    | mk result' s1' =>
      rw [e, e'] at first
      dsimp only at first ⊢
      rcases first with ⟨rfl, left⟩ | ⟨x, stop, rfl⟩
      · cases result' with
        | ok a => exact h' a s1 s1' left
        | error stop => exact .inl ⟨rfl, left⟩
      · exact .inr ⟨x, stop, rfl⟩

/-- A walk over a list follows another one if its steps do. -/
lemma Follows.mapM {step step' : α → Walk σ ε β} {as : List α}
    (h : ∀ a ∈ as, (step a).Follows S X (step' a)) :
    (as.mapM step).Follows S X (as.mapM step') := by
  induction as with
  | nil => exact follows_pure
  | cons a as ih =>
    rw [List.mapM_cons, List.mapM_cons]
    apply (h a List.mem_cons_self).bind
    intro b
    apply (ih fun a m => h a (List.mem_cons_of_mem _ m)).bind
    intro bs
    exact follows_pure

/-- Walks one after the other follow themselves, unless the state that is left at last excuses them:
what excuses a walk that stopped is kept by those that come after it. -/
lemma Follows.runEach {I : σ → Prop} {E : σ → σ → Prop} {Q : WalkStop ε → Prop}
    {walks : List (Walk σ ε α)} (h : ∀ walk ∈ walks, walk.Follows S X walk)
    (each : ∀ walk ∈ walks, walk.BehavesFrom I E Q) (refl : ∀ s, E s s)
    (trans : ∀ s t u, E s t → E t u → E s u) (keep : ∀ s t, I s → E s t → I t)
    (stay : ∀ s t, I s → E s t → X s → X t) {s s' : σ} (i : I s) (r : S s s')
    (n : ¬ X (Walk.runEach walks s).2) :
    (Walk.runEach walks s').1 = (Walk.runEach walks s).1 ∧
      S (Walk.runEach walks s).2 (Walk.runEach walks s').2 := by
  induction walks generalizing s s' with
  | nil => exact ⟨rfl, r⟩
  | cons walk walks ih =>
    have others : ∀ walk ∈ walks, walk.BehavesFrom I E Q :=
      fun walk m => each walk (List.mem_cons_of_mem _ m)
    have i' : I (walk.run s).2 := keep _ _ i (each walk List.mem_cons_self s i).1
    rcases h walk List.mem_cons_self s s' r with ⟨same, left⟩ | ⟨x, -⟩
    · obtain ⟨results, last⟩ :=
        ih (fun walk m => h walk (List.mem_cons_of_mem _ m)) others i' left n
      exact ⟨congrArg₂ List.cons same results, last⟩
    · have rest := (BehavesFrom.runEach refl trans keep others i').1
      exact absurd (stay _ _ i' rest x) n

end Walk

end TypeSchema
