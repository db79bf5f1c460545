import TypeSchema.Proofs.Guard

/-!
# Histories of a guard

The keys of a guard may be entered and left in any order, not only one inside the other. Whatever
the order, the guard holds the keys that were entered and not left since, and its answer to the next
attempt depends on these keys and on the number of attempts alone: the attempts are spent first and
for good, then a key that is entered already is met again, then the depth limit is reached.
-/

namespace TypeSchema.WalkGuard

variable {κ : Type}

/-- A call of a guard: an attempt to enter a key, with its answer, or leaving a key. -/
inductive Event (κ : Type) where
  | attempt (key : κ) (answer : GuardAnswer)
  | exit (key : κ)
deriving DecidableEq

/-- The number of attempts among events, whatever their answers. -/
def attempts : List (Event κ) → Nat
  | [] => 0
  | .attempt .. :: events => attempts events + 1
  | .exit _ :: events => attempts events

variable [DecidableEq κ]

/-- The keys that were entered and not left since; the latest event comes first. -/
def present : List (Event κ) → List κ
  | [] => []
  | .attempt key .entered :: events => key :: present events
  | .attempt .. :: events => present events
  | .exit key :: events => (present events).erase key

/-- A new guard comes to a state by calls in any order, the latest first, if a key is left only
while it is entered. -/
inductive History (limits : WalkLimits) : List (Event κ) → WalkGuard κ → Prop
  | start : History limits [] (new limits)
  | attempt {events guard} (key : κ) :
    History limits events guard →
    History limits (.attempt key (guard.enter key).1 :: events) (guard.enter key).2
  | exit {events guard guard'} {key : κ} :
    History limits events guard →
    key ∈ present events →
    guard.leave key = .ok guard' →
    History limits (.exit key :: events) guard'

/-- The guard is in the state that the events of its history tell. -/
structure Tracks (limits : WalkLimits) (events : List (Event κ)) (guard : WalkGuard κ) : Prop where
  visiting : guard.visiting = present events
  depth : guard.depth = (present events).length
  nodup : (present events).Nodup
  room : (present events).length ≤ limits.maxDepth.toNat
  iterations : guard.iterations = min (attempts events) (UInt32.size - 1)
  spent : (∃ key, .attempt key .iterationExceeded ∈ events) →
    limits.maxIterations.toNat < guard.iterations
  limits : guard.limits = limits

variable {limits : WalkLimits} {events : List (Event κ)} {guard guard' : WalkGuard κ} {key : κ}

/-- Attempts are spent before anything else is looked at. -/
lemma enter_eq_iterationExceeded :
    (guard.enter key).1 = .iterationExceeded ↔
      guard.limits.maxIterations.toNat < guard.nextIteration := by
  unfold enter
  dsimp only
  split
  case isTrue h => exact iff_of_true rfl h
  case isFalse h =>
    refine iff_of_false ?_ h
    split
    · simp
    · split <;> simp

/-- An attempt that is refused enters no key. -/
lemma present_attempt {answer : GuardAnswer} (n : answer ≠ .entered) :
    present (.attempt key answer :: events) = present events := by
  cases answer with
  | entered => exact absurd rfl n
  | _ => rfl

namespace Tracks

/-- The next attempt is counted, up to the greatest number. -/
lemma nextIteration (t : Tracks limits events guard) :
    guard.nextIteration = min (attempts events + 1) (UInt32.size - 1) := by
  unfold WalkGuard.nextIteration
  rw [t.iterations]
  omega

/-- The count never falls, so attempts that are spent stay spent. -/
lemma le_nextIteration (t : Tracks limits events guard) :
    guard.iterations ≤ guard.nextIteration := by
  rw [t.nextIteration, t.iterations]
  omega

lemma start : Tracks limits ([] : List (Event κ)) (new limits) where
  visiting := rfl
  depth := rfl
  nodup := .nil
  room := Nat.zero_le _
  iterations := rfl
  spent := by
    rintro ⟨key, m⟩
    cases m
  limits := rfl

/-- Once an attempt has found the attempts spent, or finds them so, the count is above the limit. -/
lemma spent_attempt (t : Tracks limits events guard) (key : κ)
    (h : ∃ key', .attempt key' .iterationExceeded ∈ .attempt key (guard.enter key).1 :: events) :
    limits.maxIterations.toNat < guard.nextIteration := by
  obtain ⟨key', m⟩ := h
  rcases List.mem_cons.1 m with e | m
  · injection e with _ e
    rw [← t.limits]
    exact enter_eq_iterationExceeded.1 e.symm
  · exact Nat.lt_of_lt_of_le (t.spent ⟨key', m⟩) t.le_nextIteration

lemma attempt (t : Tracks limits events guard) (key : κ) :
    Tracks limits (.attempt key (guard.enter key).1 :: events) (guard.enter key).2 := by
  have spent := t.spent_attempt key
  cases e : guard.enter key with
  | mk answer guard' =>
    rw [e] at spent
    have count : guard'.iterations = guard.nextIteration := iterations_of_enter e
    by_cases entered : answer = .entered
    · subst entered
      obtain ⟨-, new, below, rfl⟩ := enter_eq_entered.1 e
      -- The key was not there, and there was room for one more.
      rw [t.visiting] at new
      rw [t.depth, t.limits] at below
      exact {
        visiting := congrArg (key :: ·) t.visiting
        depth := congrArg (· + 1) t.depth
        nodup := List.nodup_cons.2 ⟨new, t.nodup⟩
        room := below
        iterations := t.nextIteration
        spent := spent
        limits := t.limits }
    · have same := sameKeys_of_enter e entered
      have kept : present (.attempt key answer :: events) = present events := present_attempt entered
      exact {
        visiting := by rw [same.visiting, t.visiting, kept]
        depth := by rw [same.depth, t.depth, kept]
        nodup := by rw [kept]; exact t.nodup
        room := by rw [kept]; exact t.room
        iterations := count.trans t.nextIteration
        spent := fun h => by rw [count]; exact spent h
        limits := same.limits.trans t.limits }

lemma exit (t : Tracks limits events guard) (m : key ∈ present events)
    (l : guard.leave key = .ok guard') : Tracks limits (.exit key :: events) guard' := by
  obtain ⟨-, rfl⟩ := leave_eq_ok.1 l
  have length : (present (.exit key :: events)).length = (present events).length - 1 :=
    List.length_erase_of_mem m
  exact {
    visiting := congrArg (List.erase · key) t.visiting
    depth := by rw [length, ← t.depth]
    nodup := t.nodup.erase key
    room := by rw [length]; exact Nat.le_trans (Nat.sub_le _ _) t.room
    iterations := t.iterations
    spent := fun ⟨key', m⟩ => t.spent ⟨key', by simpa using m⟩
    limits := t.limits }

/-- A key that was entered and not left since can be left. -/
lemma exists_leave (t : Tracks limits events guard) (m : key ∈ present events) :
    ∃ guard', guard.leave key = .ok guard' := by
  rw [← t.visiting] at m
  exact ⟨_, leave_eq_ok.2 ⟨m, rfl⟩⟩

/-- A key is entered exactly if the attempts are not spent, the key is new and there is room. -/
lemma entered_iff (t : Tracks limits events guard) (key : κ) :
    (guard.enter key).1 = .entered ↔
      min (attempts events + 1) (UInt32.size - 1) ≤ limits.maxIterations.toNat ∧
        key ∉ present events ∧ guard.depth < limits.maxDepth.toNat := by
  rw [← t.nextIteration, ← t.visiting, ← t.limits]
  constructor
  · intro e
    obtain ⟨count, new, below, -⟩ := enter_eq_entered.1 (Prod.ext e rfl)
    exact ⟨count, new, below⟩
  · rintro ⟨count, new, below⟩
    rw [enter_eq_entered.2 ⟨count, new, below, rfl⟩]

/-- An attempt that enters nothing is counted, and that is all. -/
lemma state_of_refused (t : Tracks limits events guard) (n : (guard.enter key).1 ≠ .entered) :
    (guard.enter key).2 =
      { guard with iterations := min (attempts events + 1) (UInt32.size - 1) } := by
  cases e : guard.enter key with
  | mk answer guard' =>
    rw [e] at n
    obtain ⟨limits', visiting, depth⟩ := sameKeys_of_enter e n
    have count := (iterations_of_enter e).trans t.nextIteration
    cases guard'
    subst limits' visiting depth count
    rfl

/-- Attempts that were spent once are spent for good. -/
lemma iterationExceeded (t : Tracks limits events guard)
    (h : ∃ key, .attempt key .iterationExceeded ∈ events) (key : κ) :
    (guard.enter key).1 = .iterationExceeded := by
  rw [enter_eq_iterationExceeded, t.limits]
  exact Nat.lt_of_lt_of_le (t.spent h) t.le_nextIteration

end Tracks

lemma History.tracks (h : History limits events guard) : Tracks limits events guard := by
  induction h with
  | start => exact .start
  | attempt key _ ih => exact ih.attempt key
  | exit _ m l ih => exact ih.exit m l

/--
After any calls of which each one that leaves a key leaves one that is entered, the depth is the
number of keys entered and not left since, and within its limit. A key is entered next exactly if
the attempts, this one included and counted up to the greatest 32-bit number, are not spent, the key
is not entered and the depth is below its limit; an attempt with another answer only is counted;
every key that is entered can be left; and attempts that were spent once are spent for good.
-/
theorem answers_of_history (h : History limits events guard) :
    guard.depth = (present events).length ∧ (present events).Nodup ∧
      guard.depth ≤ limits.maxDepth.toNat ∧
      (∀ key, (guard.enter key).1 = .entered ↔
        min (attempts events + 1) (UInt32.size - 1) ≤ limits.maxIterations.toNat ∧
          key ∉ present events ∧ guard.depth < limits.maxDepth.toNat) ∧
      (∀ key, (guard.enter key).1 ≠ .entered → (guard.enter key).2 =
        { guard with iterations := min (attempts events + 1) (UInt32.size - 1) }) ∧
      (∀ key ∈ present events, ∃ guard', guard.leave key = .ok guard') ∧
      ((∃ key, .attempt key .iterationExceeded ∈ events) →
        ∀ key, (guard.enter key).1 = .iterationExceeded) := by
  have t := h.tracks
  refine ⟨t.depth, t.nodup, ?_, t.entered_iff, fun key => t.state_of_refused,
    fun key => t.exists_leave, t.iterationExceeded⟩
  rw [t.depth]
  exact t.room

/-- Calls that leave the first key before the second one, and that are refused for every reason. -/
def interleaved : List (Event Nat) :=
  [.attempt 1 .iterationExceeded, .attempt 4 .depthExceeded, .attempt 3 .entered,
    .attempt 2 .cycle, .exit 1, .attempt 2 .entered, .attempt 1 .entered]

/-- The guard after these calls. -/
def interleavedGuard : WalkGuard Nat := ⟨⟨2, 5⟩, [3, 2], 2, 6⟩

lemma history_interleaved : History ⟨2, 5⟩ interleaved interleavedGuard := by
  have entered : History ⟨2, 5⟩ [.attempt 2 .entered, .attempt 1 .entered]
      (⟨⟨2, 5⟩, [2, 1], 2, 2⟩ : WalkGuard Nat) := .attempt 2 (.attempt 1 .start)
  have left : History ⟨2, 5⟩ [.exit 1, .attempt 2 .entered, .attempt 1 .entered]
      (⟨⟨2, 5⟩, [2], 1, 2⟩ : WalkGuard Nat) := .exit entered (by decide) rfl
  exact .attempt 1 (.attempt 4 (.attempt 3 (.attempt 2 left)))

/-- All five attempts are spent, so no key is entered any more, and both keys can be left. -/
theorem answers_of_interleaved :
    History ⟨2, 5⟩ interleaved interleavedGuard ∧ interleavedGuard.depth = [3, 2].length ∧
      (∀ key ∈ [3, 2], ∃ guard', interleavedGuard.leave key = .ok guard') ∧
      ∀ key, (interleavedGuard.enter key).1 = .iterationExceeded := by
  obtain ⟨depth, -, -, -, -, leaves, spent⟩ := answers_of_history history_interleaved
  exact ⟨history_interleaved, depth, leaves, spent ⟨1, List.mem_cons_self⟩⟩

end TypeSchema.WalkGuard
