import TypeSchema.Walk.Limits

/-!
# Walks

A walk is a computation that may stop without a result and keeps its state when it does: what a
failed walk leaves behind is what a later one on the same state starts from.
-/

namespace TypeSchema

/-- A computation on a state that ends with a result or stops, and leaves a state in both cases. -/
def Walk (σ ε α : Type) : Type := σ → Except (WalkStop ε) α × σ

namespace Walk

variable {σ ε α β : Type}

/-- Starts a walk in a state. -/
def run (walk : Walk σ ε α) (state : σ) : Except (WalkStop ε) α × σ := walk state

instance : Monad (Walk σ ε) where
  pure result := fun state => (.ok result, state)
  bind walk next := fun state =>
    match walk state with
    | (.ok result, state) => next result state
    | (.error stop, state) => (.error stop, state)

/-- Stops for a reason. -/
def fail (reason : ε) : Walk σ ε α := fun state => (.error (.failed reason), state)

/-- A result, or the reason to stop. -/
def ofExcept : Except ε α → Walk σ ε α
  | .ok result => pure result
  | .error reason => fail reason

/-- The state. -/
def get : Walk σ ε σ := fun state => (.ok state, state)

/-- Changes the state. -/
def modify (change : σ → σ) : Walk σ ε Unit := fun state => (.ok (), change state)

/-- Runs walks one after the other, each in the state that the one before it leaves, whether that
one succeeds or stops. -/
def runEach : List (Walk σ ε α) → σ → List (Except (WalkStop ε) α) × σ
  | [], state => ([], state)
  | walk :: rest, state =>
    let (result, state) := walk.run state
    let (results, state) := runEach rest state
    (result :: results, state)

/-- A walk that is only a result leaves the state as it is. -/
theorem run_pure (result : α) (state : σ) :
    (pure result : Walk σ ε α).run state = (.ok result, state) := rfl

/-- Of two walks the second starts where the first one ends, unless that one stops. -/
theorem run_bind (walk : Walk σ ε α) (next : α → Walk σ ε β) (state : σ) :
    (walk >>= next).run state =
      match walk.run state with
      | (.ok result, state) => (next result).run state
      | (.error stop, state) => (.error stop, state) := rfl

instance : LawfulMonad (Walk σ ε) := by
  refine LawfulMonad.mk' _ ?_ ?_ ?_
  · intro α walk
    funext state
    show (match walk state with
      | (.ok result, state) => (.ok (id result), state)
      | (.error stop, state) => (.error stop, state)) = walk state
    rcases walk state with ⟨_ | _, _⟩ <;> rfl
  · intros
    rfl
  · intro α β γ walk first second
    funext state
    show (match (match walk state with
        | (.ok result, state) => first result state
        | (.error stop, state) => (.error stop, state)) with
      | (.ok result, state) => second result state
      | (.error stop, state) => (.error stop, state)) =
      match walk state with
      | (.ok result, state) =>
        (match first result state with
          | (.ok result, state) => second result state
          | (.error stop, state) => (.error stop, state))
      | (.error stop, state) => (.error stop, state)
    rcases walk state with ⟨_ | _, _⟩ <;> rfl

end Walk

end TypeSchema
