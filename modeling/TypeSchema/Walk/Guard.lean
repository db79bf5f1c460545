import TypeSchema.Walk.Limits

/-!
# Walk guards

A guard keeps the keys a walk is inside of, and answers whether it may go further. It refuses, in
this order, once the number of attempts is spent, when the key is already entered, and when the
depth limit is reached.
-/

namespace TypeSchema

/-- The guard's answer to an attempt to enter a key. -/
inductive GuardAnswer where
  /-- The key is now entered. -/
  | entered
  /-- The key was entered already. -/
  | cycle
  /-- As many keys are entered as the depth limit allows. -/
  | depthExceeded
  /-- The number of attempts is spent. -/
  | iterationExceeded
deriving DecidableEq, Repr

/-- The keys that a walk is inside of, its depth and the attempts it has made. -/
structure WalkGuard (κ : Type) where
  limits : WalkLimits
  /-- The keys that are entered, the latest first. -/
  visiting : List κ := []
  /-- The number of keys that are entered. -/
  depth : Nat := 0
  /-- The number of attempts to enter so far; it stays at the greatest 32-bit number. -/
  iterations : Nat := 0

namespace WalkGuard

variable {κ : Type} [DecidableEq κ]

/-- A guard with no key entered. -/
def new (limits : WalkLimits) : WalkGuard κ := { limits }

/-- The number of attempts after one more. -/
def nextIteration (guard : WalkGuard κ) : Nat := min (guard.iterations + 1) (UInt32.size - 1)

/-- Tries to enter a key. Whatever the answer, the attempt is counted; nothing else changes unless
the key is entered. -/
def enter (guard : WalkGuard κ) (key : κ) : GuardAnswer × WalkGuard κ :=
  let counted := { guard with iterations := guard.nextIteration }
  if guard.limits.maxIterations.toNat < counted.iterations then (.iterationExceeded, counted)
  else if key ∈ guard.visiting then (.cycle, counted)
  else if guard.limits.maxDepth.toNat ≤ guard.depth then (.depthExceeded, counted)
  else
    (.entered, { counted with visiting := key :: guard.visiting, depth := guard.depth + 1 })

/-- Leaves a key, unless it is not entered. -/
def leave (guard : WalkGuard κ) (key : κ) : Except WalkMisuse (WalkGuard κ) :=
  if key ∈ guard.visiting then
    .ok { guard with visiting := guard.visiting.erase key, depth := guard.depth - 1 }
  else .error .leftUnentered

/-- Gives the guard up, unless a key is still entered. -/
def close (guard : WalkGuard κ) : Except WalkMisuse Unit :=
  if guard.visiting.isEmpty then .ok () else .error (.endedWithin guard.visiting.length)

end WalkGuard

end TypeSchema
