import TypeSchema.Walk.Limits

/-!
# Depth counters

A counter bounds the depth of a walk that may meet the same place again, such as a walk over syntax.
-/

namespace TypeSchema

/-- The depth of a walk and its bound. -/
structure DepthCounter where
  maxDepth : UInt32
  depth : Nat := 0
deriving DecidableEq, Repr

namespace DepthCounter

/-- A counter at depth zero. -/
def new (maxDepth : UInt32) : DepthCounter := { maxDepth }

/-- One level further down, unless the limit is reached. -/
def enter? (counter : DepthCounter) : Option DepthCounter :=
  if counter.maxDepth.toNat ≤ counter.depth then none
  else some { counter with depth := counter.depth + 1 }

/-- One level up, unless the depth is zero. -/
def leave (counter : DepthCounter) : Except WalkMisuse DepthCounter :=
  if counter.depth = 0 then .error .leftAtZero
  else .ok { counter with depth := counter.depth - 1 }

/-- Gives the counter up, unless its depth is above zero. -/
def close (counter : DepthCounter) : Except WalkMisuse Unit :=
  if counter.depth = 0 then .ok () else .error (.endedAtDepth counter.depth)

end DepthCounter

end TypeSchema
