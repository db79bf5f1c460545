/-!
# Limits of recursive walks

Every walk over types, nodes or syntax is bounded in depth, and the walk over a type graph in its
total work too. A walk that leaves a place it never entered, or that ends inside one, is misused;
misuse is an answer here, so that it can be stated that no walk of the library causes any.
-/

namespace TypeSchema

/-- The bounds of one walk. -/
structure WalkLimits where
  /-- The greatest number of places that may be open at once. -/
  maxDepth : UInt32
  /-- The greatest number of places that may be entered, or tried, in all. -/
  maxIterations : UInt32
deriving DecidableEq, Repr, Inhabited

/-- The bounds a walk is given, by its purpose. -/
inductive WalkProfile where
  | importing
  | exporting
  | lowering
  | custom (limits : WalkLimits)
deriving DecidableEq, Repr

/-- The bounds of a profile. -/
def WalkProfile.limits : WalkProfile → WalkLimits
  | importing | exporting | lowering => ⟨500, 100000⟩
  | custom limits => limits

/-- A use of a guard or counter that no sound walk makes. -/
inductive WalkMisuse where
  /-- A key was left that is not entered. -/
  | leftUnentered
  /-- A guard was given up while keys were entered. -/
  | endedWithin (entered : Nat)
  /-- A counter was decreased at depth zero. -/
  | leftAtZero
  /-- A counter was given up at a depth above zero. -/
  | endedAtDepth (depth : Nat)
deriving DecidableEq, Repr

/-- The wording of a misuse. -/
def WalkMisuse.message : WalkMisuse → String
  | leftUnentered =>
    "RecursionGuard::leave() called with a key that is not in the visiting set. " ++
      "This indicates a double-leave or a leave without a matching enter()."
  | endedWithin entered =>
    "RecursionGuard dropped with " ++ toString entered ++
      " active entries still in the visiting set. " ++
      "This indicates leaked enter() calls without matching leave() calls."
  | leftAtZero =>
    "DepthCounter::leave() called at depth 0. " ++
      "This indicates a leave without a matching enter()."
  | endedAtDepth depth =>
    "DepthCounter dropped with depth " ++ toString depth ++
      ". This indicates leaked enter() calls without matching leave() calls."

/-- Why a walk ended without a result: for a reason of its own, or because it was misused. -/
inductive WalkStop (ε : Type) where
  | failed (reason : ε)
  | misused (misuse : WalkMisuse)
deriving DecidableEq, Repr

end TypeSchema
