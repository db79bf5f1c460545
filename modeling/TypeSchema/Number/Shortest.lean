import TypeSchema.Number.Binary64

/-!
# Shortest decimals

The decimal of a finite binary64 number is taken from the coarsest decimal grid that has a point
among the reals which round to the number. Such a point has the fewest digits of all decimals that
read back, and of two points on that grid the nearer one is taken.
-/

namespace TypeSchema

/-- A decimal `digits * 10 ^ exponent`. -/
structure Decimal where
  digits : Nat
  exponent : Int
deriving DecidableEq, Repr, Inhabited

/-- Which of two decimals at the same distance from a number is written. -/
inductive Tie where
  | upper
  | even
deriving DecidableEq, Repr

namespace Binary64

/-- Quarters of a unit in one; the ends of every rounding interval are whole numbers of quarters. -/
def quartersPerOne : Nat := 4 * unitsPerOne

/-- The lower end of the reals that round to the magnitude of `x`, in quarter units.

Below a power of two the neighbour is only half a spacing away. -/
def lowerEnd (x : Binary64) : Nat :=
  if x.fraction = 0 ∧ 1 < x.exponentField then 4 * x.units - x.spacing
  else 4 * x.units - 2 * x.spacing

/-- The upper end of the reals that round to the magnitude of `x`, in quarter units. -/
def upperEnd (x : Binary64) : Nat := 4 * x.units + 2 * x.spacing

/-- Whether the positive ratio `num / den` rounds to the magnitude of `x`.

The ends belong to the interval when the mantissa is even. -/
def roundsFrom (x : Binary64) (num den : Nat) : Bool :=
  let point := num * quartersPerOne
  if x.mantissa % 2 = 0 then
    decide (x.lowerEnd * den ≤ point) && decide (point ≤ x.upperEnd * den)
  else
    decide (x.lowerEnd * den < point) && decide (point < x.upperEnd * den)

/-- The ratio of one step of the grid of multiples of `10 ^ exponent`. -/
def gridStep (exponent : Int) : Nat × Nat :=
  if 0 ≤ exponent then (Nat.pow 10 exponent.toNat, 1) else (1, Nat.pow 10 (-exponent).toNat)

/--
The point of the grid `10 ^ exponent` that is written for `x`, if one rounds to `x`: the nearer of
the two neighbours of `x` on that grid that do.
-/
def gridPoint? (tie : Tie) (x : Binary64) (exponent : Int) : Option Nat :=
  let (num, den) := gridStep exponent
  let value := x.units * den
  let step := num * unitsPerOne
  let below := value / step
  match x.roundsFrom (below * num) den, x.roundsFrom ((below + 1) * num) den with
  | true, true =>
    let twice := 2 * (value % step)
    if twice < step then some below
    else if step < twice then some (below + 1)
    else match tie with
      | .upper => some (below + 1)
      | .even => some (below + below % 2)
  | true, false => some below
  | false, true => some (below + 1)
  | false, false => none

/-- The first grid with a hit, from the grid of `10 ^ exponent` downwards. -/
def coarsestPoint (tie : Tie) (x : Binary64) : Nat → Int → Decimal
  | 0, exponent => ⟨x.units, exponent⟩
  | grids + 1, exponent =>
    match x.gridPoint? tie exponent with
    | some digits => ⟨digits, exponent⟩
    | none => coarsestPoint tie x grids (exponent - 1)

/--
The shortest decimal that reads back as the finite positive magnitude of `x`.

No finite number reaches `10 ^ 309`, and each one lies on the grid of `10 ^ (-1074)`, so the search
over these grids has a hit.
-/
def shortest (tie : Tie) (x : Binary64) : Decimal := x.coarsestPoint tie 1384 309

end Binary64

end TypeSchema
