/-!
# Binary64 numbers

The numbers of number literals: IEEE 754 binary64 data, kept as their 64 bits so that equality of
the structure is equality of bits and every operation is exact arithmetic on natural numbers. A
finite datum is a whole number of units of `2 ^ (-1074)`, the least subnormal (`units`); rounding a
ratio to the nearest datum (`ofRatio`) needs no other representation.
-/

namespace TypeSchema

/-- A binary64 datum, given by its bits: sign, eleven exponent bits, fifty-two fraction bits. -/
structure Binary64 where
  bits : UInt64
deriving DecidableEq, Inhabited

namespace Binary64

/-- The sign bit. -/
def isNegative (x : Binary64) : Bool := decide (Nat.pow 2 63 ≤ x.bits.toNat)

/-- The exponent field, between `0` (subnormal) and `2047` (infinity and NaN). -/
def exponentField (x : Binary64) : Nat := x.bits.toNat / Nat.pow 2 52 % Nat.pow 2 11

/-- The fraction field. -/
def fraction (x : Binary64) : Nat := x.bits.toNat % Nat.pow 2 52

/-- Neither an infinity nor a NaN. -/
def isFinite (x : Binary64) : Bool := x.exponentField != 2047

/-- Not a number. -/
def isNaN (x : Binary64) : Bool := x.exponentField == 2047 && x.fraction != 0

/-- One of the two infinities. -/
def isInfinite (x : Binary64) : Bool := x.exponentField == 2047 && x.fraction == 0

/-- Positive or negative zero. -/
def isZero (x : Binary64) : Bool := x.exponentField == 0 && x.fraction == 0

/-- The number of significant units: the fraction with the hidden bit of a normal datum. -/
def mantissa (x : Binary64) : Nat :=
  if x.exponentField = 0 then x.fraction else Nat.pow 2 52 + x.fraction

/-- The distance to the next datum away from zero, in units of `2 ^ (-1074)`. -/
def spacing (x : Binary64) : Nat := Nat.pow 2 (x.exponentField - 1)

/-- The magnitude of a finite datum, in units of `2 ^ (-1074)`. -/
def units (x : Binary64) : Nat := x.mantissa * x.spacing

/-- The number of units in one. -/
def unitsPerOne : Nat := Nat.pow 2 1074

/-- Numeric equality: a NaN equals nothing and the two zeros are equal. -/
def same (x y : Binary64) : Bool :=
  !x.isNaN && !y.isNaN && (x == y || (x.isZero && y.isZero))

/-- The datum with the other sign. -/
def negate (x : Binary64) : Binary64 := ⟨x.bits ^^^ 0x8000000000000000⟩

/-- The positive zero. -/
def zero : Binary64 := ⟨0⟩

/-- Positive infinity. -/
def infinity : Binary64 := ⟨0x7ff0000000000000⟩

/-- The quiet NaN with an empty payload. -/
def nan : Binary64 := ⟨0x7ff8000000000000⟩

/-- `num / den` to the nearest whole number, a half going to the even neighbour. -/
def roundHalfEven (num den : Nat) : Nat :=
  let whole := num / den
  let twice := 2 * (num % den)
  if twice < den then whole
  else if den < twice then whole + 1
  else whole + whole % 2

/--
The datum nearest to the positive ratio `num / den`, a half going to the even neighbour; infinity
when the ratio is at least half a spacing above the greatest finite datum.

With `shift` chosen so that the ratio has 53 significant bits over units of `2 ^ shift`, the fields
are the sum `shift * 2 ^ 52 + rounded`: the hidden bit of `rounded` adds one to the exponent field,
and so does a carry out of the rounding.
-/
def ofRatio (num den : Nat) : Binary64 :=
  let shift := Nat.log2 (num * unitsPerOne / den) - 52
  let fields := shift * Nat.pow 2 52 + roundHalfEven (num * unitsPerOne) (den * Nat.pow 2 shift)
  if fields < 2047 * Nat.pow 2 52 then ⟨UInt64.ofNat fields⟩ else infinity

/-- The datum nearest to a natural number. -/
def ofNat (n : Nat) : Binary64 := ofRatio n 1

/-- The datum nearest to the product of two finite magnitudes. -/
def mul (x y : Binary64) : Binary64 := ofRatio (x.units * y.units) (unitsPerOne * unitsPerOne)

/-- The datum nearest to the quotient of two finite magnitudes, the second one not zero. -/
def div (x y : Binary64) : Binary64 := ofRatio x.units y.units

/-- The datum nearest to `± digits * 10 ^ exponent`. -/
def ofDecimal (negative : Bool) (digits : Nat) (exponent : Int) : Binary64 :=
  let magnitude :=
    if 0 ≤ exponent then ofRatio (digits * Nat.pow 10 exponent.toNat) 1
    else ofRatio digits (Nat.pow 10 (-exponent).toNat)
  if negative then magnitude.negate else magnitude

end Binary64

end TypeSchema
