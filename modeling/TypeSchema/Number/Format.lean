import TypeSchema.Number.Shortest

/-!
# Number formats

A number is written with the digits of its shortest decimal. A `NumberFormat` holds what the written
forms do not share: where positional writing ends, whether a whole number keeps a fraction, and the
side a tie goes to. There are two formats, the one of printed types and diagnostics (`plain`) and
the one of the serialized form (`wire`).
-/

namespace TypeSchema

/-- The decisions of a written form of numbers. -/
structure NumberFormat where
  /-- The decimal that is written when two shortest decimals are equally near. -/
  tie : Tie
  /-- The least and the greatest position of the decimal point that is written positionally,
  counted from the first digit; without bounds every number is. -/
  positional : Option (Int × Int)
  /-- Whether a whole number ends in `.0`. -/
  keepsFraction : Bool

namespace NumberFormat

/-- Printed types and diagnostics: always positional, whole numbers without a fraction. -/
def plain : NumberFormat := ⟨.upper, none, false⟩

/-- The serialized form: positional from `1e-5` up to `1e16`, whole numbers with a fraction. -/
def wire : NumberFormat := ⟨.even, some (-4, 16), true⟩

/-- Whether a number whose decimal point stands at `point` is written positionally. -/
def isPositional (format : NumberFormat) (point : Int) : Bool :=
  match format.positional with
  | none => true
  | some (least, greatest) => decide (least ≤ point) && decide (point ≤ greatest)

/-- What follows the last digit of a whole number. -/
def wholeEnd (format : NumberFormat) : List Char :=
  if format.keepsFraction then ['.', '0'] else []

/-- `digits * 10 ^ exponent` without an exponent part. -/
def positionalText (format : NumberFormat) (digits : List Char) (exponent : Int) : List Char :=
  let point := digits.length + exponent
  if 0 ≤ exponent then
    digits ++ List.replicate exponent.toNat '0' ++ format.wholeEnd
  else if 0 < point then
    digits.take point.toNat ++ '.' :: digits.drop point.toNat
  else
    '0' :: '.' :: (List.replicate (-point).toNat '0' ++ digits)

/-- `digits * 10 ^ exponent` with one digit before the point and a signed exponent part. -/
def scientificText (digits : List Char) (exponent : Int) : List Char :=
  let power := digits.length + exponent - 1
  let fraction := if digits.length = 1 then [] else '.' :: digits.drop 1
  let sign := if power < 0 then '-' else '+'
  digits.take 1 ++ fraction ++ 'e' :: sign :: Nat.toDigits 10 power.natAbs

/-- The magnitude of a finite number. -/
def magnitudeText (format : NumberFormat) (x : Binary64) : List Char :=
  if x.isZero then '0' :: format.wholeEnd
  else
    let decimal := x.shortest format.tie
    let digits := Nat.toDigits 10 decimal.digits
    if format.isPositional (digits.length + decimal.exponent) then
      format.positionalText digits decimal.exponent
    else
      scientificText digits decimal.exponent

/-- A finite number with its sign; negative zero has one too. -/
def finiteText (format : NumberFormat) (x : Binary64) : List Char :=
  if x.isNegative then '-' :: format.magnitudeText x else format.magnitudeText x

end NumberFormat

namespace Binary64

/-- The text of a number in printed types and diagnostics. -/
def text (x : Binary64) : String :=
  if x.isNaN then "NaN"
  else if x.isInfinite then (if x.isNegative then "-inf" else "inf")
  else String.ofList (NumberFormat.plain.finiteText x)

/-- The text of a number in the serialized form, which has no spelling for the others than
`null`. -/
def wireText (x : Binary64) : String :=
  if x.isFinite then String.ofList (NumberFormat.wire.finiteText x) else "null"

end Binary64

end TypeSchema
