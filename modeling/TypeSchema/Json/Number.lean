import TypeSchema.Json.Fault

/-!
# Reading numbers

The digits of a number are gathered in a 64-bit significand; digits that no longer fit are dropped,
and those before the decimal point are counted in the exponent. A number without fraction, exponent
and dropped digits is an integer. Any other is the significand, rounded, times or divided by a
rounded power of ten, so it may differ from the nearest binary64 number in the last place.
-/

namespace TypeSchema.Json

/-- The greatest significand. -/
def maxSignificand : Nat := UInt64.size - 1

/-- The value of a decimal digit. -/
def digitValue (c : Char) : Nat := c.toNat - '0'.toNat

/-- Adds digits to a significand while it fits, and counts those that are left. -/
def gather (significand : Nat) : List Char → Nat × Nat
  | [] => (significand, 0)
  | c :: rest =>
    let next := 10 * significand + digitValue c
    if next ≤ maxSignificand then gather next rest else (significand, rest.length + 1)

/-- The binary64 number nearest to a power of ten. -/
def powerOfTen (exponent : Nat) : Binary64 := .ofNat (Nat.pow 10 exponent)

/-- The greatest power of ten that is used as a factor or divisor. -/
def maxPower : Nat := 308

/-- Divides by the greatest power of ten as many times as given. -/
def divideRepeatedly : Nat → Binary64 → Binary64
  | 0, x => x
  | times + 1, x => divideRepeatedly times (x.div (powerOfTen maxPower))

/-- `significand * 10 ^ exponent`, unless it is too great. Three divisions by the greatest power
take every significand to zero. -/
def scale? (significand : Nat) (exponent : Int) : Option Binary64 :=
  let x := Binary64.ofNat significand
  let power := exponent.natAbs
  if 0 ≤ exponent then
    if power ≤ maxPower then
      let product := x.mul (powerOfTen power)
      if product.isInfinite then none else some product
    else if x.isZero then some x else none
  else
    let times := (power - 1) / maxPower
    some ((divideRepeatedly (min times 3) x).div (powerOfTen (power - maxPower * times)))

/-- A floating point number of the given parts. -/
def floatOf (negative : Bool) (significand : Nat) (exponent : Int) : Except Fault Numeral :=
  match scale? significand exponent with
  | some x => .ok (.float (if negative then x.negate else x))
  | none => .error .malformed

/-- An integer; negative zero and what does not fit 64 bits are floating point numbers. -/
def integerOf (negative : Bool) (significand : Nat) : Numeral :=
  if negative then
    if 1 ≤ significand ∧ significand ≤ Nat.pow 2 63 then .negative significand
    else .float (Binary64.ofNat significand).negate
  else .natural significand

/-- The longest run of digits at the front of a text, and what follows it. -/
def spanDigits (text : List Char) : List Char × List Char :=
  (text.takeWhile Char.isDigit, text.dropWhile Char.isDigit)

/-- The digits at the front of a text, of which there must be one. -/
def someDigits (text : List Char) : Except Fault (List Char × List Char) :=
  match spanDigits text with
  | ([], []) => .error .endOfText
  | ([], _) => .error .malformed
  | result => .ok result

/-- The exponent part after its letter. -/
def exponentPart (text : List Char) : Except Fault (Int × List Char) :=
  let signed (sign : Int) (text : List Char) :=
    (someDigits text).map fun (digits, rest) =>
      (sign * (digits.foldl (fun n c => 10 * n + digitValue c) 0 : Nat), rest)
  match text with
  | '+' :: rest => signed 1 rest
  | '-' :: rest => signed (-1) rest
  | _ => signed 1 text

/-- What may follow the digits of a floating point number: an exponent part. -/
def floatEnd (negative : Bool) (significand : Nat) (exponent : Int) (text : List Char) :
    Except Fault (Numeral × List Char) := do
  let (power, rest) ← match text with
    | 'e' :: rest | 'E' :: rest => exponentPart rest
    | _ => pure (0, text)
  let value ← floatOf negative significand (exponent + power)
  return (value, rest)

/-- What may follow the integer digits of a number: a fraction, an exponent part or nothing. -/
def numeralEnd (negative : Bool) (significand dropped : Nat) (text : List Char) :
    Except Fault (Numeral × List Char) :=
  match text with
  | '.' :: rest => do
    let (digits, rest) ← someDigits rest
    let (significand, unused) := gather significand digits
    floatEnd negative significand (dropped - (digits.length - unused : Nat)) rest
  | 'e' :: _ | 'E' :: _ => floatEnd negative significand dropped text
  | _ =>
    if dropped = 0 then .ok (integerOf negative significand, text)
    else floatEnd negative significand dropped text

/-- The number at the front of a text, after its sign. A zero is not followed by a digit. -/
def numeralAfterSign (negative : Bool) (text : List Char) : Except Fault (Numeral × List Char) := do
  let (digits, rest) ← someDigits text
  if digits.head? = some '0' ∧ 1 < digits.length then .error .malformed
  else
    let (significand, dropped) := gather 0 digits
    numeralEnd negative significand dropped rest

end TypeSchema.Json
