import TypeSchema.Json.Fault

/-!
# Reading strings

A string ends at the next quote that no backslash stands before. Raw controls are refused. A
character past the first plane may be written as two escapes, a leading and a trailing surrogate;
where the text is used, either of them alone is refused.
-/

namespace TypeSchema.Json

/-- The value of a hexadecimal digit. -/
def hexValue? (c : Char) : Option Nat :=
  if c.isDigit then some (c.toNat - '0'.toNat)
  else if 'a' ≤ c ∧ c ≤ 'f' then some (c.toNat - 'a'.toNat + 10)
  else if 'A' ≤ c ∧ c ≤ 'F' then some (c.toNat - 'A'.toNat + 10)
  else none

/-- The four hexadecimal digits of an escape. Fewer than four bytes are a text that ends early. -/
def hexEscape : List Char → Except Fault (Nat × List Char)
  | a :: b :: c :: d :: rest =>
    match hexValue? a, hexValue? b, hexValue? c, hexValue? d with
    | some a, some b, some c, some d => .ok (((a * 16 + b) * 16 + c) * 16 + d, rest)
    | _, _, _, _ => .error .malformed
  | text =>
    if text.foldl (fun bytes c => bytes + c.utf8Size) 0 < 4 then .error .endOfText
    else .error .malformed

/-- Whether a code unit is a leading surrogate. -/
def isLeading (unit : Nat) : Bool := decide (0xd800 ≤ unit) && decide (unit ≤ 0xdbff)

/-- Whether a code unit is a trailing surrogate. -/
def isTrailing (unit : Nat) : Bool := decide (0xdc00 ≤ unit) && decide (unit ≤ 0xdfff)

/-- The trailing surrogate that has to follow a leading one. -/
def trailingEscape : List Char → Except Fault (Nat × List Char)
  | [] | ['\\'] => .error .endOfText
  | '\\' :: 'u' :: rest => do
    let (unit, rest) ← hexEscape rest
    if isTrailing unit then .ok (unit, rest) else .error .malformed
  | _ => .error .malformed

/-- The character of an escape by code units, after its `u`. -/
def unicodeEscape (text : List Char) : Except Fault (Char × List Char) := do
  let (unit, rest) ← hexEscape text
  if isTrailing unit then .error .malformed
  else if isLeading unit then
    let (trailing, rest) ← trailingEscape rest
    .ok (Char.ofNat (0x10000 + (unit - 0xd800) * 0x400 + (trailing - 0xdc00)), rest)
  else .ok (Char.ofNat unit, rest)

/-- The character of a short escape. -/
def shortEscape? : Char → Option Char
  | '"' => some '"'
  | '\\' => some '\\'
  | '/' => some '/'
  | 'b' => some '\x08'
  | 'f' => some '\x0c'
  | 'n' => some '\n'
  | 'r' => some '\r'
  | 't' => some '\t'
  | _ => none

/-- The character of an escape, after its backslash. -/
def escape : List Char → Except Fault (Char × List Char)
  | [] => .error .endOfText
  | 'u' :: rest => unicodeEscape rest
  | c :: rest =>
    match shortEscape? c with
    | some value => .ok (value, rest)
    | none => .error .malformed

/-- An escape of a string that is not used: its code units need not make a character. -/
def unusedEscape : List Char → Except Fault (Char × List Char)
  | 'u' :: rest => (hexEscape rest).map fun (_, rest) => ('u', rest)
  | text => escape text

/-- The characters up to the closing quote, and what follows it. Each step takes at least one
character, so the length of the text bounds their number. -/
def stringEnd (escape : List Char → Except Fault (Char × List Char)) :
    (steps : Nat) → List Char → Except Fault (List Char × List Char)
  | 0, _ => .error .endOfText
  | _ + 1, [] => .error .endOfText
  | steps + 1, c :: rest =>
    if c = '"' then .ok ([], rest)
    else if c = '\\' then do
      let (value, rest) ← escape rest
      let (text, rest) ← stringEnd escape steps rest
      return (value :: text, rest)
    else if c.toNat < 0x20 then .error .malformed
    else do
      let (text, rest) ← stringEnd escape steps rest
      return (c :: text, rest)

/-- The string after its opening quote. -/
def stringAfterQuote (text : List Char) : Except Fault (String × List Char) :=
  (stringEnd escape (text.length + 1) text).map fun (chars, rest) => (String.ofList chars, rest)

end TypeSchema.Json
