import TypeSchema.Json.Reader

/-!
# Skipping JSON values

A value that nobody reads is only checked to be JSON: its numbers may be of any size, its escapes
need not make characters, and it may be nested to any depth.
-/

namespace TypeSchema.Json.Reader

/-- Digits, of which there must be one. -/
def skipDigits : Reader Unit := ofStep fun text =>
  match spanDigits text with
  | ([], _) => .error .malformed
  | (_, rest) => .ok ((), rest)

/-- The exponent part of a number, if there is one. -/
def skipExponent : Reader Unit := do
  match ← get with
  | 'e' :: rest | 'E' :: rest =>
    match rest with
    | '+' :: rest | '-' :: rest => do set rest; skipDigits
    | _ => do set rest; skipDigits
  | _ => return

/-- The fraction of a number, if there is one. -/
def skipFraction : Reader Unit := do
  match ← get with
  | '.' :: rest => do set rest; skipDigits
  | _ => return

/-- A number after its sign. -/
def skipNumber : Reader Unit := do
  match ← get with
  | '0' :: c :: _ => if c.isDigit then fail .malformed
  | _ => pure ()
  skipDigits
  skipFraction
  skipExponent

/-- A string after its opening quote. -/
def skipString : Reader Unit := ofStep fun text =>
  (stringEnd unusedEscape (text.length + 1) text).map fun (_, rest) => ((), rest)

/-- The members of an object that nobody reads. -/
def skipMembers (value : Reader Unit) : (count : Nat) → (isFirst : Bool) → Reader Unit
  | 0, _ => fail .malformed
  | count + 1, isFirst => do
    if ← hasMember isFirst then do
      skip
      skipString
      colon
      value
      skipMembers value count false

/-- A value, nested less deeply than given. -/
def skipValue : (depth : Nat) → Reader Unit
  | 0 => fail .malformed
  | depth + 1 => do
    match ← peek with
    | none => fail .endOfText
    | some c =>
      if c = 'n' then word "null".toList
      else if c = 't' then word "true".toList
      else if c = 'f' then word "false".toList
      else if c = '-' then do skip; skipNumber
      else if c.isDigit then skipNumber
      else if c = '"' then do skip; skipString
      else if c = '[' then do
        skip
        let _ ← elements (skipValue depth) ((← get).length + 1) true
        closeArray
      else if c = '\x7b' then do
        skip
        skipMembers (skipValue depth) ((← get).length + 1) true
        closeObject
      else fail .malformed

/-- The value of a member that nobody reads, from its colon on. -/
def ignored : Reader Unit := do
  colon
  skipValue ((← get).length + 1)

end TypeSchema.Json.Reader
