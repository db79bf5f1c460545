import TypeSchema.Literal

/-!
# Faults of JSON texts

A text is refused because it is not JSON, because it ends too early, or because it is JSON of the
wrong form. The wording belongs to the last kind alone, which tells what was found and what was
expected.
-/

namespace TypeSchema.Json

/-- A number as it is read: a natural number or its negative if it fits 64 bits, and a binary64
number otherwise. -/
inductive Numeral where
  | natural (n : Nat)
  | negative (n : Nat)
  | float (x : Binary64)
deriving DecidableEq

/-- The first token of a value: a whole scalar, or the bracket that opens a container. -/
inductive Head where
  | null
  | boolean (value : Bool)
  | number (value : Numeral)
  | string (value : String)
  | array
  | object
deriving DecidableEq

/-- How a token is named to the reader of a message. -/
def Head.description : Head → String
  | null => "null"
  | boolean value => "boolean `" ++ Literal.boolText value ++ "`"
  | number (.natural n) => "integer `" ++ toString n ++ "`"
  | number (.negative n) => "integer `-" ++ toString n ++ "`"
  | number (.float x) => "floating point `" ++ x.wireText ++ "`"
  | string value => "string " ++ Text.escaped value
  | array => "sequence"
  | object => "map"

/-- What is wrong with the form of a JSON value. -/
inductive DataFault where
  | wrongType (found : Head) (expected : String)
  | wrongValue (found : Head) (expected : String)
  | wrongLength (found : Nat) (expected : String)
  | unknownField (name : String) (known : List String)
  | unknownVariant (name : String) (known : List String)
  | missingField (name : String)
  | duplicateField (name : String)
  /-- No alternative of a type that is told by its form alone. -/
  | noAlternative (type : String)
  /-- The parts have the right form, and make no value. -/
  | invalid (reason : String)
deriving DecidableEq

/-- A list of names to choose from. -/
def choiceText (names : List String) : String :=
  match names.map fun name => "`" ++ name ++ "`" with
  | [first] => first
  | [first, second] => first ++ " or " ++ second
  | quoted => "one of " ++ String.intercalate ", " quoted

/-- The wording of a fault of form. -/
def DataFault.message : DataFault → String
  | wrongType found expected =>
    "invalid type: " ++ found.description ++ ", expected " ++ expected
  | wrongValue found expected =>
    "invalid value: " ++ found.description ++ ", expected " ++ expected
  | wrongLength found expected =>
    "invalid length " ++ toString found ++ ", expected " ++ expected
  | unknownField name known =>
    "unknown field `" ++ name ++ "`, expected " ++ choiceText known
  | unknownVariant name known =>
    "unknown variant `" ++ name ++ "`, expected " ++ choiceText known
  | missingField name => "missing field `" ++ name ++ "`"
  | duplicateField name => "duplicate field `" ++ name ++ "`"
  | noAlternative type => "data did not match any variant of untagged enum " ++ type
  | invalid reason => reason

/-- Why a text was refused. -/
inductive Fault where
  | malformed
  | endOfText
  | data (fault : DataFault)
deriving DecidableEq

/-- A reader takes what it reads from the front of a text. -/
abbrev Reader := StateT (List Char) (Except Fault)

end TypeSchema.Json
