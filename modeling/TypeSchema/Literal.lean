import TypeSchema.Number.Format
import TypeSchema.Text.Escaped
import TypeSchema.Text.Quoted

/-!
# Literal values

The value of a literal type: a boolean, a number or a string. Decidable equality compares numbers by
their bits, which is how literal types are interned; `same` compares them as numbers, which is how
schema nodes are compared.
-/

namespace TypeSchema

/-- The value of a literal type. -/
inductive Literal where
  | boolean (value : Bool)
  | number (value : Binary64)
  | string (value : String)
deriving DecidableEq, Inhabited

namespace Literal

/-- Equality of values, numbers compared as numbers. -/
def same : Literal → Literal → Bool
  | boolean a, boolean b => a == b
  | number a, number b => a.same b
  | string a, string b => a == b
  | _, _ => false

/-- The text of a boolean. -/
def boolText (value : Bool) : String := if value then "true" else "false"

/-- The text of a value in diagnostics. -/
def text : Literal → String
  | boolean value => boolText value
  | number value => value.text
  | string value => Text.escaped value

/-- The text of a value in the serialized form. -/
def wireText : Literal → String
  | boolean value => boolText value
  | number value => value.wireText
  | string value => Text.quoted value

end Literal

end TypeSchema
