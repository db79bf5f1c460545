import TypeSchema.Text.Class

/-!
# Identifiers

The names that stand unquoted in printed types: a letter, `_` or `$`, then letters, digits, `_` and
`$`.
-/

namespace TypeSchema.Text

/-- Whether a character may start an identifier. -/
def startsIdentifier (c : Char) : Bool := isAlphabetic c || c == '_' || c == '$'

/-- Whether a character may stand inside an identifier. -/
def continuesIdentifier (c : Char) : Bool := isAlphanumeric c || c == '_' || c == '$'

/-- Whether a name is an identifier. -/
def isIdentifier (name : String) : Bool :=
  match name.toList with
  | [] => false
  | c :: rest => startsIdentifier c && rest.all continuesIdentifier

end TypeSchema.Text
