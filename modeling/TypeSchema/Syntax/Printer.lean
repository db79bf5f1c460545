import TypeSchema.Syntax.Basic
import TypeSchema.Text.Identifier
import TypeSchema.Text.Lines

/-!
# The printed form of type expressions

Object types stand one member per line, four spaces deeper than the line they start on; everything
else is printed on the line. Parentheses stand only where the expression around them would read
differently without.
-/

namespace TypeSchema

/-- Where an expression stands inside another one. -/
inductive Position where
  | top
  | arrayElement
  | member (connective : Connective)
  | optionalElement
deriving DecidableEq, Repr

/-- Whether an expression is printed in parentheses at a position: a function type everywhere but at
the top, a union where something binds tighter, and an intersection where a suffix follows. -/
def Position.needsParens (position : Position) : TypeExpr → Bool
  | .function .. => position != .top
  | .composite .union _ =>
    position == .arrayElement || position == .member .intersection || position == .optionalElement
  | .composite .intersection _ => position == .arrayElement || position == .optionalElement
  | _ => false

/-- The text of an expression at a position, given its text at the top. -/
def Position.wrap (position : Position) (type : TypeExpr) (text : String) : String :=
  if position.needsParens type then "(" ++ text ++ ")" else text

/-- The text of a literal type. A number that is not finite has no literal type; `number` is the
nearest one. -/
def Literal.typeText : Literal → String
  | .boolean value => boolText value
  | .number value => if value.isFinite then value.text else "number"
  | .string value => Text.quoted value

/-- The text of the name of a property: quoted unless it is an identifier. -/
def propertyNameText (name : String) : String :=
  if Text.isIdentifier name then name else Text.quoted name

/-- The space before a line at a level. -/
def indentation (level : Nat) : String := String.ofList (List.replicate (4 * level) ' ')

/-- One line of a comment of several lines. -/
def documentationLine (level : Nat) (line : List Char) : String :=
  if (Text.trim line).isEmpty then indentation level ++ " *\n"
  else indentation level ++ " * " ++ String.ofList (Text.trimEnd line) ++ "\n"

/-- The comment above a documented property. -/
def documentationText (level : Nat) (documentation : String) : String :=
  match Text.lines documentation.toList with
  | [] | [_] =>
    indentation level ++ "/** " ++ String.ofList (Text.trim documentation.toList) ++ " */\n"
  | lines =>
    indentation level ++ "/**\n" ++ String.join (lines.map (documentationLine level)) ++
      indentation level ++ " */\n"

/-- What follows the name of an optional member. -/
def optionalMark (isOptional : Bool) : String := if isOptional then "?" else ""

namespace TypeExpr

mutual

/-- The text of an expression whose first line is at a level. -/
def printAt (level : Nat) : TypeExpr → String
  | keyword word => word.text
  | literal value => value.typeText
  | object [] => "\x7b\x7d"
  | object members =>
    "\x7b\n" ++ printProperties (level + 1) members ++ indentation level ++ "\x7d"
  | composite connective members =>
    String.intercalate connective.separator (printMembers level (.member connective) members)
  | array element => Position.arrayElement.wrap element (element.printAt level) ++ "[]"
  | tuple members => "[" ++ String.intercalate ", " (printElements level members) ++ "]"
  | named name [] => name
  | named name arguments =>
    name ++ "<" ++ String.intercalate ", " (printMembers level .top arguments) ++ ">"
  | function parameters returns =>
    "(" ++ String.intercalate ", " (printParameters level parameters) ++ ") => " ++
      returns.printAt level

/-- The texts of expressions that stand at a position. -/
def printMembers (level : Nat) (position : Position) : List TypeExpr → List String
  | [] => []
  | type :: rest => position.wrap type (type.printAt level) :: printMembers level position rest

/-- The texts of the elements of a tuple type. -/
def printElements (level : Nat) : List (TupleMember TypeExpr) → List String
  | [] => []
  | ⟨isOptional, type⟩ :: rest =>
    (if isOptional then Position.optionalElement.wrap type (type.printAt level) ++ "?"
      else type.printAt level) :: printElements level rest

/-- The texts of the parameters of a function type. -/
def printParameters (level : Nat) : List (Parameter TypeExpr) → List String
  | [] => []
  | ⟨name, isOptional, type⟩ :: rest =>
    (name ++ optionalMark isOptional ++ ": " ++ type.printAt level) :: printParameters level rest

/-- The lines of the members of an object type. -/
def printProperties (level : Nat) : List (PropertySignature TypeExpr) → String
  | [] => ""
  | ⟨name, isOptional, type, documentation⟩ :: rest =>
    (match documentation with
      | some text => documentationText level text
      | none => "") ++
      indentation level ++ propertyNameText name ++ optionalMark isOptional ++ ": " ++
      type.printAt level ++ ";\n" ++ printProperties level rest

end

/-- The text of an expression. -/
def print (type : TypeExpr) : String := type.printAt 0

end TypeExpr

/-- The text of a declaration. -/
def Declaration.print (declaration : Declaration) : String :=
  "type " ++ declaration.name ++ " = " ++ declaration.type.print ++ ";"

/-- The text of declarations in order, each starting a line. -/
def printDeclarations (declarations : List Declaration) : String :=
  String.intercalate "\n" (declarations.map Declaration.print)

end TypeSchema
