import TypeSchema.Schema.Optional

/-!
# Compact text of a schema tree

The text of a tree on one line, for diagnostics. It resembles type syntax but is not meant to be
read back: identifiers are left out and names stand as they are.
-/

namespace TypeSchema.Schema

/-- Whether a member of a composite type is written in parentheses. -/
def isGrouped : Schema → Bool
  | composite .. | function .. => true
  | _ => false

mutual

/-- The text of a node. -/
def display : Schema → String
  | primitive type _ => type.kind.name
  | literal value _ => value.text
  | object [] _ => "\x7b\x7d"
  | object properties _ =>
    "\x7b " ++ String.intercalate ", " (displayProperties properties) ++ " \x7d"
  | array element _ => "Array<" ++ element.display ++ ">"
  | tuple elements _ => "[" ++ String.intercalate ", " (displayList elements) ++ "]"
  | composite connective members _ =>
    String.intercalate connective.separator (displayMembers members)
  | record key value _ => "Record<" ++ key.display ++ ", " ++ value.display ++ ">"
  | function arguments returns _ =>
    "(" ++ String.intercalate ", " (displayList arguments) ++ ") => " ++ returns.display
  | reference target _ => target

/-- The texts of a list of nodes. -/
def displayList : List Schema → List String
  | [] => []
  | node :: rest => node.display :: displayList rest

/-- The texts of the members of a composite type. -/
def displayMembers : List Schema → List String
  | [] => []
  | node :: rest =>
    (if node.isGrouped then "(" ++ node.display ++ ")" else node.display) :: displayMembers rest

/-- The texts of properties; an optional one has a question mark and the text of its type. -/
def displayProperties : List (String × Schema) → List String
  | [] => []
  | (name, composite .union [type, primitive .undefined _] _) :: rest =>
    (name ++ "?: " ++ type.display) :: displayProperties rest
  | (name, node) :: rest => (name ++ ": " ++ node.display) :: displayProperties rest

end

end TypeSchema.Schema
