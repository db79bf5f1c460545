import TypeSchema.Schema.Basic

/-!
# Type expressions

The part of type syntax that schema trees are exported to and type graphs are lowered from.
Expressions own their parts and carry no positions.
-/

namespace TypeSchema

/-- The types that have a keyword. -/
inductive Keyword where
  | string | number | boolean | void | undefined | any | unknown | never | null
deriving DecidableEq, Repr, Inhabited

namespace Keyword

/-- Every keyword. -/
def all : List Keyword :=
  [string, number, boolean, void, undefined, any, unknown, never, null]

/-- The spelling of a keyword. -/
def text : Keyword → String
  | string => "string"
  | number => "number"
  | boolean => "boolean"
  | void => "void"
  | undefined => "undefined"
  | any => "any"
  | unknown => "unknown"
  | never => "never"
  | null => "null"

/-- The keyword with the given spelling. -/
def ofText? (text : String) : Option Keyword := all.find? (·.text == text)

end Keyword

/-- A property of an object type; a documented one has a comment above it. -/
structure PropertySignature (τ : Type) where
  name : String
  isOptional : Bool
  type : τ
  documentation : Option String

/-- An element of a tuple type. -/
structure TupleMember (τ : Type) where
  isOptional : Bool
  type : τ

/-- A parameter of a function type. -/
structure Parameter (τ : Type) where
  name : String
  isOptional : Bool
  type : τ

/-- A type expression. -/
inductive TypeExpr where
  | keyword (word : Keyword)
  | literal (value : Literal)
  | object (members : List (PropertySignature TypeExpr))
  | composite (connective : Connective) (members : List TypeExpr)
  | array (element : TypeExpr)
  | tuple (members : List (TupleMember TypeExpr))
  /-- A name, with type arguments if there are any. -/
  | named (name : String) (arguments : List TypeExpr)
  | function (parameters : List (Parameter TypeExpr)) (returns : TypeExpr)
deriving Inhabited

/-- The declaration of a type alias. -/
structure Declaration where
  name : String
  type : TypeExpr
deriving Inhabited

end TypeSchema
