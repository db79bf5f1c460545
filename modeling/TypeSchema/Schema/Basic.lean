import TypeSchema.Literal

/-!
# Schema nodes

A schema node describes one fragment of a data shape. Nodes form a tree; the one exception is the
`reference` node, which names another node of the same tree by its identifier. There is no optional
node: an optional member is the union of its type and `undefined`.
-/

namespace TypeSchema

/-- The names of the kinds of node. -/
inductive Kind where
  | string | number | boolean | literal | void | undefined | object | array | tuple | union
  | intersection | record | function | reference
deriving DecidableEq, Repr, Inhabited

namespace Kind

/-- Every kind, in the order in which they are listed to a reader. -/
def all : List Kind :=
  [string, number, boolean, literal, void, undefined, object, array, tuple, union, intersection,
    record, function, reference]

/-- The name of a kind. -/
def name : Kind → String
  | string => "string"
  | number => "number"
  | boolean => "boolean"
  | literal => "literal"
  | void => "void"
  | undefined => "undefined"
  | object => "object"
  | array => "array"
  | tuple => "tuple"
  | union => "union"
  | intersection => "intersection"
  | record => "record"
  | function => "function"
  | reference => "reference"

/-- The kind of a given name. -/
def ofName? (name : String) : Option Kind := all.find? (·.name == name)

/-- Whether nodes of the kind are primitive: they carry nothing of their own. -/
def isPrimitive : Kind → Bool
  | string | number | boolean | void | undefined => true
  | _ => false

end Kind

/-- The primitive types. -/
inductive Primitive where
  | string | number | boolean | void | undefined
deriving DecidableEq, Repr, Inhabited

/-- The kind of the nodes of a primitive type. -/
def Primitive.kind : Primitive → Kind
  | string => .string
  | number => .number
  | boolean => .boolean
  | void => .void
  | undefined => .undefined

/-- How the members of a composite type are joined. -/
inductive Connective where
  | union | intersection
deriving DecidableEq, Repr, Inhabited

namespace Connective

/-- The kind of the nodes of a connective. -/
def kind : Connective → Kind
  | union => .union
  | intersection => .intersection

/-- What stands between two members in a text. -/
def separator : Connective → String
  | union => " | "
  | intersection => " & "

end Connective

/-- What every node carries whatever its kind. -/
structure NodeInfo where
  /-- Documentation; it takes no part in the structure of a tree. -/
  description : Option String := none
  /-- The name under which `reference` nodes refer to this node. -/
  identifier : Option String := none
deriving DecidableEq, Repr, Inhabited

/-- Whether a node carries neither a description nor an identifier. -/
def NodeInfo.isEmpty (info : NodeInfo) : Bool :=
  info.description.isNone && info.identifier.isNone

/-- A schema node. -/
inductive Schema where
  | primitive (type : Primitive) (info : NodeInfo)
  | literal (value : Literal) (info : NodeInfo)
  /-- Named properties, in the order in which they were inserted. -/
  | object (properties : List (String × Schema)) (info : NodeInfo)
  | array (element : Schema) (info : NodeInfo)
  | tuple (elements : List Schema) (info : NodeInfo)
  | composite (connective : Connective) (members : List Schema) (info : NodeInfo)
  | record (key value : Schema) (info : NodeInfo)
  | function (arguments : List Schema) (returns : Schema) (info : NodeInfo)
  /-- A reference to the node whose identifier is `target`. -/
  | reference (target : String) (info : NodeInfo)
deriving Inhabited

namespace Schema

/-- The kind of a node. -/
def kind : Schema → Kind
  | primitive type _ => type.kind
  | literal .. => .literal
  | object .. => .object
  | array .. => .array
  | tuple .. => .tuple
  | composite connective _ _ => connective.kind
  | record .. => .record
  | function .. => .function
  | reference .. => .reference

/-- The description and identifier of a node. -/
def info : Schema → NodeInfo
  | primitive _ info | literal _ info | object _ info | array _ info | tuple _ info
  | composite _ _ info | record _ _ info | function _ _ info | reference _ info => info

/-- A node with other information and the same structure. -/
def withInfo (info : NodeInfo) : Schema → Schema
  | primitive type _ => primitive type info
  | literal value _ => literal value info
  | object properties _ => object properties info
  | array element _ => array element info
  | tuple elements _ => tuple elements info
  | composite connective members _ => composite connective members info
  | record key value _ => record key value info
  | function arguments returns _ => function arguments returns info
  | reference target _ => reference target info

/-- The description of a node. -/
def description (node : Schema) : Option String := node.info.description

/-- The identifier of a node. -/
def identifier (node : Schema) : Option String := node.info.identifier

/-- A node with its description replaced. -/
def withDescription (description : Option String) (node : Schema) : Schema :=
  node.withInfo { node.info with description }

/-- A node with its identifier replaced. -/
def withIdentifier (identifier : Option String) (node : Schema) : Schema :=
  node.withInfo { node.info with identifier }

/-- A node carries the information it is given. -/
@[simp] theorem info_withInfo (i : NodeInfo) (node : Schema) : (node.withInfo i).info = i := by
  cases node <;> rfl

/-- Of two pieces of information a node keeps the later one. -/
@[simp] theorem withInfo_withInfo (i j : NodeInfo) (node : Schema) :
    (node.withInfo j).withInfo i = node.withInfo i := by
  cases node <;> rfl

/-- A node that is given its own information stays as it is. -/
@[simp] theorem withInfo_info (node : Schema) : node.withInfo node.info = node := by
  cases node <;> rfl

/-- The kind of a node does not depend on its information. -/
@[simp] theorem kind_withInfo (i : NodeInfo) (node : Schema) :
    (node.withInfo i).kind = node.kind := by
  cases node <;> rfl

/-- The direct children of a node: properties in their order, a key before its value, arguments
before the type that is returned. -/
def children : Schema → List Schema
  | primitive .. | literal .. | reference .. => []
  | object properties _ => properties.map (·.2)
  | array element _ => [element]
  | tuple elements _ => elements
  | composite _ members _ => members
  | record key value _ => [key, value]
  | function arguments returns _ => arguments ++ [returns]

end Schema

end TypeSchema
