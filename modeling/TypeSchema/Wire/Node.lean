import TypeSchema.Schema.Construction

/-!
# The fields of a serialized node

A serialized node is a record of its kind, of the fields its kind puts its payload into, and of its
description and identifier. `ofSchema` gives the record of a node; `toSchema` makes a node of a
record and refuses every payload field that does not belong to the kind. Primitive nodes echo their
kind in the field `type`, and may leave the echo out.
-/

namespace TypeSchema

/-- A serialized node field by field, its children already made. -/
structure WireNode where
  kind : Kind
  type : Option Literal := none
  shape : Option (List (String × Schema)) := none
  types : Option (List Schema) := none
  key : Option Schema := none
  value : Option Schema := none
  arguments : Option (List Schema) := none
  returns : Option Schema := none
  reference : Option String := none
  info : NodeInfo := {}

/-- The payload fields that nodes of a kind may have. -/
def Kind.payloadFields : Kind → List PayloadField
  | string | number | boolean | void | undefined | literal => [.type]
  | object => [.shape]
  | array | tuple | union | intersection => [.types]
  | record => [.key, .value]
  | function => [.arguments, .returns]
  | reference => [.reference]

namespace WireNode

/-- Whether a payload field is present. -/
def hasField (node : WireNode) : PayloadField → Bool
  | .type => node.type.isSome
  | .shape => node.shape.isSome
  | .types => node.types.isSome
  | .key => node.key.isSome
  | .value => node.value.isSome
  | .arguments => node.arguments.isSome
  | .returns => node.returns.isSome
  | .reference => node.reference.isSome

/-- The payload fields that are present, in the order in which they are listed to a reader. -/
def presentFields (node : WireNode) : List PayloadField :=
  [.type, .shape, .types, .key, .value, .arguments, .returns, .reference].filter node.hasField

/-- The first payload field that does not belong to the kind. -/
def unexpectedField? (node : WireNode) : Option PayloadField :=
  node.presentFields.find? fun field => field ∉ node.kind.payloadFields

/-- A field that the kind requires. -/
def require {α : Type} (node : WireNode) (field : PayloadField) (content : Option α) :
    Except ConstructionError α :=
  match content with
  | some content => .ok content
  | none => .error (.missingField node.kind field)

/-- A primitive node; an echo of the kind has to be the kind. -/
def primitiveNode (node : WireNode) (type : Primitive) : Except ConstructionError Schema :=
  match node.type with
  | none => .ok (.primitive type node.info)
  | some echo =>
    if echo = .string node.kind.name then .ok (.primitive type node.info)
    else .error (.typeEchoMismatch node.kind echo)

/-- A composite node. -/
def compositeNode (node : WireNode) (connective : Connective) :
    Except ConstructionError Schema := do
  let members ← node.require .types node.types
  let composite ← Schema.compositeOf connective members
  return composite.withInfo node.info

/-- An array node; its list of types holds the element alone. -/
def arrayNode (node : WireNode) : Except ConstructionError Schema := do
  match ← node.require .types node.types with
  | [element] => return .array element node.info
  | types => throw (.arrayArity types.length)

/-- A reference node. -/
def referenceNode (node : WireNode) : Except ConstructionError Schema := do
  let target ← node.require .reference node.reference
  let reference ← Schema.referenceTo target
  return reference.withInfo node.info

/-- The node made from the fields that belong to its kind. -/
def payloadNode (node : WireNode) : Except ConstructionError Schema :=
  match node.kind with
  | .string => node.primitiveNode .string
  | .number => node.primitiveNode .number
  | .boolean => node.primitiveNode .boolean
  | .void => node.primitiveNode .void
  | .undefined => node.primitiveNode .undefined
  | .literal => do return .literal (← node.require .type node.type) node.info
  | .object => do return .object (← node.require .shape node.shape) node.info
  | .array => node.arrayNode
  | .tuple => do return .tuple (← node.require .types node.types) node.info
  | .union => node.compositeNode .union
  | .intersection => node.compositeNode .intersection
  | .record => do
    let key ← node.require .key node.key
    let value ← node.require .value node.value
    return .record key value node.info
  | .function => do
    let arguments ← node.require .arguments node.arguments
    let returns ← node.require .returns node.returns
    return .function arguments returns node.info
  | .reference => node.referenceNode

/-- The node of a record of fields. -/
def toSchema (node : WireNode) : Except ConstructionError Schema :=
  match node.unexpectedField? with
  | some field => .error (.unexpectedField node.kind field)
  | none => node.payloadNode

/-- The record of fields of a node. -/
def ofSchema (node : Schema) : WireNode :=
  let bare : WireNode := { kind := node.kind, info := node.info }
  match node with
  | .primitive type _ => { bare with type := some (.string type.kind.name) }
  | .literal value _ => { bare with type := some value }
  | .object properties _ => { bare with shape := some properties }
  | .array element _ => { bare with types := some [element] }
  | .tuple elements _ => { bare with types := some elements }
  | .composite _ members _ => { bare with types := some members }
  | .record key value _ => { bare with key := some key, value := some value }
  | .function arguments returns _ =>
    { bare with arguments := some arguments, returns := some returns }
  | .reference target _ => { bare with reference := some target }

end WireNode

end TypeSchema
