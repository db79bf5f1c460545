import TypeSchema.Schema.Construction

/-!
# Writing serialized nodes

A node is written as a compact JSON object: its kind, its payload fields in a fixed order, then its
description and its identifier if it has them.
-/

namespace TypeSchema.Schema

/-- The fields of the description and the identifier, each with the comma before it. -/
def infoText (info : NodeInfo) : String :=
  (match info.description with
    | some text => ",\"description\":" ++ Text.quoted text
    | none => "") ++
  (match info.identifier with
    | some text => ",\"identifier\":" ++ Text.quoted text
    | none => "")

/-- The name of a payload field, as the key of a member. -/
def payloadKey (field : PayloadField) : String := Text.quoted field.name ++ ":"

/-- A serialized node, given the text of its payload fields. -/
def nodeText (kind : Kind) (payload : String) (info : NodeInfo) : String :=
  "\x7b\"typeName\":" ++ Text.quoted kind.name ++ "," ++ payload ++ infoText info ++ "\x7d"

/-- A list of texts as a JSON array. -/
def arrayText (items : List String) : String := "[" ++ String.intercalate "," items ++ "]"

/-- A list of texts as a JSON object. -/
def objectText (items : List String) : String := "\x7b" ++ String.intercalate "," items ++ "\x7d"

mutual

/-- The serialized form of a node. -/
def wireText : Schema → String
  | primitive type info =>
    nodeText type.kind (payloadKey .type ++ Text.quoted type.kind.name) info
  | literal value info => nodeText .literal (payloadKey .type ++ value.wireText) info
  | object properties info =>
    nodeText .object (payloadKey .shape ++ objectText (wireProperties properties)) info
  | array element info => nodeText .array (payloadKey .types ++ arrayText [element.wireText]) info
  | tuple elements info => nodeText .tuple (payloadKey .types ++ arrayText (wireList elements)) info
  | composite connective members info =>
    nodeText connective.kind (payloadKey .types ++ arrayText (wireList members)) info
  | record key value info =>
    nodeText .record
      (payloadKey .key ++ key.wireText ++ "," ++ payloadKey .value ++ value.wireText) info
  | function arguments returns info =>
    nodeText .function
      (payloadKey .arguments ++ arrayText (wireList arguments) ++ "," ++
        payloadKey .returns ++ returns.wireText) info
  | reference target info => nodeText .reference (payloadKey .reference ++ Text.quoted target) info

/-- The serialized forms of a list of nodes. -/
def wireList : List Schema → List String
  | [] => []
  | node :: rest => node.wireText :: wireList rest

/-- The members of the serialized form of a shape. -/
def wireProperties : List (String × Schema) → List String
  | [] => []
  | (name, node) :: rest =>
    (Text.quoted name ++ ":" ++ node.wireText) :: wireProperties rest

end

end TypeSchema.Schema
