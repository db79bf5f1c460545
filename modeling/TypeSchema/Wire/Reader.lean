import TypeSchema.Json.Reader
import TypeSchema.Wire.Node

/-!
# Reading serialized nodes

A node is read from an object of its fields, in any order, or from an array that lists them. A field
that is null counts as absent. Nothing but these fields is accepted, and none of them twice. A node
is made as soon as its text is complete, so what is wrong with it is told before anything after it.
-/

namespace TypeSchema

open Json Json.Reader

/-- The fields of a node that are read so far; a field that was null is there with no content. -/
structure WireDraft where
  kind : Option Kind := none
  type : Option (Option Literal) := none
  shape : Option (Option (List (String × Schema))) := none
  types : Option (Option (List Schema)) := none
  key : Option (Option Schema) := none
  value : Option (Option Schema) := none
  arguments : Option (Option (List Schema)) := none
  returns : Option (Option Schema) := none
  reference : Option (Option String) := none
  description : Option (Option String) := none
  identifier : Option (Option String) := none

namespace WireDraft

/-- The names of the fields of a node, in the order in which an array lists them. -/
def fieldNames : List String :=
  ["typeName", "type", "shape", "types", "key", "value", "arguments", "return", "reference",
    "description", "identifier"]

/-- How a node is named to the reader of a message. -/
def expected : String := "struct RawNode"

/-- The fields of a node of a known kind. -/
def finishAs (draft : WireDraft) (kind : Kind) : WireNode where
  kind := kind
  type := draft.type.join
  shape := draft.shape.join
  types := draft.types.join
  key := draft.key.join
  value := draft.value.join
  arguments := draft.arguments.join
  returns := draft.returns.join
  reference := draft.reference.join
  info := ⟨draft.description.join, draft.identifier.join⟩

/-- The fields of a node, of which the kind must be given. -/
def finish (draft : WireDraft) : Reader WireNode :=
  match draft.kind with
  | some kind => return draft.finishAs kind
  | none => refuse (.missingField "typeName")

end WireDraft

/-- Puts a property into a shape: in place of one of its name, or else at the end. -/
def insertProperty (name : String) (node : Schema) :
    List (String × Schema) → List (String × Schema)
  | [] => [(name, node)]
  | (name', node') :: rest =>
    if name' = name then (name', node) :: rest
    else (name', node') :: insertProperty name node rest

/-- The binary64 number that a number is taken as. -/
def Json.Numeral.toBinary64 : Numeral → Binary64
  | natural n => .ofNat n
  | negative n => (Binary64.ofNat n).negate
  | float x => x

/-- A value of any form, its parts unused. -/
def skimValue : (room : Nat) → Head → Reader Unit
  | 0, .array | 0, .object => fail .malformed
  | room + 1, .array => do
    let _ ← arrayEnd do skimValue room (← head)
  | room + 1, .object => objectEnd (fun _ _ => do colon; skimValue room (← head)) ()
  | _, _ => return

/-- A literal value, told by its form alone. -/
def literalValue (room : Nat) : Head → Reader Literal
  | .boolean value => return .boolean value
  | .number value => return .number value.toBinary64
  | .string value => return .string value
  | found => do
    skimValue room found
    refuse (.noAlternative "LiteralValue")

/-- Named nodes. -/
def shapeValue (room : Nat) (node : Head → Reader Schema) : Head → Reader (List (String × Schema))
  | .object =>
    nested room <| objectEnd (fun name shape => do
      colon
      let value ← node (← head)
      return insertProperty name value shape) []
  | found => refuse (.wrongType found "a map")

/-- A list of nodes. -/
def nodesValue (room : Nat) (node : Head → Reader Schema) : Head → Reader (List Schema)
  | .array => nested room <| arrayEnd do node (← head)
  | found => refuse (.wrongType found "a sequence")

/-- The kinds by name. -/
def namedKinds : List (String × Kind) := Kind.all.map fun kind => (kind.name, kind)

section

variable (room : Nat) (child member : Head → Reader Schema)

/-- Reads the field of the given name. A child is read where `room` containers may still be opened,
and a member of a shape or list of nodes one container deeper. -/
def readField (name : String) (draft : WireDraft) : Reader WireDraft := do
  match name with
  | "typeName" =>
    once name draft.kind; colon
    return { draft with kind := some (← alternative room namedKinds) }
  | "type" =>
    once name draft.type; colon
    return { draft with type := some (← optional (literalValue room)) }
  | "shape" =>
    once name draft.shape; colon
    return { draft with shape := some (← optional (shapeValue room member)) }
  | "types" =>
    once name draft.types; colon
    return { draft with types := some (← optional (nodesValue room member)) }
  | "key" =>
    once name draft.key; colon
    return { draft with key := some (← optional child) }
  | "value" =>
    once name draft.value; colon
    return { draft with value := some (← optional child) }
  | "arguments" =>
    once name draft.arguments; colon
    return { draft with arguments := some (← optional (nodesValue room member)) }
  | "return" =>
    once name draft.returns; colon
    return { draft with returns := some (← optional child) }
  | "reference" =>
    once name draft.reference; colon
    return { draft with reference := some (← optional string) }
  | "description" =>
    once name draft.description; colon
    return { draft with description := some (← optional string) }
  | "identifier" =>
    once name draft.identifier; colon
    return { draft with identifier := some (← optional string) }
  | _ => refuse (.unknownField name WireDraft.fieldNames)

/-- The next field of an array, if the array has one. -/
def nextField {α : Type} (value : Head → Reader α) : Reader (Option (Option α)) := do
  if ← hasElement false then return some (← optional value) else return none

/-- A node whose fields are listed, after the opening bracket. -/
def listedNode : Reader WireNode := do
  if ← hasElement true then do
    let kind ← alternative room namedKinds
    let type ← nextField (literalValue room)
    let shape ← nextField (shapeValue room member)
    let types ← nextField (nodesValue room member)
    let key ← nextField child
    let value ← nextField child
    let arguments ← nextField (nodesValue room member)
    let returns ← nextField child
    let reference ← nextField string
    let description ← nextField string
    let identifier ← nextField string
    closeArray
    WireDraft.finish ⟨some kind, type, shape, types, key, value, arguments, returns, reference,
      description, identifier⟩
  else refuse (.wrongLength 0 (WireDraft.expected ++ " with 11 elements"))

/-- The fields of a node inside which `room` containers may still be opened. -/
def openNode : Head → Reader WireNode
  | .array => listedNode room child member
  | .object => do (← objectEnd (readField room child member) {}).finish
  | found => refuse (.wrongType found WireDraft.expected)

end

/-- The node of the fields that are read. -/
def madeNode (fields : Head → Reader WireNode) (found : Head) : Reader Schema := do
  match (← fields found).toSchema with
  | .ok node => return node
  | .error error => refuse (.invalid error.message)

/-- The fields of a node where `room` containers may still be opened, its own included. -/
def wireNode : (room : Nat) → Head → Reader WireNode
  | 0 => fun found =>
    match found with
    | .array | .object => fail .malformed
    | _ => refuse (.wrongType found WireDraft.expected)
  | 1 => openNode 0 (madeNode (wireNode 0)) (madeNode (wireNode 0))
  | room + 2 => openNode (room + 1) (madeNode (wireNode (room + 1))) (madeNode (wireNode room))

/-- A member is read with one room less than a child, if there is one. -/
theorem wireNode_succ (room : Nat) : wireNode (room + 1) =
    openNode room (madeNode (wireNode room)) (madeNode (wireNode (room - 1))) := by
  cases room <;> rfl

/-- Why a text is not a serialized node. -/
inductive DecodeError where
  /-- The text is refused while it is read. -/
  | unreadable (fault : Fault)
  /-- The text is the fields of a node that cannot be made of them. -/
  | construction (error : ConstructionError)
deriving DecidableEq

/-- The fields of the node at the front of a text, and what follows them. -/
def WireNode.ofFront (text : String) : Except Fault (WireNode × List Char) :=
  StateT.run (do wireNode Reader.maxDepth (← head)) text.toList

/-- Why a text is refused whose outermost node cannot be made of its fields. Where more text
follows, it is a fault of form like that of any other node. -/
def DecodeError.ofConstruction (error : ConstructionError) (rest : List Char) : DecodeError :=
  if rest.all isBlank then construction error else unreadable (.data (.invalid error.message))

/-- The node that a text is the serialized form of. A node that cannot be made of its fields is told
before what follows it. -/
def Schema.ofText (text : String) : Except DecodeError Schema :=
  match WireNode.ofFront text with
  | .error fault => .error (.unreadable fault)
  | .ok (fields, rest) =>
    match fields.toSchema with
    | .error error => .error (.ofConstruction error rest)
    | .ok node => if rest.all isBlank then .ok node else .error (.unreadable .malformed)

end TypeSchema
