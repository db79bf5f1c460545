import TypeSchema.Names
import TypeSchema.Schema.Optional

/-!
# Construction of schema nodes

Nodes are built by one function per kind. Only structurally invalid parts are refused, and they are
refused at once: a composite of fewer than two members, a property given twice, a reference without
a target. The other causes of `ConstructionError` belong to the serialized form, where a node may
also carry fields that are not its own.
-/

namespace TypeSchema

/-- The fields of the serialized form that hold what is particular to a kind of node. -/
inductive PayloadField where
  | type | shape | types | key | value | arguments | returns | reference
deriving DecidableEq, Repr

/-- The name of a payload field. -/
def PayloadField.name : PayloadField → String
  | type => "type"
  | shape => "shape"
  | types => "types"
  | key => "key"
  | value => "value"
  | arguments => "arguments"
  | returns => "return"
  | reference => "reference"

/-- Why a node could not be built from the given parts. -/
inductive ConstructionError where
  | tooFewMembers (kind : Kind) (found : Nat)
  | duplicateProperty (name : String)
  | emptyIdentifier
  | arrayArity (found : Nat)
  | unexpectedField (kind : Kind) (field : PayloadField)
  | missingField (kind : Kind) (field : PayloadField)
  | typeEchoMismatch (kind : Kind) (found : Literal)
deriving DecidableEq

/-- The wording of a construction error. -/
def ConstructionError.message : ConstructionError → String
  | tooFewMembers kind found =>
    "`" ++ kind.name ++ "` requires at least two members, got " ++ toString found
  | duplicateProperty name => "duplicate property `" ++ name ++ "` in object shape"
  | emptyIdentifier => "identifier must not be empty"
  | arrayArity found => "array requires exactly one element type, got " ++ toString found
  | unexpectedField kind field =>
    "`" ++ kind.name ++ "` node does not accept field `" ++ field.name ++ "`"
  | missingField kind field =>
    "`" ++ kind.name ++ "` node is missing field `" ++ field.name ++ "`"
  | typeEchoMismatch kind found =>
    "`" ++ kind.name ++ "` node carries a mismatching type echo `" ++ found.text ++ "`"

namespace Schema

/-- The node of a primitive type. -/
def ofPrimitive (type : Primitive) : Schema := primitive type {}

/-- The node of a literal type. -/
def ofLiteral (value : Literal) : Schema := literal value {}

/-- An object with the given properties, in their order. -/
def ofProperties (properties : List (String × Schema)) : Except ConstructionError Schema :=
  match firstRepeated? [] (properties.map (·.1)) with
  | some name => .error (.duplicateProperty name)
  | none => .ok (object properties {})

/-- An array. -/
def arrayOf (element : Schema) : Schema := array element {}

/-- A tuple of fixed length; it may be empty. -/
def tupleOf (elements : List Schema) : Schema := tuple elements {}

/-- A union or an intersection. -/
def compositeOf (connective : Connective) (members : List Schema) :
    Except ConstructionError Schema :=
  if members.length < 2 then .error (.tooFewMembers connective.kind members.length)
  else .ok (composite connective members {})

/-- A record. -/
def recordOf (key value : Schema) : Schema := record key value {}

/-- A function. -/
def functionOf (arguments : List Schema) (returns : Schema) : Schema :=
  function arguments returns {}

/-- A reference to the node that carries `target` as its identifier. -/
def referenceTo (target : String) : Except ConstructionError Schema :=
  if target = "" then .error .emptyIdentifier else .ok (reference target {})

end Schema

/-- What a new node is given besides its structure. -/
structure BuildOptions where
  /-- Build the union of the node and `undefined`. -/
  isOptional : Bool := false
  description : Option String := none
  identifier : Option String := none
deriving DecidableEq, Repr

/-- Applies the options to a new node. The identifier stays on the node itself; the description goes
to what the member ends up being, which is the union if the node is optional. -/
def BuildOptions.apply (options : BuildOptions) (node : Schema) : Schema :=
  let named := node.withIdentifier options.identifier
  let member := if options.isOptional then named.toOptional else named
  match options.description with
  | some text => member.withDescription (some text)
  | none => member

end TypeSchema
