import TypeSchema.Import.State

/-!
# Import rules

A type is imported by the first rule that applies to it. The order matters, since a type may satisfy
several: `boolean` is reported as a union and has to be taken as a primitive. The two leaf rules
make a node at once; the others import parts of the type, which is left to a parameter here.
-/

namespace TypeSchema

/-- The rules by which types are imported. -/
inductive ImportRule where
  | literal | primitive | function | tuple | array | union | intersection | record | object
deriving DecidableEq, Repr

namespace ImportRule

/-- Every rule, in order of priority. -/
def all : List ImportRule :=
  [literal, primitive, function, tuple, array, union, intersection, record, object]

/-- The name of a rule. -/
def name : ImportRule → String
  | literal => "Literal"
  | primitive => "Primitive"
  | function => "Function"
  | tuple => "Tuple"
  | array => "Array"
  | union => "Union"
  | intersection => "Intersection"
  | record => "Record"
  | object => "Object"

/-- Whether the rule makes a node without importing any other type. -/
def isLeaf : ImportRule → Bool
  | literal | primitive => true
  | _ => false

end ImportRule

/-- The primitive type that flags tell, the first of several. -/
def TypeFlags.primitive? (flags : TypeFlags) : Option Primitive :=
  if flags.has .string then some .string
  else if flags.has .number then some .number
  else if flags.has .boolean then some .boolean
  else if flags.has .void then some .void
  else if flags.has .undefined then some .undefined
  else none

namespace Importer

variable (importer : Importer) (importPart : TypeId → ImportWalk Schema)

/-- A part that may be optional. -/
def importOptional (isOptional : Bool) (id : TypeId) : ImportWalk Schema := do
  let node ← importPart id
  return if isOptional then node.toOptional else node

/-- A parameter of the function type `id`; there is no schema for a rest parameter. -/
def importParameter (id : TypeId) (parameter : ParameterInfo) : ImportWalk Schema :=
  if parameter.isRest then importer.unsupported id
  else importOptional importPart parameter.isOptional parameter.type

/-- An element of the tuple type `id`; there is no schema for a rest element. -/
def importElement (id : TypeId) (element : TupleElement) : ImportWalk Schema :=
  if element.isRest then importer.unsupported id
  else importOptional importPart element.isOptional element.type

/-- A call signature of the function type `id`. -/
def importSignature (id : TypeId) (signature : CallSignature) : ImportWalk Schema := do
  let arguments ← signature.parameters.mapM (importer.importParameter importPart id)
  let returns ← importPart signature.returns
  return .functionOf arguments returns

/-- A callable type, by its first signature; others may be refused. -/
def importFunction (id : TypeId) : List CallSignature → ImportWalk Schema
  | [] => importer.unsupported id
  | signature :: overloads =>
    if !overloads.isEmpty && importer.options.signaturePolicy == .rejectOverloads then
      importer.unsupported id
    else importer.importSignature importPart id signature

/-- A tuple type. -/
def importTuple (id : TypeId) (elements : List TupleElement) : ImportWalk Schema := do
  let nodes ← elements.mapM (importer.importElement importPart id)
  return .tupleOf nodes

/-- A union or intersection; one of a single member is that member. -/
def importComposite (connective : Connective) (id : TypeId) : ImportWalk Schema :=
  match importer.checker.constituents id with
  | [] => importer.unsupported id
  | [member] => importPart member
  | members => do
    let nodes ← members.mapM importPart
    ImportWalk.constructed (Schema.compositeOf connective nodes)

/-- An index signature as a record. -/
def importRecord (signature : IndexSignature) : ImportWalk Schema := do
  let key ← importPart signature.key
  let value ← importPart signature.value
  return .recordOf key value

/-- A property of an object type; its documentation becomes the description of its node. -/
def importProperty (property : PropertyInfo) : ImportWalk (String × Schema) := do
  let node ← importOptional importPart property.isOptional property.type
  return (property.name,
    match property.documentation with
    | some text => node.withDescription (some text)
    | none => node)

/-- The intersection of the parts of an object type, or its only part. -/
def joinParts : List Schema → ImportWalk Schema
  | [part] => pure part
  | parts => ImportWalk.constructed (Schema.compositeOf .intersection parts)

/-- The object of the properties that stand beside index signatures, if there are any. -/
def objectParts : List (String × Schema) → ImportWalk (List Schema)
  | [] => pure []
  | properties => do return [← ImportWalk.constructed (Schema.ofProperties properties)]

/-- An object type: its properties, intersected with a record for every index signature. -/
def importObject (id : TypeId) : ImportWalk Schema := do
  let properties ← (importer.checker.properties id).mapM (importProperty importPart)
  match importer.checker.indexSignatures id with
  | [] => ImportWalk.constructed (Schema.ofProperties properties)
  | signatures => do
    let parts ← objectParts properties
    let records ← signatures.mapM (importRecord importPart)
    joinParts (parts ++ records)

/-- What a leaf rule makes of a type, or nothing if it does not apply. -/
def applyLeaf (id : TypeId) (flags : TypeFlags) : ImportRule → Option (ImportWalk Schema)
  | .literal =>
    if flags.hasLiteral then
      match importer.checker.literalValue? id with
      | some value => some (pure (.ofLiteral value))
      | none => some (importer.unsupported id)
    else none
  | .primitive => flags.primitive?.map fun type => pure (.ofPrimitive type)
  | _ => none

/-- What another rule makes of a type, or nothing if it does not apply. -/
def applyStructural (id : TypeId) (flags : TypeFlags) : ImportRule → Option (ImportWalk Schema)
  | .function =>
    if flags.has .object && !(importer.checker.callSignatures id).isEmpty then
      some (importer.importFunction importPart id (importer.checker.callSignatures id))
    else none
  | .tuple => (importer.checker.tupleElements? id).map (importer.importTuple importPart id)
  | .array => (importer.checker.arrayElement? id).map fun element => do
    return .arrayOf (← importPart element)
  | .union =>
    if flags.has .union then some (importer.importComposite importPart .union id) else none
  | .intersection =>
    if flags.has .intersection then some (importer.importComposite importPart .intersection id)
    else none
  | .record =>
    if flags.has .object && (importer.checker.properties id).isEmpty then
      match importer.checker.indexSignatures id with
      | [signature] => some (importRecord importPart signature)
      | _ => none
    else none
  | .object => if flags.has .object then some (importer.importObject importPart id) else none
  | _ => none

/-- What the first leaf rule that applies makes of a type. -/
def importLeaf? (id : TypeId) (flags : TypeFlags) : Option (ImportWalk Schema) :=
  ImportRule.all.findSome? (importer.applyLeaf id flags)

/-- What the first other rule that applies makes of a type. -/
def importStructure (id : TypeId) (flags : TypeFlags) : ImportWalk Schema :=
  (ImportRule.all.findSome? (importer.applyStructural importPart id flags)).getD
    (importer.unsupported id)

end Importer

end TypeSchema
