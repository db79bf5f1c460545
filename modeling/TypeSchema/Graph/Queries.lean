import TypeSchema.Graph.Rendering

/-!
# A store as a type checker

A store answers the questions of a checker from the data of its types. A handle that was never
handed out, and one that is reserved only, has no flags and no parts.
-/

namespace TypeSchema

/-- The flags of a type, given what its handle stands for. -/
def TypeData.flags : TypeData → TypeFlags
  | intrinsic type => type.flags
  | literal (.string _) => .ofList [.stringLiteral]
  | literal (.number _) => .ofList [.numberLiteral]
  | literal (.boolean _) => .ofList [.booleanLiteral]
  | composite .union _ => .ofList [.union]
  | composite .intersection _ => .ofList [.intersection]
  | array _ | tuple _ | object _ _ | callable _ => .ofList [.object]
  | pending => .empty

/-- The members of a union or intersection; those of `boolean` are `false` and `true`. -/
def TypeData.constituents : TypeData → List TypeId
  | composite _ members => members
  | intrinsic .boolean => [.booleanFalse, .booleanTrue]
  | _ => []

namespace TypeStore

variable (store : TypeStore)

/-- The flags of a type. -/
def flags (id : TypeId) : TypeFlags :=
  match store.lookup id with
  | some data => data.flags
  | none => .empty

/-- The value of a literal type. -/
def literalValue? (id : TypeId) : Option Literal :=
  match store.lookup id with
  | some (.literal value) => some value
  | _ => none

/-- The members of a union or intersection. -/
def constituents (id : TypeId) : List TypeId :=
  match store.lookup id with
  | some data => data.constituents
  | none => []

/-- The call signatures of a type. -/
def callSignatures (id : TypeId) : List CallSignature :=
  match store.lookup id with
  | some (.callable signatures) => signatures
  | _ => []

/-- The elements of a tuple type. -/
def tupleElements? (id : TypeId) : Option (List TupleElement) :=
  match store.lookup id with
  | some (.tuple elements) => some elements
  | _ => none

/-- The type of the elements of an array type. -/
def arrayElement? (id : TypeId) : Option TypeId :=
  match store.lookup id with
  | some (.array element) => some element
  | _ => none

/-- The properties of an object type. -/
def properties (id : TypeId) : List PropertyInfo :=
  match store.lookup id with
  | some (.object properties _) => properties
  | _ => []

/-- The index signatures of an object type. -/
def indexSignatures (id : TypeId) : List IndexSignature :=
  match store.lookup id with
  | some (.object _ indexes) => indexes
  | _ => []

/-- The store as a checker. -/
def checker : Checker where
  flags := store.flags
  literalValue? := store.literalValue?
  constituents := store.constituents
  callSignatures := store.callSignatures
  tupleElements? := store.tupleElements?
  arrayElement? := store.arrayElement?
  properties := store.properties
  indexSignatures := store.indexSignatures
  aliasName? := store.aliasName?
  typeText := store.typeText

end TypeStore

end TypeSchema
