import TypeSchema.Literal

/-!
# Type graphs

The vocabulary in which a type checker describes types: handles, flags, and the parts of object,
callable and tuple types. All of it is plain data; the types themselves stay with the checker.
-/

namespace TypeSchema

/-- The handle of a type inside one checker; equal handles denote the same type. -/
structure TypeId where
  index : Nat
deriving DecidableEq, Repr, Inhabited

/-- The text of a handle, for types that have no other. -/
def TypeId.text (id : TypeId) : String := "#" ++ toString id.index

/-- The properties by which a checker classifies a type. A type may have several: `boolean` is also
a union, of `false` and `true`. -/
inductive TypeFlag where
  | any | unknown | string | number | boolean | bigint | stringLiteral | numberLiteral
  | booleanLiteral | symbol | void | undefined | null | never | object | union | intersection
deriving DecidableEq, Repr

/-- The position of a flag in a set of flags. -/
def TypeFlag.position : TypeFlag → Nat
  | any => 0
  | unknown => 1
  | string => 2
  | number => 3
  | boolean => 4
  | bigint => 5
  | stringLiteral => 6
  | numberLiteral => 7
  | booleanLiteral => 8
  | symbol => 9
  | void => 10
  | undefined => 11
  | null => 12
  | never => 13
  | object => 14
  | union => 15
  | intersection => 16

/-- A set of flags. -/
structure TypeFlags where
  bits : BitVec 17
deriving DecidableEq, Repr, Inhabited

namespace TypeFlags

/-- No flag. -/
def empty : TypeFlags := ⟨0⟩

/-- The flags with the given ones among them. -/
def ofList (flags : List TypeFlag) : TypeFlags :=
  ⟨flags.foldl (fun bits flag => bits ||| BitVec.twoPow 17 flag.position) 0⟩

/-- The set whose members are the bits of a number; bits without a flag are dropped. -/
def ofNat (n : Nat) : TypeFlags := ⟨BitVec.ofNat 17 n⟩

/-- The number whose bits are the members of the set. -/
def toNat (flags : TypeFlags) : Nat := flags.bits.toNat

/-- Whether a flag is in the set. -/
def has (flags : TypeFlags) (flag : TypeFlag) : Bool := flags.bits.getLsbD flag.position

/-- Whether one of the literal flags is in the set. -/
def hasLiteral (flags : TypeFlags) : Bool :=
  flags.has .stringLiteral || flags.has .numberLiteral || flags.has .booleanLiteral

end TypeFlags

/-- A property of an object type. -/
structure PropertyInfo where
  name : String
  /-- The declared type, without the `undefined` that an optional property implies. -/
  type : TypeId
  isOptional : Bool := false
  isReadonly : Bool := false
  documentation : Option String := none
deriving DecidableEq, Repr, Inhabited

/-- An index signature of an object type. -/
structure IndexSignature where
  key : TypeId
  value : TypeId
  isReadonly : Bool := false
deriving DecidableEq, Repr, Inhabited

/-- A parameter of a call signature. -/
structure ParameterInfo where
  name : Option String
  type : TypeId
  isOptional : Bool := false
  isRest : Bool := false
deriving DecidableEq, Repr, Inhabited

/-- A call signature, its parameters in the order of declaration. -/
structure CallSignature where
  parameters : List ParameterInfo
  returns : TypeId
deriving DecidableEq, Repr, Inhabited

/-- An element of a tuple type. -/
structure TupleElement where
  type : TypeId
  isOptional : Bool := false
  isRest : Bool := false
deriving DecidableEq, Repr, Inhabited

/--
What can be asked of a type checker. The importer knows a type only by these answers, and they need
not agree with one another.
-/
structure Checker where
  flags : TypeId → TypeFlags
  /-- The value of a literal type. -/
  literalValue? : TypeId → Option Literal
  /-- The members of a union or intersection, in the checker's order. -/
  constituents : TypeId → List TypeId
  /-- The call signatures in the order of declaration. -/
  callSignatures : TypeId → List CallSignature
  /-- The elements, if the type is a tuple. -/
  tupleElements? : TypeId → Option (List TupleElement)
  /-- The type of the elements, if the type is an array. -/
  arrayElement? : TypeId → Option TypeId
  /-- The properties in the order of declaration. -/
  properties : TypeId → List PropertyInfo
  indexSignatures : TypeId → List IndexSignature
  /-- The name of the alias the type was declared through. -/
  aliasName? : TypeId → Option String
  /-- The text of the type in diagnostics. -/
  typeText : TypeId → String

end TypeSchema
