import TypeSchema.Graph.Basic
import TypeSchema.Schema.Basic

/-!
# Type stores

A store allocates types and hands out their handles in order. The intrinsic types have fixed
handles, equal string and number literals share one, and every other type gets a fresh handle.
Recursive types are made by reserving a handle and defining it later. The members of unions and
intersections are kept exactly as given.
-/

namespace TypeSchema

/-- The types that exist in every store. -/
inductive Intrinsic where
  | never | any | unknown | null | undefined | void | string | number | boolean | bigint | symbol
deriving DecidableEq, Repr, Inhabited

namespace Intrinsic

/-- The name of an intrinsic type. -/
def name : Intrinsic → String
  | never => "never"
  | any => "any"
  | unknown => "unknown"
  | null => "null"
  | undefined => "undefined"
  | void => "void"
  | string => "string"
  | number => "number"
  | boolean => "boolean"
  | bigint => "bigint"
  | symbol => "symbol"

/-- The flags of an intrinsic type; `boolean` is a union too. -/
def flags : Intrinsic → TypeFlags
  | never => .ofList [.never]
  | any => .ofList [.any]
  | unknown => .ofList [.unknown]
  | null => .ofList [.null]
  | undefined => .ofList [.undefined]
  | void => .ofList [.void]
  | string => .ofList [.string]
  | number => .ofList [.number]
  | boolean => .ofList [.boolean, .union]
  | bigint => .ofList [.bigint]
  | symbol => .ofList [.symbol]

end Intrinsic

namespace TypeId

/-- The handle of `never`. -/
def never : TypeId := ⟨0⟩

/-- The handle of `any`. -/
def any : TypeId := ⟨1⟩

/-- The handle of `unknown`. -/
def unknown : TypeId := ⟨2⟩

/-- The handle of `null`. -/
def null : TypeId := ⟨3⟩

/-- The handle of `undefined`. -/
def undefined : TypeId := ⟨4⟩

/-- The handle of `void`. -/
def void : TypeId := ⟨5⟩

/-- The handle of `string`. -/
def string : TypeId := ⟨6⟩

/-- The handle of `number`. -/
def number : TypeId := ⟨7⟩

/-- The handle of `boolean`. -/
def boolean : TypeId := ⟨8⟩

/-- The handle of `bigint`. -/
def bigint : TypeId := ⟨9⟩

/-- The handle of `symbol`. -/
def symbol : TypeId := ⟨10⟩

/-- The handle of the literal type `true`. -/
def booleanTrue : TypeId := ⟨11⟩

/-- The handle of the literal type `false`. -/
def booleanFalse : TypeId := ⟨12⟩

/-- The number of handles that intrinsic types have. -/
def intrinsicCount : Nat := 13

/-- Whether a handle is that of an intrinsic type. -/
def isIntrinsic (id : TypeId) : Bool := decide (id.index < intrinsicCount)

end TypeId

/-- What a handle stands for. -/
inductive TypeData where
  | intrinsic (type : Intrinsic)
  | literal (value : Literal)
  | composite (connective : Connective) (members : List TypeId)
  | array (element : TypeId)
  | tuple (elements : List TupleElement)
  | object (properties : List PropertyInfo) (indexes : List IndexSignature)
  | callable (signatures : List CallSignature)
  /-- Reserved and not yet defined. -/
  | pending
deriving DecidableEq, Inhabited

/-- The types of a store, the literals it has interned and the alias names of its types. -/
structure TypeStore where
  types : Array TypeData
  /-- The handle of each string and number literal that was interned. -/
  literalIds : List (Literal × TypeId)
  /-- The alias names of types, the latest first. -/
  aliasNames : List (TypeId × String)

namespace TypeStore

/-- The types at the fixed handles. -/
def intrinsicTypes : List TypeData := [
  .intrinsic .never, .intrinsic .any, .intrinsic .unknown, .intrinsic .null,
  .intrinsic .undefined, .intrinsic .void, .intrinsic .string, .intrinsic .number,
  .intrinsic .boolean, .intrinsic .bigint, .intrinsic .symbol,
  .literal (.boolean true), .literal (.boolean false)]

/-- A store that holds the intrinsic types alone. -/
def new : TypeStore := ⟨intrinsicTypes.toArray, [], []⟩

/-- What a handle stands for, if it was handed out. -/
def lookup (store : TypeStore) (id : TypeId) : Option TypeData := store.types[id.index]?

/-- The number of types besides the intrinsic ones. -/
def size (store : TypeStore) : Nat := store.types.size - TypeId.intrinsicCount

/-- Whether there are none besides the intrinsic ones. -/
def isEmpty (store : TypeStore) : Bool := store.size == 0

/-- The handle that is handed out next. -/
def nextId (store : TypeStore) : TypeId := ⟨store.types.size⟩

/-- Adds a type under a fresh handle. -/
def alloc (store : TypeStore) (data : TypeData) : TypeId × TypeStore :=
  (store.nextId, { store with types := store.types.push data })

/-- The type of a literal value: a fixed one for booleans, and one for each string and each number,
numbers taken by their bits. -/
def literal (store : TypeStore) : Literal → TypeId × TypeStore
  | .boolean true => (.booleanTrue, store)
  | .boolean false => (.booleanFalse, store)
  | value =>
    match store.literalIds.lookup value with
    | some id => (id, store)
    | none =>
      let (id, extended) := store.alloc (.literal value)
      (id, { extended with literalIds := (value, id) :: extended.literalIds })

/-- Adds a union. -/
def union (store : TypeStore) (members : List TypeId) : TypeId × TypeStore :=
  store.alloc (.composite .union members)

/-- Adds an intersection. -/
def intersection (store : TypeStore) (members : List TypeId) : TypeId × TypeStore :=
  store.alloc (.composite .intersection members)

/-- Adds an array type. -/
def array (store : TypeStore) (element : TypeId) : TypeId × TypeStore :=
  store.alloc (.array element)

/-- Adds a tuple type. -/
def tuple (store : TypeStore) (elements : List TupleElement) : TypeId × TypeStore :=
  store.alloc (.tuple elements)

/-- Adds an object type. -/
def object (store : TypeStore) (properties : List PropertyInfo)
    (indexes : List IndexSignature := []) : TypeId × TypeStore :=
  store.alloc (.object properties indexes)

/-- Adds a type with the given call signatures. -/
def callable (store : TypeStore) (signatures : List CallSignature) : TypeId × TypeStore :=
  store.alloc (.callable signatures)

/-- Adds a type with one call signature. -/
def function (store : TypeStore) (parameters : List ParameterInfo) (returns : TypeId) :
    TypeId × TypeStore :=
  store.callable [⟨parameters, returns⟩]

/-- Adds a type that is defined later. -/
def reserve (store : TypeStore) : TypeId × TypeStore := store.alloc .pending

/-- Defines a reserved handle, and tells whether it was one. -/
def define (store : TypeStore) (id : TypeId) (data : TypeData) : Bool × TypeStore :=
  match store.lookup id with
  | some .pending => (true, { store with types := store.types.setIfInBounds id.index data })
  | _ => (false, store)

/-- Gives a handle an alias name, in place of an earlier one. -/
def setAliasName (store : TypeStore) (id : TypeId) (name : String) : TypeStore :=
  { store with aliasNames := (id, name) :: store.aliasNames }

/-- The alias name of a handle. -/
def aliasName? (store : TypeStore) (id : TypeId) : Option String := store.aliasNames.lookup id

end TypeStore

end TypeSchema
