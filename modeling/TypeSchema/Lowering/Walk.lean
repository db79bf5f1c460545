import TypeSchema.Lowering.Scope
import TypeSchema.Names
import TypeSchema.Syntax.Printer
import TypeSchema.Walk.Depth
import TypeSchema.Walk.Monad

/-!
# Lowering declarations

Type alias declarations are lowered to types of a store. Aliases are resolved on demand, so they may
refer to one another in any order. An alias whose body has parts gets its handle before the body is
lowered, which is how recursive aliases come to an end. `Record` and `Array` are the names that take
type arguments.
-/

namespace TypeSchema

/-- Why declarations could not be lowered. -/
inductive LowerError where
  | unknownType (name : String)
  | unsupportedRecordKey (keyText : String)
  | aliasCycle (name : String)
  | duplicateAlias (name : String)
  | typeArgumentCount (name : String) (expected found : Nat)
  | depthLimitExceeded
deriving DecidableEq

/-- The wording of a lowering error. -/
def LowerError.message : LowerError → String
  | unknownType name => "cannot find name `" ++ name ++ "`"
  | unsupportedRecordKey keyText => "unsupported record key type `" ++ keyText ++ "`"
  | aliasCycle name => "type alias `" ++ name ++ "` circularly references itself"
  | duplicateAlias name => "duplicate type alias `" ++ name ++ "`"
  | typeArgumentCount name expected found =>
    "`" ++ name ++ "` expects " ++ toString expected ++ " type argument(s), got " ++ toString found
  | depthLimitExceeded => "declaration nesting exceeds the lowering depth limit"

/-- What a lowering works on. -/
structure LowerState where
  store : TypeStore
  /-- The handles of the aliases that are resolved. -/
  resolved : List (String × TypeId) := []
  depth : DepthCounter := .new WalkProfile.lowering.limits.maxDepth

/-- A part of a lowering. -/
abbrev LowerWalk := Walk LowerState LowerError

/-- The handle of the type of a keyword. -/
def Keyword.typeId : Keyword → TypeId
  | string => .string
  | number => .number
  | boolean => .boolean
  | void => .void
  | undefined => .undefined
  | any => .any
  | unknown => .unknown
  | never => .never
  | null => .null

/-- Whether a body has parts, so that its alias is resolved before they are lowered. -/
def TypeExpr.isStructural : TypeExpr → Bool
  | .keyword _ | .literal _ | .named _ [] => false
  | _ => true

/-- What the key type of a record stands for. -/
inductive RecordKeys where
  /-- Any string or number: one index signature. -/
  | index
  /-- Given names: a property for each, in order. -/
  | properties (names : List String)
deriving DecidableEq

/-- The property name of a literal key. -/
def Literal.propertyName? : Literal → Option String
  | string value => some value
  | number value => some value.text
  | boolean _ => none

namespace TypeStore

/-- The property name of a literal type. -/
def literalName? (store : TypeStore) (id : TypeId) : Option String :=
  match store.lookup id with
  | some (.literal value) => value.propertyName?
  | _ => none

/-- Whether a handle is that of `string` or `number`. -/
def isIndexKey (id : TypeId) : Bool := id == .string || id == .number

/-- What a type stands for as the key type of a record, if it can be one. -/
def recordKeys? (store : TypeStore) (key : TypeId) : Option RecordKeys :=
  if isIndexKey key then some .index
  else
    match store.lookup key with
    | some (.literal value) => value.propertyName?.map fun name => .properties [name]
    | some (.composite .union members) =>
      if members.all isIndexKey then some .index
      else (members.mapM store.literalName?).map .properties
    | _ => none

/-- The object type of a record. -/
def recordData? (store : TypeStore) (key value : TypeId) : Option TypeData :=
  match store.recordKeys? key with
  | some .index => some (.object [] [{ key, value }])
  | some (.properties names) => some (.object (names.map fun name => { name, type := value }) [])
  | none => none

end TypeStore

namespace LowerWalk

/-- Applies an operation of the store. -/
def onStore {α : Type} (operation : TypeStore → α × TypeStore) : LowerWalk α := fun state =>
  let (result, store) := operation state.store
  (.ok result, { state with store })

/-- Notes the handle of an alias. -/
def resolve (name : String) (id : TypeId) : LowerWalk Unit :=
  Walk.modify fun state => { state with resolved := (name, id) :: state.resolved }

/-- A walk one level deeper, which is left whether the walk succeeds or stops. -/
def deeper {α : Type} (walk : LowerWalk α) : LowerWalk α := fun state =>
  match state.depth.enter? with
  | none => (.error (.failed .depthLimitExceeded), state)
  | some depth =>
    let (result, inside) := walk.run { state with depth }
    match inside.depth.leave with
    | .ok depth => (result, { inside with depth })
    | .error misuse => (.error (.misused misuse), inside)

end LowerWalk

namespace Lowering

section

variable (lowerPart : TypeExpr → LowerWalk TypeId)

/-- A property of an object type. -/
def lowerProperty (member : PropertySignature TypeExpr) : LowerWalk PropertyInfo := do
  let type ← lowerPart member.type
  return ⟨member.name, type, member.isOptional, false, member.documentation⟩

/-- An element of a tuple type. -/
def lowerElement (member : TupleMember TypeExpr) : LowerWalk TupleElement := do
  let type ← lowerPart member.type
  return ⟨type, member.isOptional, false⟩

/-- A parameter of a function type. -/
def lowerParameter (parameter : Parameter TypeExpr) : LowerWalk ParameterInfo := do
  let type ← lowerPart parameter.type
  return ⟨some parameter.name, type, parameter.isOptional, false⟩

/-- A record type. -/
def lowerRecord (key value : TypeExpr) : LowerWalk TypeData := do
  let keyId ← lowerPart key
  let valueId ← lowerPart value
  match (← Walk.get).store.recordData? keyId valueId with
  | some data => return data
  | none => Walk.fail (.unsupportedRecordKey key.print)

/-- A name with type arguments. -/
def lowerGeneric (name : String) (arguments : List TypeExpr) : LowerWalk TypeData :=
  if name = "Record" then
    match arguments with
    | [key, value] => lowerRecord lowerPart key value
    | _ => Walk.fail (.typeArgumentCount name 2 arguments.length)
  else if name = "Array" then
    match arguments with
    | [element] => do return .array (← lowerPart element)
    | _ => Walk.fail (.typeArgumentCount name 1 arguments.length)
  else Walk.fail (.unknownType name)

/-- The data of an expression that has parts. -/
def lowerStructure : TypeExpr → LowerWalk TypeData
  | .object members => do
    let properties ← members.mapM (lowerProperty lowerPart)
    return .object properties []
  | .composite connective members => do
    let types ← members.mapM lowerPart
    return .composite connective types
  | .array element => do return .array (← lowerPart element)
  | .tuple members => do
    let elements ← members.mapM (lowerElement lowerPart)
    return .tuple elements
  | .function parameters returns => do
    let parameters ← parameters.mapM (lowerParameter lowerPart)
    let returns ← lowerPart returns
    return .callable [⟨parameters, returns⟩]
  | .named name arguments => lowerGeneric lowerPart name arguments
  | type@(.keyword _) | type@(.literal _) => Walk.fail (.unknownType type.print)

/-- The body of an alias. One that has parts is lowered under a handle that is reserved, named and
resolved before. -/
def lowerAliasBody (declaration : Declaration) : LowerWalk TypeId :=
  if declaration.type.isStructural then do
    let id ← LowerWalk.onStore (·.reserve)
    Walk.modify fun state =>
      { state with store := state.store.setAliasName id declaration.name }
    LowerWalk.resolve declaration.name id
    let data ← LowerWalk.deeper (lowerStructure lowerPart declaration.type)
    let _ ← LowerWalk.onStore (·.define id data)
    return id
  else do
    let id ← lowerPart declaration.type
    LowerWalk.resolve declaration.name id
    return id

/-- Notes the handle that all aliases of a chain stand for. -/
def finishChain (chain : List String) (id : TypeId) : LowerWalk TypeId := do
  Walk.modify fun state =>
    { state with resolved := chain.map (fun name => (name, id)) ++ state.resolved }
  return id

/-- The handle of an alias. -/
def resolveAlias (declarations : List Declaration) (name : String) : LowerWalk TypeId := do
  let resolved := (← Walk.get).resolved
  match resolved.lookup name with
  | some id => return id
  | none =>
    match chainEnd declarations resolved name with
    | .undeclared name => Walk.fail (.unknownType name)
    | .cycle name => Walk.fail (.aliasCycle name)
    | .resolved chain id => finishChain chain id
    | .body chain declaration => do
      let id ← lowerAliasBody lowerPart declaration
      finishChain chain id

/-- The handle of an expression. -/
def lowerExpr (declarations : List Declaration) : TypeExpr → LowerWalk TypeId
  | .keyword word => pure word.typeId
  | .literal value => LowerWalk.onStore (·.literal value)
  | .named name [] =>
    match declared? declarations name with
    | some _ => resolveAlias lowerPart declarations name
    | none => Walk.fail (.unknownType name)
  | type => do
    let data ← lowerStructure lowerPart type
    let id ← LowerWalk.onStore (·.reserve)
    let _ ← LowerWalk.onStore (·.define id data)
    return id

end

/--
Lowers an expression where at most `room` more levels may be entered.

The counter refuses a level when no room is left, as the depth it counts and the room add up to the
depth limit at least.
-/
def lowerType (declarations : List Declaration) : (room : Nat) → TypeExpr → LowerWalk TypeId
  | 0, _ => LowerWalk.deeper (Walk.fail .depthLimitExceeded)
  | room + 1, type => LowerWalk.deeper (lowerExpr (lowerType declarations room) declarations type)

/-- The greatest depth of a lowering. -/
def maxRoom : Nat := WalkProfile.lowering.limits.maxDepth.toNat

/-- Lowers a standalone expression with the declarations in scope. -/
def lowerRoot (declarations : List Declaration) (type : TypeExpr) : LowerWalk TypeId :=
  lowerType declarations maxRoom type

/-- Lowers every declaration, and gives the handle of each by its name. -/
def lowerAll (declarations : List Declaration) : LowerWalk (List (String × TypeId)) := do
  declarations.forM fun declaration => do
    let _ ← resolveAlias (lowerRoot declarations) declarations declaration.name
  let resolved := (← Walk.get).resolved
  return declarations.filterMap fun declaration =>
    (resolved.lookup declaration.name).map fun id => (declaration.name, id)

/-- The state in which declarations are lowered into a store. -/
def start (store : TypeStore) : LowerState := { store }

/-- Refuses declarations of one name. -/
def checkNames (declarations : List Declaration) : Except LowerError Unit :=
  match firstRepeated? [] (declarations.map (·.name)) with
  | some name => .error (.duplicateAlias name)
  | none => .ok ()

/-- The result of a lowering whose state is given up, and the store that it leaves. -/
def finish {α : Type} (outcome : Except (WalkStop LowerError) α × LowerState) :
    Except (WalkStop LowerError) α × TypeStore :=
  match outcome.2.depth.close with
  | .ok () => (outcome.1, outcome.2.store)
  | .error misuse => (.error (.misused misuse), outcome.2.store)

/-- Lowers standalone expressions one after the other in one state, with the declarations in
scope. -/
def lowerEach (declarations : List Declaration) (types : List TypeExpr) (store : TypeStore) :
    List (Except (WalkStop LowerError) TypeId) × LowerState :=
  Walk.runEach (types.map (lowerRoot declarations)) (start store)

end Lowering

/-- Lowers declarations into a store, which keeps what was allocated even after an error. -/
def lowerDeclarations (store : TypeStore) (declarations : List Declaration) :
    Except (WalkStop LowerError) (List (String × TypeId)) × TypeStore :=
  match Lowering.checkNames declarations with
  | .error error => (.error (.failed error), store)
  | .ok () => Lowering.finish ((Lowering.lowerAll declarations).run (Lowering.start store))

end TypeSchema
