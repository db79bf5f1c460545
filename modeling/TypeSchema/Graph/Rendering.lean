import TypeSchema.Graph.Store

/-!
# The text of a type

A type is written out with the members it has, except that a member with an alias name is written by
that name, and a handle that is being written already, or that stands for nothing yet, by its
number. The handles that are being written are threaded through the walk as its state. A walk with
too few levels for the depth of the text comes to nothing.
-/

namespace TypeSchema.TypeStore

/-- A step of the walk; its state is the list of handles that are being written. -/
abbrev RenderM := StateT (List TypeId) Option

section

variable (render : TypeId → RenderM String)

/-- The text of an element of a tuple type. -/
def renderElement (element : TupleElement) : RenderM String := do
  let text ← render element.type
  return (if element.isRest then "..." else "") ++ text ++ (if element.isOptional then "?" else "")

/-- The text of a property of an object type. -/
def renderProperty (property : PropertyInfo) : RenderM String := do
  let text ← render property.type
  return property.name ++ (if property.isOptional then "?" else "") ++ ": " ++ text ++ "; "

/-- The text of an index signature of an object type. -/
def renderIndex (index : IndexSignature) : RenderM String := do
  let key ← render index.key
  let value ← render index.value
  return "[key: " ++ key ++ "]: " ++ value ++ "; "

/-- The name of a parameter, or one made from its position. -/
def parameterName (position : Nat) (parameter : ParameterInfo) : String :=
  parameter.name.getD ("arg" ++ toString position)

/-- The text of a parameter of a call signature. -/
def renderParameter (parameter : ParameterInfo × Nat) : RenderM String := do
  let text ← render parameter.1.type
  return (if parameter.1.isRest then "..." else "") ++ parameterName parameter.2 parameter.1 ++
    (if parameter.1.isOptional then "?" else "") ++ ": " ++ text

/-- The text of a call signature. -/
def renderSignature (signature : CallSignature) : RenderM String := do
  let parameters ← signature.parameters.zipIdx.mapM (renderParameter render)
  let returns ← render signature.returns
  return "(" ++ String.intercalate ", " parameters ++ ") => " ++ returns

/-- The text of what a handle stands for. -/
def renderData (id : TypeId) : Option TypeData → RenderM String
  | none | some .pending => return id.text
  | some (.intrinsic type) => return type.name
  | some (.literal value) => return value.text
  | some (.composite connective members) => do
    let texts ← members.mapM render
    return String.intercalate connective.separator texts
  | some (.array element) => do
    let text ← render element
    return text ++ "[]"
  | some (.tuple elements) => do
    let texts ← elements.mapM (renderElement render)
    return "[" ++ String.intercalate ", " texts ++ "]"
  | some (.object [] []) => return "\x7b\x7d"
  | some (.object properties indexes) => do
    let texts ← properties.mapM (renderProperty render)
    let indexTexts ← indexes.mapM (renderIndex render)
    return "\x7b " ++ String.join texts ++ String.join indexTexts ++ "\x7d"
  | some (.callable signatures) => do
    let texts ← signatures.mapM (renderSignature render)
    return String.intercalate " & " texts

end

/-- The text of a type that is not written yet: it is being written while its members are. -/
def renderOpen (store : TypeStore) (render : TypeId → RenderM String) (id : TypeId) :
    RenderM String := do
  if id ∈ (← get) then return id.text
  modify (id :: ·)
  let text ← renderData render id (store.lookup id)
  modify (·.erase id)
  return text

/--
The text of a member. An alias name stands for its type.

Every level opens one more handle of the store, so `levels` above their number are never used up.
-/
def renderMember (store : TypeStore) : (levels : Nat) → TypeId → RenderM String
  | 0, _ => failure
  | levels + 1, id =>
    match store.aliasName? id with
    | some name => return name
    | none => store.renderOpen (store.renderMember levels) id

/-- The text of a type in diagnostics; its own alias name is not used. -/
def typeText (store : TypeStore) (id : TypeId) : String :=
  match (store.renderOpen (store.renderMember store.types.size) id).run [] with
  | some (text, _) => text
  | none => id.text

end TypeSchema.TypeStore
