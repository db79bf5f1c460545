import TypeSchema.Export.Error
import TypeSchema.Export.Members
import TypeSchema.Options.Basic
import TypeSchema.Syntax.Basic
import TypeSchema.Walk.Guard
import TypeSchema.Walk.Monad

/-!
# Exporting nodes

A node is exported as a type expression of its structure. Where declarations are made, a node with
an identifier that is a part of another becomes a reference to a declaration of its own, which is
queued when the identifier is met first. The walk is guarded by the place of each node in the tree,
so only the depth of the tree can stop it.
-/

namespace TypeSchema

/-- The place of a node in a tree: its depth, and the positions among the children on the way to it,
the last one first. -/
structure Place where
  depth : Nat
  path : List Nat
deriving DecidableEq, Repr, Inhabited

namespace Place

/-- The place of the root. -/
def root : Place := ⟨0, []⟩

/-- The place of a child. -/
def child (place : Place) (position : Nat) : Place :=
  ⟨place.depth + 1, position :: place.path⟩

/-- The place of a member of a node, which is that of its type if the member is split. -/
def member (place : Place) (position : Nat) (isSplit : Bool) : Place :=
  if isSplit then (place.child position).child 0 else place.child position

end Place

/-- A node that waits for a declaration of its own. -/
structure HoistedNode where
  identifier : String
  place : Place
  node : Schema

/-- What an export remembers. -/
structure ExportState where
  guard : WalkGuard Place
  /-- The nodes that wait for their declarations, the first one first. -/
  pending : List HoistedNode := []
  /-- The identifiers that have a declaration or wait for one. -/
  seen : List String := []

/-- How a tree is exported. -/
structure Exporter where
  options : ExportOptions
  /-- Whether nodes with identifiers get declarations of their own. -/
  hoists : Bool

/-- A part of an export. -/
abbrev ExportWalk := Walk ExportState ExportError

/-- A bare name as a type expression. -/
def TypeExpr.reference (name : String) : TypeExpr := .named name []

/-- The keyword of a primitive type. -/
def Primitive.keyword : Primitive → Keyword
  | string => .string
  | number => .number
  | boolean => .boolean
  | void => .void
  | undefined => .undefined

namespace Exporter

/-- Queues a node for a declaration, unless its identifier is seen. -/
def hoist (identifier : String) (place : Place) (node : Schema) : ExportWalk Unit :=
  Walk.modify fun state =>
    if identifier ∈ state.seen then state
    else
      { state with
        seen := identifier :: state.seen
        pending := state.pending ++ [⟨identifier, place, node⟩] }

section

variable (exporter : Exporter) (exportPart : Place → Schema → ExportWalk TypeExpr)

/-- A node that is a part of another. -/
def exportMember (place : Place) (node : Schema) : ExportWalk TypeExpr :=
  match exporter.hoists, node.identifier with
  | true, some identifier => do
    hoist identifier place node
    return .reference identifier
  | _, _ => exportPart place node

/-- The nodes of a list, whose first one has the given position. -/
def exportList (place : Place) : (position : Nat) → List Schema → ExportWalk (List TypeExpr)
  | _, [] => pure []
  | position, node :: rest => do
    let type ← exporter.exportMember exportPart (place.child position) node
    let types ← exportList place (position + 1) rest
    return type :: types

/-- The properties of an object. The documentation is that of the property, or else that of the
type of an optional property. -/
def exportProperties (place : Place) :
    (position : Nat) → List (String × Schema) → ExportWalk (List (PropertySignature TypeExpr))
  | _, [] => pure []
  | position, (name, node) :: rest => do
    let (inner, isOptional) := node.splitOptional
    let type ← exporter.exportMember exportPart (place.member position isOptional) inner
    let members ← exportProperties place (position + 1) rest
    return ⟨name, isOptional, type, node.description <|> inner.description⟩ :: members

/-- The elements of a tuple, split where they are optional. -/
def exportElements (place : Place) :
    (position : Nat) → List (Schema × Bool) → ExportWalk (List (TupleMember TypeExpr))
  | _, [] => pure []
  | position, (node, isOptional) :: rest => do
    let type ← exporter.exportMember exportPart (place.member position isOptional) node
    let members ← exportElements place (position + 1) rest
    return ⟨isOptional, type⟩ :: members

/-- The parameters of a function, split where they are optional, named by their positions. -/
def exportParameters (place : Place) :
    (position : Nat) → List (Schema × Bool) → ExportWalk (List (Parameter TypeExpr))
  | _, [] => pure []
  | position, (node, isOptional) :: rest => do
    let type ← exporter.exportMember exportPart (place.member position isOptional) node
    let parameters ← exportParameters place (position + 1) rest
    return ⟨exporter.options.parameterPrefix ++ toString position, isOptional, type⟩ :: parameters

/-- A literal; a number that is not finite has no literal type. -/
def exportLiteral : Literal → ExportWalk TypeExpr
  | value@(.number number) =>
    if number.isFinite then pure (.literal value) else Walk.fail (.nonFiniteLiteral number)
  | value => pure (.literal value)

/-- The structure of a node at a place. -/
def exportStructure (place : Place) : Schema → ExportWalk TypeExpr
  | .primitive type _ => pure (.keyword type.keyword)
  | .literal value _ => exportLiteral value
  | .object properties _ => do
    return .object (← exporter.exportProperties exportPart place 0 properties)
  | .array element _ => do
    return .array (← exporter.exportMember exportPart (place.child 0) element)
  | .tuple elements _ => do
    return .tuple (← exporter.exportElements exportPart place 0 (Schema.splitTrailing elements))
  | .composite connective members _ => do
    return .composite connective (← exporter.exportList exportPart place 0 members)
  | .record key value _ => do
    let key ← exporter.exportMember exportPart (place.child 0) key
    let value ← exporter.exportMember exportPart (place.child 1) value
    return .named "Record" [key, value]
  | .function arguments returns _ => do
    let parameters ←
      exporter.exportParameters exportPart place 0 (Schema.splitTrailing arguments)
    let returns ← exporter.exportMember exportPart (place.child arguments.length) returns
    return .function parameters returns
  | .reference target _ => pure (.reference target)

end

/-- A walk inside a place, which is left whether the walk succeeds or stops. -/
def within {α : Type} (place : Place) (walk : ExportWalk α) : ExportWalk α := fun state =>
  match state.guard.enter place with
  | (.entered, guard) =>
    let (result, inside) := walk.run { state with guard }
    match inside.guard.leave place with
    | .ok guard => (result, { inside with guard })
    | .error misuse => (.error (.misused misuse), inside)
  | (_, guard) => (.error (.failed .depthLimitExceeded), { state with guard })

/--
Exports a node where `room` more nodes may be entered.

No node is entered when no room is left, as the depth the guard counts and the room add up to the
depth limit.
-/
def exportNode (exporter : Exporter) : (room : Nat) → Place → Schema → ExportWalk TypeExpr
  | 0, place, _ => within place (Walk.fail .depthLimitExceeded)
  | room + 1, place, node =>
    within place (exporter.exportStructure (exporter.exportNode room) place node)

/-- Exports a node at depth zero, so that the whole depth limit is left. -/
def exportRoot (exporter : Exporter) (place : Place) (node : Schema) : ExportWalk TypeExpr :=
  exporter.exportNode exporter.options.maxDepth.toNat place node

/-- The state in which an export starts. -/
def start (exporter : Exporter) : ExportState := { guard := .new exporter.options.limits }

/-- The result of an export whose state is given up. -/
def finish {α : Type} (outcome : Except (WalkStop ExportError) α × ExportState) :
    Except (WalkStop ExportError) α :=
  match outcome.2.guard.close with
  | .ok () => outcome.1
  | .error misuse => .error (.misused misuse)

end Exporter

end TypeSchema
