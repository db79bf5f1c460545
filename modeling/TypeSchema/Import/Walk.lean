import TypeSchema.Import.Rule
import TypeSchema.Schema.Traversal

/-!
# Importing types

A type graph is imported as a tree. A type that the walk is already inside of becomes a reference,
and gets its identifier when it is completed; a nested type with an alias name gets that name even
if nothing refers to it; and a type that is completed under an identifier is referred to from then
on, while one without is imported again.
-/

namespace TypeSchema.Importer

variable (importer : Importer)

/-- The node of a completed type, under its identifier if it has one. -/
def complete (id : TypeId) (identifier : Option String) (node : Schema) : ImportWalk Schema :=
  match identifier with
  | none => pure node
  | some identifier => do
    Walk.modify fun state => { state with named := (id, identifier) :: state.named }
    return node.withIdentifier (some identifier)

/-- Imports the structure of a type that the guard has entered, leaves it, and completes the node.
The type is left whether its structure is imported or not. -/
def importEntered (body : ImportWalk Schema) (isNested : Bool) (id : TypeId) :
    ImportWalk Schema := fun state =>
  let (result, inside) := body.run (state.setProgress id none)
  match inside.guard.leave id with
  | .error misuse => (.error (.misused misuse), inside)
  | .ok guard =>
    let identifier := inside.currentIdentifier? id
    let left := { inside with guard, inProgress := inside.withoutProgress id }
    match result with
    | .error stop => (.error stop, left)
    | .ok node =>
      match identifier with
      | some identifier => (complete id (some identifier) node).run left
      | none =>
        if isNested then
          (do complete id (← importer.aliasIdentifier id) node : ImportWalk Schema).run left
        else (.ok node, left)

/-- Stops because a type lies too deep, or because the work is spent. -/
def limitExceeded {α : Type} (id : TypeId) : ImportWalk α :=
  Walk.fail (.depthLimitExceeded (importer.checker.typeText id))

/-- Imports a type. Its parts are imported by a walk of their own if there is room to enter it. -/
def importWith (importPart? : Option (TypeId → ImportWalk Schema)) (id : TypeId) :
    ImportWalk Schema :=
  let flags := importer.checker.flags id
  match importer.importLeaf? id flags with
  | some leaf => leaf
  | none => fun state =>
    match state.named.lookup id with
    | some identifier => (ImportWalk.constructed (Schema.referenceTo identifier)).run state
    | none =>
      let (answer, guard) := state.guard.enter id
      let counted := { state with guard }
      match answer, importPart? with
      | .entered, some importPart =>
        (importer.importEntered (importer.importStructure importPart id flags)
          (decide (1 < guard.depth)) id).run counted
      | .cycle, _ =>
        (do ImportWalk.constructed (Schema.referenceTo (← importer.identifierFor id)) :
          ImportWalk Schema).run counted
      | _, _ => (importer.limitExceeded id).run counted

/--
Imports a type where `room` more types may be entered.

The guard refuses to enter a type when no room is left, as the depth it counts and the room add up
to the depth limit.
-/
def importType : (room : Nat) → TypeId → ImportWalk Schema
  | 0 => importer.importWith none
  | room + 1 => importer.importWith (some (importType room))

/-- Refuses a tree with a reference to an identifier that none of its nodes carries. -/
def checkReferences (node : Schema) : Except ImportError Unit :=
  let identifiers := node.identifiers
  match node.references.find? (· ∉ identifiers) with
  | some reference => .error (.recursionIntegrity reference)
  | none => .ok ()

/-- Imports a type in a fresh state of depth zero, so that the whole depth limit is left. -/
def importRoot (id : TypeId) : ImportWalk Schema :=
  importer.importType importer.options.maxDepth.toNat id

/-- Imports a type and checks the references of the result. -/
def importChecked (id : TypeId) : ImportWalk Schema := do
  let node ← importer.importRoot id
  Walk.ofExcept (checkReferences node)
  return node

/-- The state in which an import starts. -/
def start : ImportState := .new importer.options.limits

/-- The result of the last import of a state, which is given up. -/
def finish (outcome : Except (WalkStop ImportError) Schema × ImportState) :
    Except (WalkStop ImportError) Schema :=
  match outcome.2.guard.close with
  | .ok () => outcome.1
  | .error misuse => .error (.misused misuse)

/-- Imports types one after the other in one state. -/
def importEach (ids : List TypeId) :
    List (Except (WalkStop ImportError) Schema) × ImportState :=
  Walk.runEach (ids.map importer.importRoot) importer.start

/-- Imports a type in the state that the imports of others leave, as the last one. -/
def importLast (ids : List TypeId) (last : TypeId) : Except (WalkStop ImportError) Schema :=
  finish ((importer.importChecked last).run (importer.importEach ids).2)

/-- The schema tree of a type. -/
def fromType (id : TypeId) : Except (WalkStop ImportError) Schema :=
  finish ((importer.importChecked id).run importer.start)

end TypeSchema.Importer
