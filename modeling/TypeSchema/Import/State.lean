import TypeSchema.Graph.Basic
import TypeSchema.Options.Basic
import TypeSchema.Schema.Construction
import TypeSchema.Walk.Guard
import TypeSchema.Walk.Monad

/-!
# The state of an import

An import remembers the types it is inside of, the identifiers it has given to types, and every
identifier it has used. An identifier is claimed once: a name that is taken gets the least number
from two on that makes it free, and a type without a name gets the least free number after a prefix.
-/

namespace TypeSchema

/-- Why a type could not be imported. -/
inductive ImportError where
  | unsupportedType (typeText file : String)
  /-- A reference of the result names no node of it. -/
  | recursionIntegrity (reference : String)
  | depthLimitExceeded (typeText : String)
  | construction (error : ConstructionError)
deriving DecidableEq

/-- The wording of an import error. -/
def ImportError.message : ImportError → String
  | unsupportedType typeText file => "unsupported type `" ++ typeText ++ "` in " ++ file
  | recursionIntegrity reference =>
    "reference `" ++ reference ++ "` does not name any node in the imported tree"
  | depthLimitExceeded typeText =>
    "type `" ++ typeText ++ "` exceeds the import depth or work limit"
  | construction error => error.message

/-- What an import remembers. -/
structure ImportState where
  guard : WalkGuard TypeId
  /-- The types the walk is inside of, each with its identifier once it is referred to. -/
  inProgress : List (TypeId × Option String) := []
  /-- The types that are completed under an identifier. -/
  named : List (TypeId × String) := []
  usedIdentifiers : List String := []
  /-- The number that the latest identifier of a type without a name was made from. -/
  anonymousCount : Nat := 0

/-- What an import asks and how. -/
structure Importer where
  checker : Checker
  /-- The file that is named in messages. -/
  file : String
  options : ImportOptions

/-- A part of an import. -/
abbrev ImportWalk := Walk ImportState ImportError

namespace ImportState

/-- The state before anything is imported. -/
def new (limits : WalkLimits) : ImportState := { guard := WalkGuard.new limits }

/-- The identifier of a type the walk is inside of. -/
def currentIdentifier? (state : ImportState) (id : TypeId) : Option String :=
  (state.inProgress.lookup id).join

/-- The types the walk is inside of, without one. -/
def withoutProgress (state : ImportState) (id : TypeId) : List (TypeId × Option String) :=
  state.inProgress.filter fun entry => entry.1 ≠ id

/-- Notes that the walk is inside of a type, with its identifier if it is referred to. -/
def setProgress (state : ImportState) (id : TypeId) (identifier : Option String) : ImportState :=
  { state with inProgress := (id, identifier) :: state.withoutProgress id }

/-- Notes an identifier as used. -/
def use (state : ImportState) (identifier : String) : ImportState :=
  { state with usedIdentifiers := identifier :: state.usedIdentifiers }

/-- The first of the candidates, counted from `number`, that is not used, with its number. Among
more candidates than used identifiers there is one. -/
def firstFree (used : List String) (candidate : Nat → String) : (tries : Nat) → Nat → String × Nat
  | 0, number => (candidate number, number)
  | tries + 1, number =>
    if candidate number ∈ used then firstFree used candidate tries (number + 1)
    else (candidate number, number)

/-- Claims a name, or the name with the least number that makes it free. -/
def claim (state : ImportState) (name : String) : String × ImportState :=
  if name ∈ state.usedIdentifiers then
    let (identifier, _) := firstFree state.usedIdentifiers (fun number => name ++ toString number)
      state.usedIdentifiers.length 2
    (identifier, state.use identifier)
  else (name, state.use name)

/-- Claims the prefix with the least free number above the current one. -/
def claimAnonymous (state : ImportState) (start : String) : String × ImportState :=
  let (identifier, number) :=
    firstFree state.usedIdentifiers (fun number => start ++ toString number)
      state.usedIdentifiers.length (state.anonymousCount + 1)
  (identifier, { state.use identifier with anonymousCount := number })

end ImportState

namespace Importer

variable (importer : Importer)

/-- The alias name of a type, if it has one that is not empty. -/
def aliasName? (id : TypeId) : Option String :=
  (importer.checker.aliasName? id).filter (· ≠ "")

/-- The identifier of a type the walk is inside of; a type that has none gets one. -/
def identifierFor (id : TypeId) : ImportWalk String := fun state =>
  match state.currentIdentifier? id with
  | some identifier => (.ok identifier, state)
  | none =>
    let (identifier, claimed) :=
      match importer.aliasName? id with
      | some name => state.claim name
      | none => state.claimAnonymous importer.options.anonymousPrefix
    (.ok identifier, claimed.setProgress id (some identifier))

/-- The identifier that a completed type takes from its alias name. -/
def aliasIdentifier (id : TypeId) : ImportWalk (Option String) := fun state =>
  match importer.aliasName? id with
  | some name =>
    let (identifier, claimed) := state.claim name
    (.ok (some identifier), claimed)
  | none => (.ok none, state)

/-- Stops because a type has no schema. -/
def unsupported {α : Type} (id : TypeId) : ImportWalk α :=
  Walk.fail (.unsupportedType (importer.checker.typeText id) importer.file)

end Importer

/-- The node that construction gives, or its error. -/
def ImportWalk.constructed {α : Type} : Except ConstructionError α → ImportWalk α
  | .ok result => pure result
  | .error error => Walk.fail (.construction error)

end TypeSchema
