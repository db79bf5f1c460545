import TypeSchema.Export.Declarations
import TypeSchema.Graph.Queries
import TypeSchema.Import.Walk
import TypeSchema.Lowering.Walk

/-!
# The way through a type graph and back

A schema tree is exported as declarations, the declarations are lowered into a store, and the type
of the first one is imported again.
-/

namespace TypeSchema

/-- The part of a round trip that ended without a result. -/
inductive RoundTripError where
  | exporting (stop : WalkStop ExportError)
  | lowering (stop : WalkStop LowerError)
  | importing (stop : WalkStop ImportError)
deriving DecidableEq

/-- A tree as types of a store. -/
structure LoweredTree where
  declarations : List Declaration
  store : TypeStore
  /-- The type of the first declaration, which is that of the root. -/
  root : TypeId

namespace Schema

/-- A tree, exported and lowered into a store of its own. -/
def lowered (name : String) (node : Schema) : Except RoundTripError LoweredTree :=
  match node.toDeclarations {} name with
  | .error stop => .error (.exporting stop)
  | .ok declarations =>
    match lowerDeclarations .new declarations with
    | (.error stop, _) => .error (.lowering stop)
    | (.ok ids, store) =>
      match ids.lookup (node.rootName name) with
      | some root => .ok ⟨declarations, store, root⟩
      | none => .error (.lowering (.failed (.unknownType name)))

/-- The type of a lowered tree, imported. -/
def ofLowered (file : String) (options : ImportOptions) (tree : LoweredTree) :
    Except RoundTripError Schema :=
  match Importer.fromType ⟨tree.store.checker, file, options⟩ tree.root with
  | .error stop => .error (.importing stop)
  | .ok node => .ok node

/-- A tree, exported, lowered and imported again. -/
def roundTrip (name file : String) (options : ImportOptions) (node : Schema) :
    Except RoundTripError Schema :=
  match node.lowered name with
  | .error error => .error error
  | .ok tree => ofLowered file options tree

end Schema

end TypeSchema
