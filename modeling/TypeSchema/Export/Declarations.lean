import TypeSchema.Export.Identifiers
import TypeSchema.Export.Walk

/-!
# Type expressions and declarations of a schema tree

A tree is exported as one type expression, or as declarations of type aliases: the root's first,
then one for every identifier of another node, in the order in which they are met.
-/

namespace TypeSchema.Schema

/-- A tree as one type expression, its identifiers unchecked. -/
def toTypeExprUnchecked (options : ExportOptions) (node : Schema) :
    Except (WalkStop ExportError) TypeExpr :=
  let exporter : Exporter := ⟨options, false⟩
  Exporter.finish ((exporter.exportRoot .root node).run exporter.start)

/-- A tree as one type expression. -/
def toTypeExpr (options : ExportOptions) (node : Schema) :
    Except (WalkStop ExportError) TypeExpr :=
  match node.checkIdentifiers with
  | .ok () => node.toTypeExprUnchecked options
  | .error error => .error (.failed error)

/-- The declarations of the nodes that are queued, and of those that are queued by them. Every
identifier is queued once, so their number bounds the declarations. -/
def exportPending (exporter : Exporter) : (count : Nat) → ExportWalk (List Declaration)
  | 0 => pure []
  | count + 1 => do
    match (← Walk.get).pending with
    | [] => return []
    | hoisted :: rest => do
      Walk.modify fun state => { state with pending := rest }
      let type ← exporter.exportRoot hoisted.place hoisted.node
      let declarations ← exportPending exporter count
      return ⟨hoisted.identifier, type⟩ :: declarations

/-- The declarations of a tree whose root has the given name. -/
def exportDeclarations (exporter : Exporter) (name : String) (node : Schema) :
    ExportWalk (List Declaration) := do
  match node.identifier with
  | some identifier => Walk.modify fun state => { state with seen := identifier :: state.seen }
  | none => pure ()
  let type ← exporter.exportRoot .root node
  let declarations ← exportPending exporter node.identifiers.length
  return ⟨name, type⟩ :: declarations

/-- The name of the declaration of a root: its identifier, or else the given name. -/
def rootName (name : String) (node : Schema) : String := node.identifier.getD name

/-- Refuses a name for the root that is the identifier of another node. -/
def checkRootName (name : String) (node : Schema) : Except ExportError Unit :=
  if node.identifier.isNone ∧ name ∈ node.identifiers then .error (.duplicateIdentifier name)
  else .ok ()

/-- A tree as declarations of type aliases. -/
def toDeclarations (options : ExportOptions) (name : String) (node : Schema) :
    Except (WalkStop ExportError) (List Declaration) :=
  match (do node.checkIdentifiers; node.checkRootName name : Except ExportError Unit) with
  | .error error => .error (.failed error)
  | .ok () =>
    let exporter : Exporter := ⟨options, true⟩
    Exporter.finish ((exportDeclarations exporter (node.rootName name) node).run exporter.start)

end TypeSchema.Schema
