import TypeSchema.Export.Error
import TypeSchema.Schema.Equality
import TypeSchema.Schema.Traversal

/-!
# The identifiers of a schema tree

A tree can be exported if the nodes that carry one identifier are the same and every reference names
a node. Both are checked before anything is exported.
-/

namespace TypeSchema.Schema

/-- The first identifier whose carrier differs from its first carrier, among the given nodes and
those `held` before them. -/
def firstConflict? (held : List (String × Schema)) : List Schema → Option String
  | [] => none
  | node :: rest =>
    match node.identifier with
    | none => firstConflict? held rest
    | some identifier =>
      match held.lookup identifier with
      | none => firstConflict? ((identifier, node) :: held) rest
      | some holder =>
        if holder.same node then firstConflict? held rest else some identifier

/-- The first reference of a tree that names none of its nodes. -/
def firstDangling? (node : Schema) : Option String :=
  let identifiers := node.identifiers
  node.references.find? (· ∉ identifiers)

/-- Refuses a tree whose identifiers are ambiguous or whose references dangle. -/
def checkIdentifiers (node : Schema) : Except ExportError Unit :=
  match firstConflict? [] node.preorder with
  | some identifier => .error (.duplicateIdentifier identifier)
  | none =>
    match node.firstDangling? with
    | some target => .error (.recursionIntegrity target)
    | none => .ok ()

end TypeSchema.Schema
