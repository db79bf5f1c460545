import TypeSchema.Schema.Optional

/-!
# Optional members of an export

A union of a type and `undefined` marks an optional member only if it has no identifier of its own;
one with an identifier is a type of its own that happens to admit `undefined`. In tuples and
parameter lists only the members at the end can be optional.
-/

namespace TypeSchema.Schema

/-- A member without its mark of being optional, and whether it had one. -/
def splitOptional (node : Schema) : Schema × Bool :=
  match node.identifier, node.optionalType? with
  | none, some type => (type, true)
  | _, _ => (node, false)

/-- The members of a list, those of the longest run of optional ones at its end split, and whether
that run is the whole list. -/
def splitRun : List Schema → List (Schema × Bool) × Bool
  | [] => ([], true)
  | node :: rest =>
    let (members, isRun) := splitRun rest
    let split := node.splitOptional
    if isRun && split.2 then (split :: members, true) else ((node, false) :: members, false)

/-- The members of a list, the optional ones at its end split. -/
def splitTrailing (nodes : List Schema) : List (Schema × Bool) := (splitRun nodes).1

end TypeSchema.Schema
