import TypeSchema.Schema.Basic

/-!
# Optional members

An optional member is the union of its type and `undefined`, with `undefined` last. `toOptional`
makes that union and `optionalType?` takes it apart; no other place spells the pattern out.
-/

namespace TypeSchema.Schema

mutual

/-- Whether `undefined` is assignable to a node at the top level. -/
def admitsUndefined : Schema → Bool
  | primitive .undefined _ => true
  | composite .union members _ => anyAdmitsUndefined members
  | _ => false

/-- Whether `undefined` is assignable to one of the nodes. -/
def anyAdmitsUndefined : List Schema → Bool
  | [] => false
  | node :: rest => node.admitsUndefined || anyAdmitsUndefined rest

end

/-- The bare `undefined` node. -/
def undefinedNode : Schema := primitive .undefined {}

/-- The union of a node and `undefined`; a node that admits `undefined` stays as it is. -/
def toOptional (node : Schema) : Schema :=
  if node.admitsUndefined then node else composite .union [node, undefinedNode] {}

/-- The type of an optional member: `T` if the node is exactly the union of `T` and `undefined`, in
that order. -/
def optionalType? : Schema → Option Schema
  | composite .union [type, primitive .undefined _] _ => some type
  | _ => none

/-- Whether a node is the union that stands for an optional member. -/
def isOptional (node : Schema) : Bool := node.optionalType?.isSome

end TypeSchema.Schema
