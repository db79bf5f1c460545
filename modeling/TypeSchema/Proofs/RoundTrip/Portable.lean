import TypeSchema.Proofs.Export.Declared
import TypeSchema.Proofs.Schema.Height
import TypeSchema.Proofs.Schema.Sharing
import TypeSchema.Schema.WellFormed

/-!
# Portable trees

A tree is portable when it can be exported, lowered and imported again. Nothing is lost on the way
but what declarations cannot say: an identified root that nothing refers to has no identifier
afterwards, and the later copies of an identified subtree are references. `ported` is the tree that
comes back.
-/

namespace TypeSchema.Schema

/-- The kinds of node that may carry an identifier. -/
def mayBeIdentified : Schema → Prop
  | object .. | array .. | tuple .. | composite .. | record .. | function .. => True
  | _ => False

/-- Every reference in a list of nodes names a `known` identifier, or one that is carried by an
earlier node of the list. -/
def Scoped (known : List String) : List Schema → Prop
  | [] => True
  | node :: rest =>
    (∀ target, node.target? = some target → target ∈ known) ∧
      Scoped (node.identifier.toList ++ known) rest

/-- The nodes of the types that index signatures range over. -/
def IsIndexKey : Schema → Prop
  | primitive .string _ | primitive .number _ => True
  | _ => False

/-- A union of `string` and `number`. -/
def IsKeyUnion : Schema → Prop
  | composite .union members _ => ∀ member ∈ members, member.IsIndexKey
  | _ => False

/-- The key of a record in the tree: `string`, `number`, a union of them, or a reference to one. -/
def IsRecordKey (root key : Schema) : Prop :=
  key.IsIndexKey ∨ key.IsKeyUnion ∨
    ∃ target, key.target? = some target ∧
      ∃ host ∈ root.preorder, host.identifier = some target ∧ host.IsKeyUnion

/-- The members of a node that may be optional: properties, elements of tuples and arguments. -/
def optionalPlaces : Schema → List Schema
  | object properties _ => properties.map (·.2)
  | tuple elements _ => elements
  | function arguments _ _ => arguments
  | _ => []

/-- What a tree has to be to come back from declarations of it. -/
structure Portable (name : String) (root : Schema) : Prop where
  wellFormed : root.WellFormed
  /-- Identifiers are names of nodes that have parts. -/
  identified : ∀ node ∈ root.preorder, ∀ identifier, node.identifier = some identifier →
    identifier ≠ "" ∧ node.mayBeIdentified
  unambiguous : root.Unambiguous
  ordered : Scoped [] root.preorder
  finite : ∀ node ∈ root.preorder, ∀ number info, node = literal (.number number) info →
    number.isFinite = true
  keys : ∀ node ∈ root.preorder, ∀ key value info, node = record key value info →
    root.IsRecordKey key
  /-- No optional member is of a type that admits `undefined` itself. -/
  optional : ∀ node ∈ root.preorder, ∀ place ∈ node.optionalPlaces, place.identifier = none →
    ∀ type, place.optionalType? = some type → type.admitsUndefined = false
  /-- The name is not that of another node. -/
  free : root.identifier = none → name ∉ root.identifiers
  height : root.height ≤ 250
  size : root.preorder.length ≤ 100000

/-- The tree that comes back. -/
def ported (root : Schema) : Schema :=
  let shared := (root.share []).1
  match root.identifier with
  | some identifier =>
    if identifier ∈ root.references then shared else shared.withIdentifier none
  | none => shared

end TypeSchema.Schema
