import TypeSchema.Schema.Traversal

/-!
# Well-formed schema trees

What construction guarantees of a node, and of every node of a tree: composites have at least two
members, references have a target, and no object has two properties of one name.
-/

namespace TypeSchema.Schema

/-- What construction guarantees of the node itself, its children left aside. -/
def RootWellFormed : Schema → Prop
  | object properties _ => (properties.map (·.1)).Nodup
  | composite _ members _ => 2 ≤ members.length
  | reference target _ => target ≠ ""
  | _ => True

/-- What construction guarantees of every node of a tree. -/
def WellFormed (node : Schema) : Prop := ∀ part ∈ node.preorder, part.RootWellFormed

instance : DecidablePred RootWellFormed := fun node => by
  cases node <;> unfold RootWellFormed <;> infer_instance

instance : DecidablePred WellFormed := fun node =>
  inferInstanceAs (Decidable (∀ part ∈ node.preorder, part.RootWellFormed))

end TypeSchema.Schema
