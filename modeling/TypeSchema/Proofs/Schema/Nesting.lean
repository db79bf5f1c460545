import TypeSchema.Proofs.Schema.Traversal

/-!
# Nesting of serialized nodes
-/

namespace TypeSchema.Schema

mutual

/-- The greatest number of JSON objects and arrays of the serialized form that are inside of each
other: an object for every node, and around its members the shape or list that holds them. -/
def nesting : Schema → Nat
  | primitive .. | literal .. | reference .. => 1
  | object properties _ => nestingProperties properties + 2
  | array element _ => element.nesting + 2
  | tuple elements _ => nestingList elements + 2
  | composite _ members _ => nestingList members + 2
  | record key value _ => max key.nesting value.nesting + 1
  | function arguments returns _ => max (nestingList arguments + 1) returns.nesting + 1

/-- The greatest nesting in a list of nodes. -/
def nestingList : List Schema → Nat
  | [] => 0
  | node :: rest => max node.nesting (nestingList rest)

/-- The greatest nesting among the values of a list of properties. -/
def nestingProperties : List (String × Schema) → Nat
  | [] => 0
  | (_, node) :: rest => max node.nesting (nestingProperties rest)

end

lemma nestingList_le_iff {nodes : List Schema} {bound : Nat} :
    nestingList nodes ≤ bound ↔ ∀ node ∈ nodes, node.nesting ≤ bound := by
  induction nodes with
  | nil => simp [nestingList]
  | cons node nodes ih => rw [nestingList, List.forall_mem_cons, Nat.max_le, ih]

lemma nestingProperties_le_iff {properties : List (String × Schema)} {bound : Nat} :
    nestingProperties properties ≤ bound ↔
      ∀ property ∈ properties, property.2.nesting ≤ bound := by
  induction properties with
  | nil => simp [nestingProperties]
  | cons property properties ih =>
    obtain ⟨name, node⟩ := property
    rw [nestingProperties, List.forall_mem_cons, Nat.max_le, ih]

/-- Every node is an object. -/
lemma one_le_nesting (node : Schema) : 1 ≤ node.nesting := by
  cases node <;> simp only [nesting] <;> omega

end TypeSchema.Schema
