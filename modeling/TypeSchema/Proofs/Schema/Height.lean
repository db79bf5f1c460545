import TypeSchema.Proofs.Schema.Traversal

/-!
# The height of a tree
-/

namespace TypeSchema.Schema

mutual

/-- The number of nodes on the longest way from the root to a leaf. -/
def height : Schema → Nat
  | primitive .. | literal .. | reference .. => 1
  | object properties _ => heightProperties properties + 1
  | array element _ => element.height + 1
  | tuple elements _ => heightList elements + 1
  | composite _ members _ => heightList members + 1
  | record key value _ => max key.height value.height + 1
  | function arguments returns _ => max (heightList arguments) returns.height + 1

/-- The greatest height in a list of trees. -/
def heightList : List Schema → Nat
  | [] => 0
  | node :: rest => max node.height (heightList rest)

/-- The greatest height among the values of a list of properties. -/
def heightProperties : List (String × Schema) → Nat
  | [] => 0
  | (_, node) :: rest => max node.height (heightProperties rest)

end

variable {node child inner : Schema}

lemma height_le_heightList {nodes : List Schema} (m : node ∈ nodes) :
    node.height ≤ heightList nodes := by
  induction nodes with
  | nil => cases m
  | cons first rest ih =>
    rw [heightList]
    cases m with
    | head => exact Nat.le_max_left _ _
    | tail _ m => exact Nat.le_trans (ih m) (Nat.le_max_right _ _)

lemma heightList_lt {nodes : List Schema} {bound : Nat} (pos : 0 < bound)
    (h : ∀ node ∈ nodes, node.height < bound) : heightList nodes < bound := by
  induction nodes with
  | nil => exact pos
  | cons node nodes ih =>
    rw [heightList]
    exact Nat.max_lt.2
      ⟨h node List.mem_cons_self, ih fun node m => h node (List.mem_cons_of_mem _ m)⟩

lemma height_le_heightProperties {properties : List (String × Schema)}
    {property : String × Schema} (m : property ∈ properties) :
    property.2.height ≤ heightProperties properties := by
  induction properties with
  | nil => cases m
  | cons first rest ih =>
    rw [heightProperties]
    cases m with
    | head => exact Nat.le_max_left _ _
    | tail _ m => exact Nat.le_trans (ih m) (Nat.le_max_right _ _)

/-- A child is less high than its parent. -/
lemma height_of_child (m : child ∈ node.children) : child.height < node.height := by
  cases node with
  | primitive => cases m
  | literal => cases m
  | object properties =>
    obtain ⟨property, mp, rfl⟩ := List.mem_map.1 m
    rw [height]
    exact Nat.lt_succ_of_le (height_le_heightProperties mp)
  | array element =>
    obtain rfl := List.mem_singleton.1 m
    rw [height]
    exact Nat.lt_succ_self _
  | tuple elements =>
    rw [height]
    exact Nat.lt_succ_of_le (height_le_heightList m)
  | composite connective members =>
    rw [height]
    exact Nat.lt_succ_of_le (height_le_heightList m)
  | record key value =>
    have m : child = key ∨ child = value := by simpa [children] using m
    rw [height]
    rcases m with rfl | rfl <;> omega
  | function arguments returns =>
    rw [height]
    rcases List.mem_append.1 m with m | m
    · have := height_le_heightList m
      omega
    · obtain rfl := List.mem_singleton.1 m
      omega
  | reference => cases m

lemma height_pos : 0 < node.height := by
  cases node <;> rw [height] <;> omega

/-- No node of a tree is higher than the tree. -/
lemma height_of_mem (m : inner ∈ node.preorder) : inner.height ≤ node.height := by
  induction node using childrenInduction with
  | step node ih =>
    rw [preorder_eq] at m
    cases m with
    | head => exact Nat.le_refl _
    | tail _ m =>
      obtain ⟨child, mc, m⟩ := List.mem_flatMap.1 m
      exact Nat.le_of_lt (Nat.lt_of_le_of_lt (ih child mc m) (height_of_child mc))

/-- No node of a tree is larger than the tree. -/
lemma sizeOf_of_mem (m : inner ∈ node.preorder) : sizeOf inner ≤ sizeOf node := by
  induction node using childrenInduction with
  | step node ih =>
    rw [preorder_eq] at m
    cases m with
    | head => exact Nat.le_refl _
    | tail _ m =>
      obtain ⟨child, mc, m⟩ := List.mem_flatMap.1 m
      exact Nat.le_of_lt (Nat.lt_of_le_of_lt (ih child mc m) (sizeOf_children mc))

end TypeSchema.Schema
