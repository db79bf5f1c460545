import Mathlib.Tactic.Lemma
import TypeSchema.Schema.Optional
import TypeSchema.Schema.Traversal

/-!
# What a tree is made of

The nodes of a tree are its root and the nodes of its children. What is read off the nodes one by
one, such as their identifiers, is collected in the same way.
-/

namespace TypeSchema.Schema

lemma preorderList_eq {nodes : List Schema} :
    preorderList nodes = nodes.flatMap preorder := by
  induction nodes with
  | nil => rfl
  | cons node nodes ih => rw [preorderList, ih, List.flatMap_cons]

lemma preorderProperties_eq {properties : List (String × Schema)} :
    preorderProperties properties = (properties.map (·.2)).flatMap preorder := by
  induction properties with
  | nil => rfl
  | cons property properties ih =>
    rw [preorderProperties, ih, List.map_cons, List.flatMap_cons]

/-- The nodes of a tree are its root and the nodes of its children. -/
theorem preorder_eq (node : Schema) :
    node.preorder = node :: node.children.flatMap preorder := by
  cases node with
  | primitive => rw [preorder]; rfl
  | literal => rw [preorder]; rfl
  | reference => rw [preorder]; rfl
  | object => rw [preorder, preorderProperties_eq]; rfl
  | array => rw [preorder]; simp [children]
  | tuple => rw [preorder, preorderList_eq]; rfl
  | composite => rw [preorder, preorderList_eq]; rfl
  | record => rw [preorder]; simp [children]
  | function => rw [preorder, preorderList_eq]; simp [children]

@[simp] lemma children_withInfo {info : NodeInfo} {node : Schema} :
    (node.withInfo info).children = node.children := by
  cases node <;> rfl

@[simp] lemma target?_withInfo {info : NodeInfo} {node : Schema} :
    (node.withInfo info).target? = node.target? := by
  cases node <;> rfl

@[simp] lemma identifier_withIdentifier {identifier : Option String} {node : Schema} :
    (node.withIdentifier identifier).identifier = identifier := by
  unfold withIdentifier Schema.identifier
  rw [info_withInfo]

@[simp] lemma identifier_withDescription {description : Option String} {node : Schema} :
    (node.withDescription description).identifier = node.identifier := by
  unfold withDescription Schema.identifier
  rw [info_withInfo]

/-! ## The nodes of a tree -/

lemma sizeOf_children {node child : Schema} (h : child ∈ node.children) :
    sizeOf child < sizeOf node := by
  cases node with
  | primitive => cases h
  | literal => cases h
  | object properties =>
    obtain ⟨property, m, rfl⟩ := List.mem_map.1 h
    have := List.sizeOf_lt_of_mem m
    obtain ⟨name, node⟩ := property
    simp only [Prod.mk.sizeOf_spec, object.sizeOf_spec] at *
    omega
  | array element =>
    cases List.mem_singleton.1 h
    simp only [array.sizeOf_spec]
    omega
  | tuple elements =>
    have : sizeOf child < sizeOf elements := List.sizeOf_lt_of_mem h
    simp only [tuple.sizeOf_spec]
    omega
  | composite connective members =>
    have : sizeOf child < sizeOf members := List.sizeOf_lt_of_mem h
    simp only [composite.sizeOf_spec]
    omega
  | record key value =>
    have h : child = key ∨ child = value := by simpa [children] using h
    rcases h with rfl | rfl <;> simp only [record.sizeOf_spec] <;> omega
  | function arguments returns =>
    simp only [function.sizeOf_spec]
    rcases List.mem_append.1 h with h | h
    · have := List.sizeOf_lt_of_mem h
      omega
    · cases List.mem_singleton.1 h
      omega
  | reference => cases h

/-- Induction on a tree: what holds of a node's children holds of the node. -/
theorem childrenInduction {motive : Schema → Prop}
    (step : ∀ node : Schema, (∀ child ∈ node.children, motive child) → motive node)
    (node : Schema) : motive node := by
  have all : ∀ n (node : Schema), sizeOf node < n → motive node := by
    intro n
    induction n with
    | zero => exact fun _ h => absurd h (Nat.not_lt_zero _)
    | succ n ih =>
      intro node h
      apply step node
      intro child m
      have := sizeOf_children m
      exact ih child (by omega)
  exact all _ node (Nat.lt_succ_self _)

lemma mem_preorder_self {node : Schema} : node ∈ node.preorder := by
  rw [preorder_eq]
  exact List.mem_cons_self

/-- The nodes of a child are nodes of the tree. -/
lemma mem_preorder_of_child {node child inner : Schema} (h : child ∈ node.children)
    (m : inner ∈ child.preorder) : inner ∈ node.preorder := by
  rw [preorder_eq]
  exact List.mem_cons_of_mem _ (List.mem_flatMap.2 ⟨child, h, m⟩)

/-- What holds of every node of a tree holds of its root and of every node of its children. -/
lemma forall_preorder_iff {P : Schema → Prop} {node : Schema} :
    (∀ inner ∈ node.preorder, P inner) ↔
      P node ∧ ∀ child ∈ node.children, ∀ inner ∈ child.preorder, P inner := by
  rw [preorder_eq]
  simp only [List.mem_cons, List.mem_flatMap, forall_eq_or_imp]
  refine and_congr_right fun _ => ⟨fun h child mc inner m => h inner ⟨child, mc, m⟩, ?_⟩
  rintro h inner ⟨child, mc, m⟩
  exact h child mc inner m

/-- The nodes of a tree include those of each of them. -/
lemma preorder_trans {node inner innermost : Schema} (h : inner ∈ node.preorder)
    (h' : innermost ∈ inner.preorder) : innermost ∈ node.preorder := by
  induction node using childrenInduction with
  | step node ih =>
    rw [preorder_eq] at h
    cases h with
    | head => exact h'
    | tail _ h =>
      obtain ⟨child, mc, m⟩ := List.mem_flatMap.1 h
      exact mem_preorder_of_child mc (ih child mc m)

/-- The nodes of a tree without its root. -/
def descendants (node : Schema) : List Schema := node.children.flatMap preorder

lemma mem_preorder_of_descendant {node inner : Schema} (h : inner ∈ node.descendants) :
    inner ∈ node.preorder := by
  rw [preorder_eq]
  exact List.mem_cons_of_mem _ h

/-- The nodes of a child are descendants. -/
lemma mem_descendants_of_child {node child inner : Schema} (h : child ∈ node.children)
    (m : inner ∈ child.preorder) : inner ∈ node.descendants :=
  List.mem_flatMap.2 ⟨child, h, m⟩

/-- The nodes of the tree of a descendant are descendants. -/
lemma descendants_trans {node inner innermost : Schema} (h : inner ∈ node.descendants)
    (h' : innermost ∈ inner.preorder) : innermost ∈ node.descendants := by
  obtain ⟨child, mc, m⟩ := List.mem_flatMap.1 h
  exact mem_descendants_of_child mc (preorder_trans m h')

@[simp] lemma descendants_withInfo {info : NodeInfo} {node : Schema} :
    (node.withInfo info).descendants = node.descendants := by
  unfold descendants
  rw [children_withInfo]

/-- The descendants of a node are descendants of the optional node. -/
lemma mem_descendants_toOptional {node inner : Schema} (h : inner ∈ node.descendants) :
    inner ∈ node.toOptional.descendants := by
  unfold toOptional
  split
  case isTrue => exact h
  case isFalse => exact mem_descendants_of_child List.mem_cons_self (mem_preorder_of_descendant h)

/-- The identifiers of nodes are identifiers of the tree. -/
lemma mem_identifiers {node inner : Schema} {identifier : String} (h : inner ∈ node.preorder)
    (e : inner.identifier = some identifier) : identifier ∈ node.identifiers :=
  List.mem_filterMap.2 ⟨inner, h, e⟩

/-! ## Collecting -/

variable {α : Type} {f : Schema → Option α}

/-- What is read off the nodes of a tree, in order. -/
def collect (f : Schema → Option α) (node : Schema) : List α := node.preorder.filterMap f

lemma identifiers_eq_collect {node : Schema} : node.identifiers = node.collect identifier := rfl

lemma references_eq_collect {node : Schema} : node.references = node.collect target? := rfl

/-- What is collected in a tree is read off its root and collected in its children. -/
theorem collect_eq (node : Schema) :
    node.collect f = (f node).toList ++ node.children.flatMap (collect f) := by
  unfold collect
  rw [preorder_eq, List.filterMap_cons, List.filterMap_flatMap]
  cases f node <;> rfl

/-- What is read off nodes does not depend on descriptions, and is nothing unless a node has an
identifier or a target. -/
structure Mark (f : Schema → Option α) : Prop where
  plain : ∀ node, node.identifier = none → node.target? = none → f node = none
  withDescription : ∀ node description, f (node.withDescription description) = f node

lemma mark_identifier : Mark identifier :=
  ⟨fun _ h _ => h, fun _ _ => identifier_withDescription⟩

lemma mark_target? : Mark target? :=
  ⟨fun _ _ h => h, fun _ _ => target?_withInfo⟩

/-- Of a plain node only its children count. -/
lemma Mark.collect_of_plain (m : Mark f) {node : Schema} (h : node.identifier = none)
    (h' : node.target? = none) : node.collect f = node.children.flatMap (collect f) := by
  rw [collect_eq, m.plain node h h']
  rfl

lemma Mark.collect_withDescription (m : Mark f) {node : Schema} {description : Option String} :
    (node.withDescription description).collect f = node.collect f := by
  rw [collect_eq, collect_eq, m.withDescription]
  unfold Schema.withDescription
  rw [children_withInfo]

/-- Nothing is collected in the union that makes a node optional, beside the node. -/
lemma Mark.collect_toOptional (m : Mark f) {node : Schema} :
    node.toOptional.collect f = node.collect f := by
  unfold toOptional
  split
  case isTrue => rfl
  case isFalse =>
    have u : undefinedNode.collect f = [] := m.collect_of_plain rfl rfl
    rw [m.collect_of_plain rfl rfl]
    simp [children, u]

end TypeSchema.Schema
