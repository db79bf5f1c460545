import TypeSchema.Proofs.Schema.Equality
import TypeSchema.Proofs.Schema.Resemblance

/-!
# Paths in a schema tree

A node of a tree is reached from the root by steps to children: to a property by its name, to any
other child by its position. Trees that are the same have the same paths, as the order of properties
does not matter to either.
-/

namespace TypeSchema.Schema

/-- A step from a node to one of its children. -/
inductive Step where
  | property (name : String)
  /-- To a child that is no property. -/
  | position (index : Nat)

/-- The child that a step leads to. -/
def child? : Schema → Step → Option Schema
  | object properties _, .property name => properties.lookup name
  | object .., .position _ => none
  | _, .property _ => none
  | node, .position index => node.children[index]?

/-- The node at the end of a path. -/
def at? : Schema → List Step → Option Schema
  | node, [] => some node
  | node, step :: path => (node.child? step).bind (at? · path)

variable {a b node child inner : Schema} {step : Step} {path : List Step}

lemma at?_cons :
    node.at? (step :: path) = some inner ↔
      ∃ child, node.child? step = some child ∧ child.at? path = some inner :=
  Option.bind_eq_some_iff

lemma at?_singleton : node.at? [step] = node.child? step := by
  unfold at?
  cases node.child? step <;> rfl

@[simp] lemma child?_withInfo {info : NodeInfo} :
    (node.withInfo info).child? step = node.child? step := by
  cases node <;> cases step <;> rfl

lemma child?_withoutDescriptions :
    node.withoutDescriptions.child? step = (node.child? step).map withoutDescriptions := by
  cases step with
  | position index =>
    have positions : node.withoutDescriptions.children[index]? =
        node.children[index]?.map withoutDescriptions := by
      rw [children_withoutDescriptions, List.getElem?_map]
    cases node with
    | object => rfl
    | _ => exact positions
  | property name =>
    cases node with
    | object properties =>
      show (withoutDescriptionsProperties properties).lookup name = _
      induction properties with
      | nil => rfl
      | cons property properties ih =>
        obtain ⟨first, node⟩ := property
        simp only [withoutDescriptionsProperties, child?, List.lookup_cons] at ih ⊢
        split
        · rfl
        · exact ih
    | _ => rfl

/-- A step leads to a child. -/
lemma mem_children_of_child? (e : node.child? step = some child) : child ∈ node.children := by
  cases step with
  | position index =>
    cases node with
    | object => cases e
    | _ => exact List.mem_of_getElem? e
  | property name =>
    cases node with
    | object => exact List.mem_map_of_mem (f := (·.2)) (mem_of_lookup e)
    | _ => cases e

/-- A step leads to every child, if no property hides another. -/
lemma exists_child?_eq_some (w : node.RootWellFormed) (m : child ∈ node.children) :
    ∃ step, node.child? step = some child := by
  cases node with
  | object =>
    obtain ⟨⟨name, _⟩, mp, rfl⟩ := List.mem_map.1 m
    exact ⟨.property name, lookup_of_mem w mp⟩
  | _ =>
    obtain ⟨index, e⟩ := List.mem_iff_getElem?.1 m
    exact ⟨.position index, e⟩

/-- The nodes of a well-formed tree are those at the ends of its paths. -/
theorem mem_preorder_iff_at? (w : node.WellFormed) :
    inner ∈ node.preorder ↔ ∃ path, node.at? path = some inner := by
  constructor
  · intro m
    induction node using childrenInduction with
    | step node ih =>
      rw [preorder_eq] at m
      cases m with
      | head => exact ⟨[], rfl⟩
      | tail _ m =>
        obtain ⟨child, mc, m⟩ := List.mem_flatMap.1 m
        obtain ⟨step, e⟩ := exists_child?_eq_some w.root mc
        obtain ⟨path, e'⟩ := ih child mc (w.of_child mc) m
        exact ⟨step :: path, at?_cons.2 ⟨child, e, e'⟩⟩
  · rintro ⟨path, e⟩
    induction path generalizing node with
    | nil =>
      cases e
      exact mem_preorder_self
    | cons step path ih =>
      obtain ⟨child, e, e'⟩ := at?_cons.1 e
      have mc := mem_children_of_child? e
      exact mem_preorder_of_child mc (ih (w.of_child mc) e')

/-- A property has its counterpart of that name. -/
lemma lookup_of_sameProperties {properties others : List (String × Schema)} {name : String}
    (h : sameProperties properties others = true) (e : properties.lookup name = some a) :
    ∃ b, others.lookup name = some b ∧ a.same b = true := by
  induction properties with
  | nil => cases e
  | cons property properties ih =>
    obtain ⟨first, node⟩ := property
    simp only [sameProperties, Bool.and_eq_true] at h
    rw [List.lookup_cons] at e
    cases eq : name == first with
    | false =>
      rw [eq] at e
      exact ih h.2 e
    | true =>
      rw [eq] at e
      obtain rfl := Option.some.inj e
      obtain rfl := beq_iff_eq.1 eq
      cases found : others.lookup name with
      | none => simp [found] at h
      | some other =>
        rw [found] at h
        exact ⟨other, rfl, h.1⟩

/-- In trees that are the same a step leads to nodes that are the same. -/
theorem child?_of_same (h : a.same b = true) (e : a.child? step = some child) :
    ∃ child', b.child? step = some child' ∧ child.same child' = true := by
  have list : ∀ {as bs : List Schema} {index : Nat},
      List.Forall₂ (fun x y : Schema => x.same y = true) as bs → as[index]? = some child →
      ∃ child', bs[index]? = some child' ∧ child.same child' = true :=
    fun all e => getElem?_of_forall₂ all e
  cases a <;> cases b <;> simp only [same, Bool.false_eq_true] at h
  all_goals simp only [Bool.and_eq_true, beq_iff_eq] at h
  all_goals cases step
  case object.object.property => exact lookup_of_sameProperties h.1.2 e
  case array.array.position => exact list (.cons h.1 .nil) e
  case tuple.tuple.position => exact list (sameList_iff.1 h.1) e
  case composite.composite.position => exact list (sameList_iff.1 h.1.2) e
  case record.record.position => exact list (.cons h.1.1 (.cons h.1.2 .nil)) e
  case function.function.position =>
    exact list (List.rel_append (sameList_iff.1 h.1.1) (.cons h.1.2 .nil)) e
  all_goals cases e

end TypeSchema.Schema
