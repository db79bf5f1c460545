import TypeSchema.Proofs.Schema.Equality
import TypeSchema.Schema.Construction

/-!
# Constructed trees

The trees that can be built by the functions of construction, whatever options they are given, are
the well-formed ones.
-/

namespace TypeSchema.Schema

/-- The trees that construction makes. -/
inductive Constructed : Schema → Prop
  | primitive (type : Primitive) : Constructed (ofPrimitive type)
  | literal (value : Literal) : Constructed (ofLiteral value)
  | object {properties node} :
    (∀ property ∈ properties, Constructed property.2) →
    ofProperties properties = .ok node →
    Constructed node
  | array {element} :
    Constructed element →
    Constructed (arrayOf element)
  | tuple {elements} :
    (∀ element ∈ elements, Constructed element) →
    Constructed (tupleOf elements)
  | composite {connective members node} :
    (∀ member ∈ members, Constructed member) →
    compositeOf connective members = .ok node →
    Constructed node
  | record {key value} :
    Constructed key →
    Constructed value →
    Constructed (recordOf key value)
  | function {arguments returns} :
    (∀ argument ∈ arguments, Constructed argument) →
    Constructed returns →
    Constructed (functionOf arguments returns)
  | reference {target node} :
    referenceTo target = .ok node →
    Constructed node
  | options {node} (options : BuildOptions) :
    Constructed node →
    Constructed (options.apply node)
  | description {node} (description : Option String) :
    Constructed node →
    Constructed (node.withDescription description)
  | identifier {node} (identifier : Option String) :
    Constructed node →
    Constructed (node.withIdentifier identifier)

variable {node : Schema}

lemma WellFormed.of_children (w : node.RootWellFormed)
    (h : ∀ child ∈ node.children, child.WellFormed) : node.WellFormed :=
  forall_preorder_iff.2 ⟨w, h⟩

lemma WellFormed.child {child : Schema} (w : node.WellFormed) (m : child ∈ node.children) :
    child.WellFormed := (forall_preorder_iff.1 w).2 child m

/-- Information makes no difference to being well-formed. -/
lemma WellFormed.withInfo (w : node.WellFormed) (info : NodeInfo) :
    (node.withInfo info).WellFormed := by
  apply WellFormed.of_children
  · have root := w.root
    cases node <;> exact root
  · rw [children_withInfo]
    exact fun child m => w.child m

lemma WellFormed.toOptional (w : node.WellFormed) : node.toOptional.WellFormed := by
  unfold Schema.toOptional
  split_ifs
  · exact w
  · refine .of_children (Nat.le_refl 2) fun child m => ?_
    obtain rfl | rfl : child = node ∨ child = undefinedNode := by simpa [children] using m
    · exact w
    · exact .of_children trivial fun _ m => absurd m List.not_mem_nil

lemma WellFormed.apply (w : node.WellFormed) (options : BuildOptions) :
    (options.apply node).WellFormed := by
  have named : (node.withIdentifier options.identifier).WellFormed := w.withInfo _
  have member : (if options.isOptional then (node.withIdentifier options.identifier).toOptional
      else node.withIdentifier options.identifier).WellFormed := by
    split_ifs
    · exact named.toOptional
    · exact named
  unfold BuildOptions.apply
  dsimp only
  split
  · exact member.withInfo _
  · exact member

/-- What is constructed is well-formed. -/
lemma Constructed.wellFormed (c : node.Constructed) : node.WellFormed := by
  induction c with
  | primitive => exact .of_children trivial fun _ m => absurd m List.not_mem_nil
  | literal => exact .of_children trivial fun _ m => absurd m List.not_mem_nil
  | object _ made ih =>
    unfold ofProperties at made
    split at made
    · cases made
    · rename_i once
      cases made
      refine .of_children (firstRepeated?_eq_none.1 once).1 fun child m => ?_
      obtain ⟨property, mp, rfl⟩ := List.mem_map.1 m
      exact ih property mp
  | array _ ih =>
    refine .of_children trivial fun child m => ?_
    cases List.mem_singleton.1 m
    exact ih
  | tuple _ ih => exact .of_children trivial ih
  | composite _ made ih =>
    unfold compositeOf at made
    split_ifs at made with few
    cases made
    exact .of_children (Nat.le_of_not_lt few) ih
  | record _ _ ihk ihv =>
    refine .of_children trivial fun child m => ?_
    obtain rfl | rfl : child = _ ∨ child = _ := by simpa [children, recordOf] using m
    · exact ihk
    · exact ihv
  | function _ _ iha ihr =>
    refine .of_children trivial fun child m => ?_
    cases List.mem_append.1 m with
    | inl m => exact iha child m
    | inr m =>
      cases List.mem_singleton.1 m
      exact ihr
  | reference made =>
    unfold referenceTo at made
    split_ifs at made with empty
    cases made
    exact .of_children empty fun _ m => absurd m List.not_mem_nil
  | options options _ ih => exact ih.apply options
  | description _ _ ih => exact ih.withInfo _
  | identifier _ _ ih => exact ih.withInfo _

/-- A tree whose root is constructed without information is constructed with any. -/
lemma Constructed.withInfo (c : (node.withInfo {}).Constructed) : node.Constructed := by
  have all := (c.description node.description).identifier node.identifier
  cases node <;> exact all

/-- The constructed trees are the well-formed ones. -/
theorem constructed_iff_wellFormed : node.Constructed ↔ node.WellFormed := by
  constructor
  · exact Constructed.wellFormed
  intro w
  induction node using childrenInduction with
  | step node ih =>
    have ih : ∀ child ∈ node.children, child.Constructed := fun child m => ih child m (w.child m)
    apply Constructed.withInfo
    cases node with
    | primitive type => exact .primitive type
    | literal value => exact .literal value
    | object properties =>
      refine .object (fun property m => ih property.2 (List.mem_map_of_mem m)) ?_
      rw [ofProperties, firstRepeated?_eq_none.2 ⟨w.root, fun _ _ m => absurd m List.not_mem_nil⟩]
      rfl
    | array element => exact .array (ih element List.mem_cons_self)
    | tuple elements => exact .tuple ih
    | composite connective members => exact .composite ih (if_neg (Nat.not_lt.2 w.root))
    | record key value =>
      exact .record (ih key List.mem_cons_self)
        (ih value (List.mem_cons_of_mem _ List.mem_cons_self))
    | function arguments returns =>
      exact .function (fun argument m => ih argument (List.mem_append_left _ m))
        (ih returns (List.mem_append_right _ List.mem_cons_self))
    | reference target => exact .reference (if_neg w.root)

end TypeSchema.Schema
