import TypeSchema.Proofs.Export.Body
import TypeSchema.Proofs.Schema.Sharing

/-!
# Parts of nodes whose children are changed

A change of nodes that commutes with splitting optional members commutes with taking the parts of a
node: where the children are changed, so are the parts.
-/

namespace TypeSchema.Schema

variable {f : Schema → Schema} {node : Schema} {nodes : List Schema}

/-- The members of a node are split after the change as they are before it. -/
def KeepsSplit (f : Schema → Schema) (nodes : List Schema) : Prop :=
  ∀ node ∈ nodes, (f node).splitOptional = node.splitOptional.map f id

/-- The type of an optional member is changed with the member, where the marks of being optional
stay what they are and no other node becomes one. -/
lemma optionalType?_map {connective : Connective} {members : List Schema} {info info' : NodeInfo}
    (marks : connective = .union → members.length = 2 → ∀ last ∈ members,
      ((∃ mark, f last = primitive .undefined mark) ↔ ∃ mark, last = primitive .undefined mark)) :
    (composite connective (members.map f) info').optionalType? =
      (composite connective members info).optionalType?.map f := by
  refine Option.ext fun type => ?_
  rw [optionalType?_eq_some, Option.map_eq_some_iff]
  constructor
  · rintro ⟨mark, _, e⟩
    injection e with union pair
    obtain ⟨first, rest, rfl, rfl, single⟩ := List.map_eq_cons_iff.1 pair
    obtain ⟨last, none, rfl, u, empty⟩ := List.map_eq_cons_iff.1 single
    obtain rfl := List.map_eq_nil_iff.1 empty
    obtain ⟨mark', rfl⟩ := (marks union rfl last (by simp)).1 ⟨mark, u⟩
    exact ⟨first, optionalType?_eq_some.2 ⟨mark', info, by rw [union]⟩, rfl⟩
  · rintro ⟨first, e, rfl⟩
    obtain ⟨mark, _, e⟩ := optionalType?_eq_some.1 e
    cases e
    obtain ⟨mark', u⟩ := (marks rfl rfl (.primitive .undefined mark) (by simp)).2 ⟨mark, rfl⟩
    exact ⟨mark', info', by rw [List.map_cons, List.map_singleton, u]⟩

lemma splitRun_map (h : KeepsSplit f nodes) :
    splitRun (nodes.map f) = ((splitRun nodes).1.map (Prod.map f id), (splitRun nodes).2) := by
  induction nodes with
  | nil => rfl
  | cons node nodes ih =>
    have first := h node List.mem_cons_self
    have rest := ih fun node m => h node (List.mem_cons_of_mem _ m)
    simp only [List.map_cons, splitRun, rest, first, Prod.map_snd, id]
    split <;> rfl

lemma splitTrailing_map (h : KeepsSplit f nodes) :
    splitTrailing (nodes.map f) = (splitTrailing nodes).map (Prod.map f id) :=
  congrArg Prod.fst (splitRun_map h)

/-- The values of properties are replaced in their order. -/
lemma zipWith_values {properties : List (String × Schema)} :
    properties.zipWith (fun property node => (property.1, node))
      ((properties.map (·.2)).map f) = properties.map (Prod.map id f) := by
  induction properties with
  | nil => rfl
  | cons property properties ih => exact congrArg ((property.1, f property.2) :: ·) ih

/-- Changing the children of a node changes its parts. -/
theorem parts_withChildren (h : KeepsSplit f node.children) :
    (node.withChildren (node.children.map f)).parts = node.parts.map (Prod.map f id) := by
  cases node with
  | primitive => rfl
  | literal => rfl
  | object properties info =>
    rw [children, withChildren, zipWith_values]
    simp only [parts, List.map_map]
    refine List.map_congr_left fun property m => ?_
    exact h property.2 (List.mem_map_of_mem m)
  | array => rfl
  | tuple => exact splitTrailing_map h
  | composite connective members info =>
    show ((members.map f).map fun member => (member, false)) = _
    simp only [parts, List.map_map]
    rfl
  | record => rfl
  | function arguments returns info =>
    have split : KeepsSplit f arguments := fun node m => h node (List.mem_append_left _ m)
    simp [children, withChildren, parts, splitTrailing_map split]
  | reference => rfl

end TypeSchema.Schema
