import Mathlib.Data.List.Forall2
import TypeSchema.Proofs.Import.Rules
import TypeSchema.Proofs.Schema.Sharing

/-!
# Trees that differ in descriptions alone

Trees resemble each other when they are equal once their descriptions are cleared. Putting trees
that resemble each other in the same places gives trees that do so as well.
-/

namespace TypeSchema.Schema

/-- The trees are equal but for their descriptions. -/
def Resembles (a b : Schema) : Prop := a.withoutDescriptions = b.withoutDescriptions

variable {a b c node : Schema} {nodes others : List Schema}

lemma Resembles.refl (a : Schema) : a.Resembles a := rfl

lemma Resembles.symm (h : a.Resembles b) : b.Resembles a := Eq.symm h

lemma Resembles.trans (h : a.Resembles b) (h' : b.Resembles c) : a.Resembles c := Eq.trans h h'

lemma withoutDescriptionsList_eq :
    withoutDescriptionsList nodes = nodes.map withoutDescriptions := by
  induction nodes with
  | nil => rfl
  | cons node nodes ih => rw [withoutDescriptionsList, ih, List.map_cons]

lemma withoutDescriptionsProperties_zipWith {properties : List (String × Schema)} :
    withoutDescriptionsProperties
        (properties.zipWith (fun property node => (property.1, node)) nodes) =
      properties.zipWith (fun property node => (property.1, node))
        (nodes.map withoutDescriptions) := by
  induction properties generalizing nodes with
  | nil => rfl
  | cons property properties ih =>
    cases nodes with
    | nil => rfl
    | cons node nodes => simp [withoutDescriptionsProperties, ih]

/-- A node that is given its own children stays as it is. -/
lemma withChildren_children (node : Schema) : node.withChildren node.children = node := by
  cases node with
  | object properties info =>
    have e : ∀ properties : List (String × Schema),
        properties.zipWith (fun property node => (property.1, node)) (properties.map (·.2)) =
          properties := by
      intro properties
      induction properties with
      | nil => rfl
      | cons property properties ih => exact congrArg (property :: ·) ih
    exact congrArg (object · info) (e properties)
  | function => simp [withChildren, children]
  | _ => rfl

/-- Descriptions are cleared in a node and in its children. -/
lemma withoutDescriptions_withChildren (l : nodes.length = node.children.length) :
    (node.withChildren nodes).withoutDescriptions =
      (node.withDescription none).withChildren (nodes.map withoutDescriptions) := by
  cases node with
  | primitive => rfl
  | literal => rfl
  | object properties info =>
    rw [withChildren, withoutDescriptions, withoutDescriptionsProperties_zipWith]
    rfl
  | array element info =>
    obtain ⟨element, rfl⟩ := List.length_eq_one_iff.1 l
    rfl
  | tuple =>
    rw [withChildren, withoutDescriptions, withoutDescriptionsList_eq]
    rfl
  | composite =>
    rw [withChildren, withoutDescriptions, withoutDescriptionsList_eq]
    rfl
  | record =>
    obtain ⟨key', value', rfl⟩ := List.length_eq_two.1 l
    rfl
  | function arguments returns info =>
    have ne : nodes ≠ [] := by
      rintro rfl
      simp [children] at l
    rw [withChildren, withoutDescriptions, withoutDescriptionsList_eq]
    show function _ _ _ = function _ _ _
    rw [List.map_dropLast, List.getLastD_eq_getLast?, List.getLastD_eq_getLast?, List.getLast?_map,
      List.getLast?_eq_some_getLast ne]
    rfl
  | reference => rfl

lemma withoutDescriptions_eq (node : Schema) :
    node.withoutDescriptions =
      (node.withDescription none).withChildren (node.children.map withoutDescriptions) := by
  conv_lhs => rw [← withChildren_children node]
  exact withoutDescriptions_withChildren rfl

lemma map_withoutDescriptions (h : List.Forall₂ Resembles nodes others) :
    nodes.map withoutDescriptions = others.map withoutDescriptions := by
  induction h with
  | nil => rfl
  | cons e _ ih => rw [List.map_cons, List.map_cons, e, ih]

/-- Children that resemble each other make a node into trees that do so as well. -/
lemma Resembles.withChildren (l : nodes.length = node.children.length)
    (h : List.Forall₂ Resembles nodes others) :
    (node.withChildren nodes).Resembles (node.withChildren others) := by
  unfold Resembles
  rw [withoutDescriptions_withChildren l, withoutDescriptions_withChildren (h.length_eq ▸ l),
    map_withoutDescriptions h]

/-- An identifier has no part in descriptions. -/
lemma Resembles.withIdentifier (h : a.Resembles b) (identifier : Option String) :
    (a.withIdentifier identifier).Resembles (b.withIdentifier identifier) := by
  have e : ∀ node : Schema, (node.withIdentifier identifier).withoutDescriptions =
      node.withoutDescriptions.withIdentifier identifier := by
    intro node
    cases node <;> rfl
  unfold Resembles
  rw [e, e, h]

/-! ## Optional members -/

@[simp] lemma children_withoutDescriptions :
    node.withoutDescriptions.children = node.children.map withoutDescriptions := by
  rw [withoutDescriptions_eq, children_withChildren]
  simp [withDescription]

@[simp] lemma kind_withoutDescriptions : node.withoutDescriptions.kind = node.kind := by
  rw [withoutDescriptions_eq, kind_withChildren]
  simp [withDescription]

@[simp] lemma identifier_withoutDescriptions :
    node.withoutDescriptions.identifier = node.identifier := by
  rw [withoutDescriptions_eq, identifier_withChildren, identifier_withDescription]

@[simp] lemma target?_withoutDescriptions :
    node.withoutDescriptions.target? = node.target? := by
  rw [withoutDescriptions_eq, target?_withChildren]
  exact target?_withInfo

/-- Descriptions do not matter for what a node admits. -/
@[simp] lemma admitsUndefined_withoutDescriptions :
    node.withoutDescriptions.admitsUndefined = node.admitsUndefined := by
  induction node using childrenInduction with
  | step node ih =>
    rw [admitsUndefined_eq, admitsUndefined_eq, kind_withoutDescriptions,
      children_withoutDescriptions, List.any_map]
    have e : node.children.any (admitsUndefined ∘ withoutDescriptions) =
        node.children.any admitsUndefined := by
      rw [Bool.eq_iff_iff, List.any_eq_true, List.any_eq_true]
      exact exists_congr fun child => and_congr_right fun m => by rw [Function.comp, ih child m]
    rw [e]

lemma Resembles.admitsUndefined_eq (h : a.Resembles b) :
    a.admitsUndefined = b.admitsUndefined := by
  rw [← admitsUndefined_withoutDescriptions, h, admitsUndefined_withoutDescriptions]

/-- Trees that resemble each other do so as optional members. -/
lemma Resembles.toOptional (h : a.Resembles b) : a.toOptional.Resembles b.toOptional := by
  unfold Schema.toOptional
  rw [h.admitsUndefined_eq]
  split
  case isTrue => exact h
  case isFalse =>
    have all : List.Forall₂ Resembles [a, undefinedNode] [b, undefinedNode] :=
      .cons h (.cons rfl .nil)
    let optional := composite .union [a, undefinedNode] {}
    show (optional.withChildren [a, undefinedNode]).Resembles
      (optional.withChildren [b, undefinedNode])
    exact .withChildren rfl all

lemma Resembles.atPlace (h : a.Resembles b) (isOptional : Bool) :
    (a.atPlace isOptional).Resembles (b.atPlace isOptional) := by
  cases isOptional with
  | true => exact h.toOptional
  | false => exact h

/-! ## Collecting -/

variable {α : Type} {f : Schema → Option α}

/-- Descriptions do not matter for what is collected. -/
lemma collect_withoutDescriptions (keeps : ∀ node, f node.withoutDescriptions = f node)
    (node : Schema) : node.withoutDescriptions.collect f = node.collect f := by
  induction node using childrenInduction with
  | step node ih =>
    rw [collect_eq, collect_eq, keeps, children_withoutDescriptions, List.flatMap_map]
    exact congrArg _ (List.flatMap_congr ih)

lemma Resembles.collect_eq (keeps : ∀ node, f node.withoutDescriptions = f node)
    (h : a.Resembles b) : a.collect f = b.collect f := by
  rw [← collect_withoutDescriptions keeps a, h, collect_withoutDescriptions keeps b]

lemma Resembles.identifiers_eq (h : a.Resembles b) : a.identifiers = b.identifiers :=
  h.collect_eq fun _ => identifier_withoutDescriptions

lemma Resembles.references_eq (h : a.Resembles b) : a.references = b.references :=
  h.collect_eq fun _ => target?_withoutDescriptions

end TypeSchema.Schema
