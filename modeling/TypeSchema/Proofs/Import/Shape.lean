import Mathlib.Data.List.Basic
import Mathlib.Tactic.ByContra
import TypeSchema.Proofs.Import.Rules
import TypeSchema.Proofs.Schema.Traversal

/-!
# Shapes of imported nodes

When all steps of a type's rule succeed, the types they import and the node that is built of the
results are known from the rule. `Shape` lists the cases.
-/

namespace TypeSchema

/-- The rule that imports a union or an intersection. -/
def Connective.rule : Connective → ImportRule
  | union => .union
  | intersection => .intersection

namespace Schema

variable {α : Type} {f : Schema → Option α}

lemma Mark.collect_atPlace (m : Mark f) {isOptional : Bool} {node : Schema} :
    (node.atPlace isOptional).collect f = node.collect f := by
  unfold atPlace
  split
  case isTrue => exact m.collect_toOptional
  case isFalse => rfl

lemma Mark.collect_node (m : Mark f) {property : PropertyInfo} {node : Schema} :
    (property.node node).2.collect f = node.collect f := by
  unfold PropertyInfo.node documented
  cases property.documentation with
  | none => exact m.collect_atPlace
  | some text => exact m.collect_withDescription.trans m.collect_atPlace

/-- What is collected in combined nodes is collected in the nodes. -/
lemma flatMap_collect_zipWith {β : Type} {as : List β} {nodes : List Schema}
    {make : β → Schema → Schema} (h : ∀ a node, (make a node).collect f = node.collect f)
    (l : nodes.length = as.length) :
    (as.zipWith make nodes).flatMap (collect f) = nodes.flatMap (collect f) := by
  induction as generalizing nodes with
  | nil =>
    obtain rfl := List.length_eq_zero_iff.1 l
    rfl
  | cons a as ih =>
    cases nodes with
    | nil => simp at l
    | cons node nodes => simp [h, ih (Nat.succ.inj l)]

/-- What is collected in the properties of an object is collected in the nodes of their types. -/
lemma flatMap_collect_properties (m : Mark f) {properties : List PropertyInfo}
    {nodes : List Schema} (l : nodes.length = properties.length) :
    ((properties.zipWith PropertyInfo.node nodes).map (·.2)).flatMap (collect f) =
      nodes.flatMap (collect f) := by
  rw [List.map_zipWith]
  exact flatMap_collect_zipWith (fun _ _ => m.collect_node) l

end Schema

namespace Importer

variable {importer : Importer} {id : TypeId}

/-- The type is a union or intersection whose only member is the other type. -/
def Link (importer : Importer) (id member : TypeId) : Prop :=
  (∃ connective : Connective, importer.checker.ruleFor? id = some connective.rule) ∧
    importer.checker.constituents id = [member]

/-- A type that is no leaf imports the given types, and of their nodes the last one is built. -/
inductive Shape (importer : Importer) (id : TypeId) : List TypeId → List Schema → Schema → Prop
  | function {signature overloads arguments returns} :
    importer.checker.ruleFor? id = some .function →
    importer.checker.callSignatures id = signature :: overloads →
    arguments.length = signature.parameters.length →
    Shape importer id (signature.parameters.map (·.type) ++ [signature.returns])
      (arguments ++ [returns])
      (.function (signature.parameters.zipWith
        (fun parameter => Schema.atPlace parameter.isOptional) arguments) returns {})
  | tuple {elements nodes} :
    importer.checker.ruleFor? id = some .tuple →
    importer.checker.tupleElements? id = some elements →
    nodes.length = elements.length →
    Shape importer id (elements.map (·.type)) nodes
      (.tuple (elements.zipWith (fun element => Schema.atPlace element.isOptional) nodes) {})
  | array {element node} :
    importer.checker.ruleFor? id = some .array →
    importer.checker.arrayElement? id = some element →
    Shape importer id [element] [node] (.array node {})
  /-- A union or intersection of a single member is that member. -/
  | single {member node} :
    importer.Link id member →
    Shape importer id [member] [node] node
  | composite {nodes} {connective : Connective} :
    importer.checker.ruleFor? id = some connective.rule →
    2 ≤ (importer.checker.constituents id).length →
    nodes.length = (importer.checker.constituents id).length →
    Shape importer id (importer.checker.constituents id) nodes (.composite connective nodes {})
  | record {signature key value} :
    importer.checker.ruleFor? id = some .record →
    importer.checker.indexSignatures id = [signature] →
    Shape importer id [signature.key, signature.value] [key, value] (.record key value {})
  | object {nodes} :
    importer.checker.ruleFor? id = some .object →
    importer.checker.indexSignatures id = [] →
    nodes.length = (importer.checker.properties id).length →
    Shape importer id ((importer.checker.properties id).map (·.type)) nodes
      (.object ((importer.checker.properties id).zipWith PropertyInfo.node nodes) {})
  | indexed {nodes} {entries : List (Schema × Schema)} :
    importer.checker.ruleFor? id = some .object →
    importer.checker.indexSignatures id ≠ [] →
    nodes.length = (importer.checker.properties id).length →
    entries.length = (importer.checker.indexSignatures id).length →
    Shape importer id
      ((importer.checker.properties id).map (·.type) ++
        (importer.checker.indexSignatures id).flatMap (fun signature =>
          [signature.key, signature.value]))
      (nodes ++ entries.flatMap (fun entry => [entry.1, entry.2]))
      (.composite .intersection
        ((if importer.checker.properties id = [] then []
          else [.object ((importer.checker.properties id).zipWith PropertyInfo.node nodes) {}]) ++
          entries.map fun entry => .record entry.1 entry.2 {}) {})

/-- Parameters that take steps which succeed are imported by their types. -/
lemma parameterSteps_eq {parameters : List ParameterInfo} {rest : List ImportStep}
    {ids : List TypeId} (h : importer.parameterSteps id parameters ++ rest = ids.map .part) :
    ∃ others : List TypeId, rest = others.map .part ∧
      ids = parameters.map (·.type) ++ others := by
  induction parameters generalizing ids with
  | nil => exact ⟨ids, h, rfl⟩
  | cons parameter parameters ih =>
    cases ids with
    | nil => simp [parameterSteps] at h
    | cons j ids =>
      simp only [parameterSteps, List.map_cons, List.cons_append, List.cons.injEq] at h
      obtain ⟨h1, h2⟩ := h
      obtain ⟨others, e, rfl⟩ := ih h2
      split at h1
      case isTrue => simp [refusal] at h1
      case isFalse =>
        cases h1
        exact ⟨others, e, rfl⟩

/-- Elements that take steps which succeed are imported by their types. -/
lemma elementSteps_eq {elements : List TupleElement} {ids : List TypeId}
    (h : importer.elementSteps id elements = ids.map .part) : ids = elements.map (·.type) := by
  induction elements generalizing ids with
  | nil => exact (List.map_eq_nil_iff.1 h.symm)
  | cons element elements ih =>
    cases ids with
    | nil => simp [elementSteps] at h
    | cons j ids =>
      simp only [elementSteps, List.map_cons, List.cons.injEq] at h
      obtain ⟨h1, h2⟩ := h
      obtain rfl := ih h2
      split at h1
      case isTrue => simp [refusal] at h1
      case isFalse =>
        cases h1
        rfl

/-- Properties that take steps which succeed are imported by their types. -/
lemma propertySteps_eq {properties : List PropertyInfo} {rest : List ImportStep}
    {ids : List TypeId} (h : propertySteps properties ++ rest = ids.map .part) :
    ∃ others : List TypeId, rest = others.map .part ∧
      ids = properties.map (·.type) ++ others := by
  unfold propertySteps at h
  rw [List.append_assoc] at h
  obtain ⟨known, others, rfl, h1, h2⟩ := List.map_eq_append_iff.1 h.symm
  have e : known = properties.map (·.type) := by
    apply map_part_injective
    rw [h1, List.map_map]
    rfl
  cases r : firstRepeated? [] (properties.map (·.name)) with
  | none =>
    rw [r] at h2
    exact ⟨others, h2.symm, e ▸ rfl⟩
  | some name =>
    rw [r] at h2
    cases others with
    | nil => simp at h2
    | cons j others => simp at h2

/-- A record applies to an object type that has one index signature and no properties. -/
lemma not_record_of_object (r : importer.checker.ruleFor? id = some .object) :
    importer.checker.properties id ≠ [] ∨ (importer.checker.indexSignatures id).length ≠ 1 := by
  have o := Checker.applies_of_ruleFor? r
  by_contra h
  rw [not_or, not_not, not_not] at h
  have a : ImportRule.record.applies importer.checker id = true := by
    simp only [ImportRule.applies] at o ⊢
    simp [o, h.1, h.2]
  simp only [Checker.ruleFor?, ImportRule.all, List.find?_cons, a] at r
  repeat' split at r
  all_goals simp at r

/-- Nodes that are not exactly one are joined. -/
lemma joined_of_length_ne_one {connective : Connective} {nodes : List Schema}
    (h : nodes.length ≠ 1) : joined connective nodes = .composite connective nodes {} := by
  match nodes with
  | [] => rfl
  | [_] => simp at h
  | _ :: _ :: _ => rfl

/-- Properties and records that are not exactly one node are joined. -/
lemma objectWithRecords_eq {shape : List (String × Schema)} {records : List Schema}
    (ne : records ≠ []) (h : shape = [] → records.length ≠ 1) :
    objectWithRecords shape records = .composite .intersection
      ((if shape = [] then [] else [.object shape {}]) ++ records) {} := by
  unfold objectWithRecords
  simp only [List.isEmpty_iff]
  apply joined_of_length_ne_one
  split
  case isTrue e => exact h e
  case isFalse e =>
    have l : records.length ≠ 0 := fun l => ne (List.length_eq_zero_iff.1 l)
    simp [l]

/-- Index signatures are imported by their keys and values in turn. -/
lemma recordSteps_eq {signatures : List IndexSignature} {ids : List TypeId} {nodes : List Schema}
    (p : recordSteps signatures = ids.map .part) (l : nodes.length = ids.length) :
    ids = signatures.flatMap (fun signature => [signature.key, signature.value]) ∧
      ∃ entries : List (Schema × Schema), entries.length = signatures.length ∧
        nodes = entries.flatMap (fun entry => [entry.1, entry.2]) ∧
        recordsOf nodes = entries.map fun entry => .record entry.1 entry.2 {} := by
  have e : ids = signatures.flatMap (fun signature => [signature.key, signature.value]) := by
    apply map_part_injective
    rw [← p, List.map_flatMap]
    rfl
  refine ⟨e, ?_⟩
  subst e
  clear p
  induction signatures generalizing nodes with
  | nil =>
    obtain rfl := List.length_eq_zero_iff.1 l
    exact ⟨[], rfl, rfl, rfl⟩
  | cons signature signatures ih =>
    match nodes, l with
    | [], l => simp at l
    | [_], l => simp at l
    | key :: value :: nodes, l =>
      simp only [List.flatMap_cons, List.length_append, List.length_cons, List.length_nil] at l
      obtain ⟨entries, le, rfl, r⟩ := @ih nodes (by omega)
      exact ⟨(key, value) :: entries, by simp [le], rfl, by simp [recordsOf, r, Schema.recordOf]⟩

/-- The shape of a union or intersection. -/
lemma shape_joined (connective : Connective) {ids : List TypeId} {nodes : List Schema}
    (r : importer.checker.ruleFor? id = some connective.rule)
    (p : importer.compositeSteps id (importer.checker.constituents id) = ids.map .part)
    (l : nodes.length = ids.length) :
    importer.Shape id ids nodes (joined connective nodes) := by
  have e : importer.checker.constituents id ≠ [] ∧ importer.checker.constituents id = ids := by
    cases c : importer.checker.constituents id with
    | nil =>
      rw [c] at p
      cases ids <;> simp [compositeSteps, refusal] at p
    | cons member members =>
      rw [c] at p
      exact ⟨by simp, map_part_injective p⟩
  obtain ⟨ne, rfl⟩ := e
  by_cases one : nodes.length = 1
  · obtain ⟨node, rfl⟩ := List.length_eq_one_iff.1 one
    obtain ⟨member, c⟩ := List.length_eq_one_iff.1 (l ▸ one)
    rw [c]
    exact .single ⟨⟨connective, r⟩, c⟩
  · rw [joined_of_length_ne_one one]
    have two : 2 ≤ (importer.checker.constituents id).length := by
      have := List.length_pos_iff.2 ne
      omega
    exact .composite r two l

/-- The shape of an object type. -/
lemma shape_object {ids : List TypeId} {nodes : List Schema}
    (r : importer.checker.ruleFor? id = some .object)
    (p : propertySteps (importer.checker.properties id) ++
      recordSteps (importer.checker.indexSignatures id) = ids.map .part)
    (l : nodes.length = ids.length) :
    importer.Shape id ids nodes (importer.build id nodes) := by
  obtain ⟨others, p', rfl⟩ := propertySteps_eq p
  rw [List.length_append, List.length_map] at l
  -- The nodes of the properties come first, then those of keys and values.
  obtain ⟨inner, rest, rfl, l'⟩ : ∃ inner rest, nodes = inner ++ rest ∧
      inner.length = (importer.checker.properties id).length :=
    ⟨_, _, (List.take_append_drop (importer.checker.properties id).length nodes).symm, by simp [l]⟩
  have lr : rest.length = others.length := by
    rw [List.length_append, l'] at l
    omega
  obtain ⟨rfl, entries, le, rfl, er⟩ := recordSteps_eq p' lr
  simp only [build, r]
  rw [zipWith_append_right l', ← l', List.drop_left, er]
  cases c : importer.checker.indexSignatures id with
  | nil =>
    obtain rfl := List.length_eq_zero_iff.1 (le.trans (List.length_eq_zero_iff.2 c))
    simp only [List.flatMap_nil, List.append_nil]
    exact .object r c l'
  | cons signature signatures =>
    have ne : importer.checker.indexSignatures id ≠ [] := by simp [c]
    have i := Shape.indexed r ne l' le
    rw [c] at i
    have empty : (importer.checker.properties id).zipWith PropertyInfo.node inner = [] ↔
        importer.checker.properties id = [] := by
      rw [← List.length_eq_zero_iff, List.length_zipWith, l', Nat.min_self,
        List.length_eq_zero_iff]
    have records : (entries.map fun entry =>
        Schema.record entry.1 entry.2 {}).length =
        (importer.checker.indexSignatures id).length := by
      rw [List.length_map, le]
    dsimp only
    rw [objectWithRecords_eq, if_congr empty rfl rfl]
    · exact i
    · intro e
      rw [e, c] at records
      simp at records
    · intro e
      rw [records]
      exact (not_record_of_object r).resolve_left (not_not.2 (empty.1 e))

/-- If all steps of a type's rule succeed, the types they import and the node that is built have the
shape the rule prescribes. -/
theorem shape_build {ids : List TypeId} {nodes : List Schema}
    (p : importer.steps id = ids.map .part) (l : nodes.length = ids.length) :
    importer.Shape id ids nodes (importer.build id nodes) := by
  cases r : importer.checker.ruleFor? id with
  | none =>
    simp only [steps, r] at p
    cases ids <;> simp [refusal] at p
  | some rule =>
    cases rule with
    | literal =>
      simp only [steps, r] at p
      cases ids <;> simp [refusal] at p
    | primitive =>
      simp only [steps, r] at p
      cases ids <;> simp [refusal] at p
    | function =>
      simp only [steps, build, r] at p ⊢
      cases c : importer.checker.callSignatures id with
      | nil =>
        rw [c] at p
        cases ids <;> simp [functionSteps, refusal] at p
      | cons signature overloads =>
        simp only [c, functionSteps] at p ⊢
        split at p
        case isTrue => cases ids <;> simp [refusal] at p
        case isFalse =>
          obtain ⟨others, e, rfl⟩ := parameterSteps_eq p
          obtain rfl : [signature.returns] = others := map_part_injective e
          obtain ⟨returns, arguments, rfl⟩ : ∃ returns arguments, nodes = arguments ++ [returns] :=
            ⟨_, _, (List.dropLast_append_getLast (by rintro rfl; simp at l)).symm⟩
          have l' : arguments.length = signature.parameters.length := by simpa using l
          rw [zipWith_append_right l', List.getLastD_concat]
          exact .function r c l'
    | tuple =>
      obtain ⟨elements, e⟩ := Option.isSome_iff_exists.1 (Checker.applies_of_ruleFor? r)
      simp only [steps, build, r, e, Option.getD_some] at p ⊢
      obtain rfl := elementSteps_eq p
      exact .tuple r e (by simpa using l)
    | array =>
      obtain ⟨element, e⟩ := Option.isSome_iff_exists.1 (Checker.applies_of_ruleFor? r)
      simp only [steps, build, r, e, Option.toList_some] at p ⊢
      obtain rfl : [element] = ids := map_part_injective p
      obtain ⟨node, rfl⟩ := List.length_eq_one_iff.1 l
      exact .array r e
    | union =>
      simp only [steps, build, r] at p ⊢
      exact shape_joined .union r p l
    | intersection =>
      simp only [steps, build, r] at p ⊢
      exact shape_joined .intersection r p l
    | record =>
      have a := Checker.applies_of_ruleFor? r
      simp only [ImportRule.applies, Bool.and_eq_true, beq_iff_eq, List.length_eq_one_iff] at a
      obtain ⟨-, signature, e⟩ := a
      simp only [steps, build, r, e] at p ⊢
      obtain ⟨rfl, entries, le, rfl, er⟩ := recordSteps_eq p l
      obtain ⟨entry, rfl⟩ := List.length_eq_one_iff.1 le
      rw [er]
      exact .record r e
    | object =>
      simp only [steps, r] at p
      exact shape_object r p l

/-! ## What is collected in an imported node -/

section

open Schema

variable {α : Type} {f : Schema → Option α}

/-- What is collected in a built node is collected in the nodes it is built of. -/
theorem Shape.collect {ids : List TypeId} {nodes : List Schema} {node : Schema}
    (h : importer.Shape id ids nodes node) (m : Mark f) :
    node.collect f = nodes.flatMap (Schema.collect f) := by
  cases h with
  | function _ _ l =>
    rw [m.collect_of_plain rfl rfl, children, List.flatMap_append, List.flatMap_append,
      flatMap_collect_zipWith (fun _ _ => m.collect_atPlace) l]
  | tuple _ _ l =>
    rw [m.collect_of_plain rfl rfl, children,
      flatMap_collect_zipWith (fun _ _ => m.collect_atPlace) l]
  | array => rw [m.collect_of_plain rfl rfl, children]
  | single => simp
  | composite => rw [m.collect_of_plain rfl rfl, children]
  | record => rw [m.collect_of_plain rfl rfl, children]
  | object _ _ l => rw [m.collect_of_plain rfl rfl, children, flatMap_collect_properties m l]
  | @indexed nodes entries _ _ l _ =>
    have e : (entries.map fun entry => Schema.record entry.1 entry.2 {}).flatMap
        (Schema.collect f) =
        (entries.flatMap fun entry => [entry.1, entry.2]).flatMap (Schema.collect f) := by
      rw [List.flatMap_map, List.flatMap_assoc]
      congr 1
      funext entry
      rw [m.collect_of_plain rfl rfl, children]
    rw [m.collect_of_plain rfl rfl, children, List.flatMap_append, List.flatMap_append, e]
    congr 1
    split
    case isTrue empty =>
      obtain rfl : nodes = [] := List.length_eq_zero_iff.1 (by rw [l, empty]; rfl)
      rfl
    case isFalse =>
      rw [List.flatMap_singleton, m.collect_of_plain rfl rfl, children,
        flatMap_collect_properties m l]

end

end Importer

end TypeSchema
