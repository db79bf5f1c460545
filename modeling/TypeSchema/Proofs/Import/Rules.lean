import TypeSchema.Import.Walk
import TypeSchema.Proofs.Lists
import TypeSchema.Proofs.Walk

/-!
# Rules as lists of steps

What a rule does is a list of steps, taken in order: each imports one type or stops. The nodes the
steps give are put together in the end. `importStructure_eq` says that importing the structure of a
type is exactly this for the first rule that applies to it.
-/

namespace TypeSchema

/-- Whether a rule applies to a type. -/
def ImportRule.applies (checker : Checker) (id : TypeId) : ImportRule → Bool
  | literal => (checker.flags id).hasLiteral
  | primitive => (checker.flags id).primitive?.isSome
  | function => (checker.flags id).has .object && !(checker.callSignatures id).isEmpty
  | tuple => (checker.tupleElements? id).isSome
  | array => (checker.arrayElement? id).isSome
  | union => (checker.flags id).has .union
  | intersection => (checker.flags id).has .intersection
  | record =>
    (checker.flags id).has .object && (checker.properties id).isEmpty &&
      (checker.indexSignatures id).length == 1
  | object => (checker.flags id).has .object

/-- The first rule that applies to a type. -/
def Checker.ruleFor? (checker : Checker) (id : TypeId) : Option ImportRule :=
  ImportRule.all.find? (·.applies checker id)

/-- The first rule that applies applies. -/
lemma Checker.applies_of_ruleFor? {checker : Checker} {id : TypeId} {rule : ImportRule}
    (h : checker.ruleFor? id = some rule) : rule.applies checker id = true := by
  have := List.find?_some h
  exact this

/-- A step of a rule: a type to import, or the reason to stop. -/
inductive ImportStep where
  | part (id : TypeId)
  | stop (error : ImportError)

/-- Takes a step. -/
def ImportStep.take (importPart : TypeId → ImportWalk Schema) : ImportStep → ImportWalk Schema
  | part id => importPart id
  | stop error => Walk.fail error

/-- A node at a place that may be optional. -/
def Schema.atPlace (isOptional : Bool) (node : Schema) : Schema :=
  if isOptional then node.toOptional else node

/-- A node with documentation, if there is any, as its description. -/
def Schema.documented (documentation : Option String) (node : Schema) : Schema :=
  match documentation with
  | some text => node.withDescription (some text)
  | none => node

/-- The node of a property whose type has the given node. -/
def PropertyInfo.node (property : PropertyInfo) (node : Schema) : String × Schema :=
  (property.name, (node.atPlace property.isOptional).documented property.documentation)

namespace Importer

variable (importer : Importer)

/-- The types to import are determined by the steps that import them. -/
lemma map_part_injective {ids ids' : List TypeId}
    (h : ids.map ImportStep.part = ids'.map .part) : ids = ids' :=
  List.map_injective_iff.2 (fun _ _ e => ImportStep.part.inj e) h

/-- The step that refuses a type. -/
def refusal (id : TypeId) : ImportStep :=
  .stop (.unsupportedType (importer.checker.typeText id) importer.file)

/-- The steps of the parameters of a function type. -/
def parameterSteps (id : TypeId) (parameters : List ParameterInfo) : List ImportStep :=
  parameters.map fun parameter =>
    if parameter.isRest then importer.refusal id else .part parameter.type

/-- The steps of the elements of a tuple type. -/
def elementSteps (id : TypeId) (elements : List TupleElement) : List ImportStep :=
  elements.map fun element => if element.isRest then importer.refusal id else .part element.type

/-- The steps of a function type, which are those of its first signature. -/
def functionSteps (id : TypeId) : List CallSignature → List ImportStep
  | [] => [importer.refusal id]
  | signature :: overloads =>
    if !overloads.isEmpty && importer.options.signaturePolicy == .rejectOverloads then
      [importer.refusal id]
    else importer.parameterSteps id signature.parameters ++ [.part signature.returns]

/-- The steps of a union or intersection. -/
def compositeSteps (id : TypeId) : List TypeId → List ImportStep
  | [] => [importer.refusal id]
  | members => members.map .part

/-- The steps of index signatures. -/
def recordSteps (signatures : List IndexSignature) : List ImportStep :=
  signatures.flatMap fun signature => [.part signature.key, .part signature.value]

/-- The steps of properties. A property given twice is noticed when all of them are imported. -/
def propertySteps (properties : List PropertyInfo) : List ImportStep :=
  properties.map (fun property => .part property.type) ++
    match firstRepeated? [] (properties.map (·.name)) with
    | some name => [.stop (.construction (.duplicateProperty name))]
    | none => []

/-- The steps of the first rule that applies to a type. -/
def steps (id : TypeId) : List ImportStep :=
  match importer.checker.ruleFor? id with
  | some .function => importer.functionSteps id (importer.checker.callSignatures id)
  | some .tuple => importer.elementSteps id ((importer.checker.tupleElements? id).getD [])
  | some .array => (importer.checker.arrayElement? id).toList.map .part
  | some .union | some .intersection =>
    importer.compositeSteps id (importer.checker.constituents id)
  | some .record => recordSteps (importer.checker.indexSignatures id)
  | some .object =>
    propertySteps (importer.checker.properties id) ++
      recordSteps (importer.checker.indexSignatures id)
  | _ => [importer.refusal id]

/-- The node of a union or intersection whose members have the given nodes. -/
def joined (connective : Connective) : List Schema → Schema
  | [node] => node
  | nodes => .composite connective nodes {}

/-- The records of nodes that come as keys and values in turn. -/
def recordsOf : List Schema → List Schema
  | key :: value :: rest => .recordOf key value :: recordsOf rest
  | _ => []

/-- The node of an object type with index signatures: its properties, if there are any, and a record
for every index signature. -/
def objectWithRecords (properties : List (String × Schema)) (records : List Schema) : Schema :=
  joined .intersection ((if properties.isEmpty then [] else [.object properties {}]) ++ records)

/-- The node of a type whose steps give `nodes`, by the first rule that applies to it. -/
def build (id : TypeId) (nodes : List Schema) : Schema :=
  match importer.checker.ruleFor? id with
  | some .function =>
    match importer.checker.callSignatures id with
    | [] => default
    | signature :: _ =>
      .functionOf
        (signature.parameters.zipWith (fun parameter node => node.atPlace parameter.isOptional)
          nodes)
        (nodes.getLastD default)
  | some .tuple =>
    .tupleOf (((importer.checker.tupleElements? id).getD []).zipWith
      (fun element node => node.atPlace element.isOptional) nodes)
  | some .array => .arrayOf (nodes.headD default)
  | some .union => joined .union nodes
  | some .intersection => joined .intersection nodes
  | some .record => (recordsOf nodes).headD default
  | some .object =>
    let properties := importer.checker.properties id
    let shape := properties.zipWith PropertyInfo.node nodes
    match importer.checker.indexSignatures id with
    | [] => .object shape {}
    | _ => objectWithRecords shape (recordsOf (nodes.drop properties.length))
  | _ => default

/-! ## Rules take their steps -/

section

variable {importer} {importPart : TypeId → ImportWalk Schema} {id : TypeId}

/-- Steps that all succeed import types. -/
lemma steps_of_gives {steps : List ImportStep} {s s' : ImportState} {nodes : List Schema}
    (h : (steps.mapM (ImportStep.take importPart)).Gives s nodes s') :
    ∃ ids : List TypeId, steps = ids.map .part := by
  induction steps generalizing s nodes with
  | nil => exact ⟨[], rfl⟩
  | cons step steps ih =>
    obtain ⟨node, nodes', s1, h1, h2, rfl⟩ := Walk.gives_mapM_cons.1 h
    obtain ⟨ids, rfl⟩ := ih h2
    cases step with
    | part id => exact ⟨id :: ids, rfl⟩
    | stop error => exact absurd h1 Walk.not_gives_fail

/-- A parameter takes one step. -/
lemma importParameter_eq {parameter : ParameterInfo} :
    importer.importParameter importPart id parameter = (do
      let node ← (if parameter.isRest then importer.refusal id
        else .part parameter.type : ImportStep).take importPart
      pure (node.atPlace parameter.isOptional)) := by
  unfold importParameter
  split
  · rfl
  · rfl

/-- An element of a tuple takes one step. -/
lemma importElement_eq {element : TupleElement} :
    importer.importElement importPart id element = (do
      let node ← (if element.isRest then importer.refusal id
        else .part element.type : ImportStep).take importPart
      pure (node.atPlace element.isOptional)) := by
  unfold importElement
  split
  · rfl
  · rfl

/-- A property takes one step. -/
lemma importProperty_eq {property : PropertyInfo} :
    importProperty importPart property = (do
      let node ← (ImportStep.part property.type).take importPart
      pure (property.node node)) := by
  unfold importProperty importOptional
  rw [bind_assoc]
  rfl

/-- Index signatures take two steps each. -/
lemma mapM_importRecord {signatures : List IndexSignature} :
    signatures.mapM (importRecord importPart) = (do
      let nodes ← (recordSteps signatures).mapM (ImportStep.take importPart)
      pure (recordsOf nodes)) := by
  induction signatures with
  | nil => rfl
  | cons signature rest ih =>
    have e : recordSteps (signature :: rest) =
        .part signature.key :: .part signature.value :: recordSteps rest := rfl
    rw [e, List.mapM_cons, ih]
    simp [importRecord, List.mapM_cons, ImportStep.take, recordsOf]

/-- A function type takes the steps of its first signature. -/
lemma importFunction_eq (r : importer.checker.ruleFor? id = some .function) :
    importer.importFunction importPart id (importer.checker.callSignatures id) = (do
      let nodes ← (importer.steps id).mapM (ImportStep.take importPart)
      pure (importer.build id nodes)) := by
  unfold steps build
  simp only [r]
  cases importer.checker.callSignatures id with
  | nil => rfl
  | cons signature overloads =>
    simp only [importFunction, functionSteps]
    split
    · rfl
    · unfold importSignature parameterSteps
      rw [Walk.mapM_eq_zipWith fun parameter => importParameter_eq, List.mapM_append]
      simp only [bind_assoc, pure_bind]
      apply Walk.bind_congr_of_gives
      intro s nodes s' h
      have l := h.mapM_length
      simp only [List.length_map] at l
      simp only [List.mapM_cons, List.mapM_nil, ImportStep.take, bind_assoc, pure_bind]
      congr 1
      funext returns
      simp [zipWith_append_right l]

/-- A tuple type takes the steps of its elements. -/
lemma importTuple_eq (r : importer.checker.ruleFor? id = some .tuple) :
    importer.importTuple importPart id ((importer.checker.tupleElements? id).getD []) = (do
      let nodes ← (importer.steps id).mapM (ImportStep.take importPart)
      pure (importer.build id nodes)) := by
  unfold importTuple steps build
  simp only [r]
  rw [Walk.mapM_eq_zipWith fun element => importElement_eq, bind_assoc]
  rfl

/-- A union or intersection takes the steps of its members. -/
lemma importComposite_eq {connective : Connective} :
    importer.importComposite importPart connective id = (do
      let nodes ← (importer.compositeSteps id (importer.checker.constituents id)).mapM
        (ImportStep.take importPart)
      pure (joined connective nodes)) := by
  unfold importComposite
  generalize importer.checker.constituents id = members
  match members with
  | [] => rfl
  | [member] => simp [compositeSteps, List.mapM_cons, ImportStep.take, joined]
  | first :: second :: rest =>
    simp only [compositeSteps, List.mapM_map]
    apply Walk.bind_congr_of_gives
    intro s nodes s' h
    match nodes, h.mapM_length with
    | first' :: second' :: rest', _ =>
      have e : ¬ (first' :: second' :: rest').length < 2 := by simp
      unfold Schema.compositeOf
      rw [if_neg e]
      rfl

/-- Properties take one step each, and one more if a name is repeated. -/
lemma bind_mapM_importProperty (importPart : TypeId → ImportWalk Schema)
    (properties : List PropertyInfo)
    (next : List (String × Schema) → Schema → ImportWalk Schema) :
    (do
      let shape ← properties.mapM (importProperty importPart)
      let object ← ImportWalk.constructed (Schema.ofProperties shape)
      next shape object) = (do
      let nodes ← (propertySteps properties).mapM (ImportStep.take importPart)
      let shape := properties.zipWith PropertyInfo.node nodes
      next shape (.object shape {})) := by
  unfold propertySteps
  rw [Walk.mapM_eq_zipWith fun property => importProperty_eq, List.mapM_append]
  simp only [bind_assoc, pure_bind]
  apply Walk.bind_congr_of_gives
  intro s nodes s' h
  have l : nodes.length = properties.length := by simpa using h.mapM_length
  have e : (properties.zipWith PropertyInfo.node nodes).map (·.1) = properties.map (·.name) := by
    rw [List.map_zipWith]
    exact zipWith_left l
  unfold Schema.ofProperties
  rw [e]
  cases firstRepeated? [] (properties.map (·.name)) with
  | some name => rfl
  | none => simp [ImportWalk.constructed]

/-- The properties beside index signatures are an object, which is left out if there are none. -/
lemma objectParts_eq {shape : List (String × Schema)} :
    objectParts shape = (do
      let object ← ImportWalk.constructed (Schema.ofProperties shape)
      pure (if shape.isEmpty then [] else [object])) := by
  cases shape <;> rfl

/-- The parts of an object type are intersected. -/
lemma joinParts_eq {parts : List Schema} (h : parts ≠ []) :
    joinParts parts = pure (joined .intersection parts) := by
  match parts with
  | [] => exact absurd rfl h
  | [part] => rfl
  | first :: second :: rest =>
    have e : ¬ (first :: second :: rest).length < 2 := by simp
    simp only [joinParts, Schema.compositeOf, if_neg e]
    rfl

/-- As many records are made as there are index signatures. -/
lemma recordsOf_ne_nil {signature : IndexSignature} {rest : List IndexSignature}
    {nodes : List Schema} (l : nodes.length = (recordSteps (signature :: rest)).length) :
    recordsOf nodes ≠ [] := by
  match nodes with
  | [] => simp [recordSteps] at l
  | [_] => simp [recordSteps] at l
  | _ :: _ :: _ => simp [recordsOf]

/-- If the steps of properties succeed, no name is repeated. -/
lemma propertySteps_of_gives {properties : List PropertyInfo} {s s' : ImportState}
    {nodes : List Schema}
    (h : ((propertySteps properties).mapM (ImportStep.take importPart)).Gives s nodes s') :
    propertySteps properties = properties.map (fun property => .part property.type) ∧
      nodes.length = properties.length := by
  have e : propertySteps properties = properties.map (fun property => .part property.type) := by
    obtain ⟨ids, e⟩ := steps_of_gives h
    unfold propertySteps at e ⊢
    cases r : firstRepeated? [] (properties.map (·.name)) with
    | none => simp
    | some name =>
      have m : ImportStep.stop (.construction (.duplicateProperty name)) ∈ ids.map .part := by
        rw [← e, r]
        simp
      simp at m
  have l := h.mapM_length
  rw [e, List.length_map] at l
  exact ⟨e, l⟩

/-- An object type takes the steps of its properties and of its index signatures. -/
lemma importObject_eq (r : importer.checker.ruleFor? id = some .object) :
    importer.importObject importPart id = (do
      let nodes ← (importer.steps id).mapM (ImportStep.take importPart)
      pure (importer.build id nodes)) := by
  unfold importObject steps build
  simp only [r]
  generalize importer.checker.properties id = properties
  cases importer.checker.indexSignatures id with
  | nil =>
    simp only [recordSteps, List.flatMap_nil, List.append_nil]
    simpa using bind_mapM_importProperty importPart properties fun _ object => pure object
  | cons signature rest =>
    simp only [objectParts_eq, mapM_importRecord, bind_assoc, pure_bind]
    rw [bind_mapM_importProperty, List.mapM_append]
    simp only [bind_assoc, pure_bind]
    apply Walk.bind_congr_of_gives
    intro s nodes s' h
    obtain ⟨-, l⟩ := propertySteps_of_gives h
    apply Walk.bind_congr_of_gives
    intro s1 nodes' s2 h'
    have n := recordsOf_ne_nil h'.mapM_length
    rw [joinParts_eq (by simp [n]), ← l, List.drop_left, zipWith_append_right l]
    rfl

/-- The walk of a rule that imports other types. -/
def structuralWalk (importer : Importer) (importPart : TypeId → ImportWalk Schema) (id : TypeId) :
    ImportRule → ImportWalk Schema
  | .function => importer.importFunction importPart id (importer.checker.callSignatures id)
  | .tuple => importer.importTuple importPart id ((importer.checker.tupleElements? id).getD [])
  | .array => do
    return .arrayOf (← importPart ((importer.checker.arrayElement? id).getD default))
  | .union => importer.importComposite importPart .union id
  | .intersection => importer.importComposite importPart .intersection id
  | .record => importRecord importPart ((importer.checker.indexSignatures id).headD default)
  | .object => importer.importObject importPart id
  | _ => importer.unsupported id

/-- A rule that applies and is no leaf rule makes its walk. -/
lemma applyStructural_of_applies {rule : ImportRule} (n : rule.isLeaf = false)
    (h : rule.applies importer.checker id = true) :
    importer.applyStructural importPart id (importer.checker.flags id) rule =
      some (importer.structuralWalk importPart id rule) := by
  cases rule with
  | literal => simp [ImportRule.isLeaf] at n
  | primitive => simp [ImportRule.isLeaf] at n
  | function => exact if_pos h
  | tuple =>
    obtain ⟨elements, e⟩ := Option.isSome_iff_exists.1 h
    simp [applyStructural, structuralWalk, e]
  | array =>
    obtain ⟨element, e⟩ := Option.isSome_iff_exists.1 h
    simp [applyStructural, structuralWalk, e]
  | union => exact if_pos h
  | intersection => exact if_pos h
  | record =>
    simp only [ImportRule.applies, Bool.and_eq_true, beq_iff_eq, List.length_eq_one_iff] at h
    obtain ⟨⟨e1, e2⟩, signature, e3⟩ := h
    simp [applyStructural, structuralWalk, e1, List.isEmpty_iff.1 e2, e3]
  | object => exact if_pos h

/-- A rule that does not apply makes nothing. -/
lemma applyStructural_of_not_applies {rule : ImportRule}
    (h : rule.applies importer.checker id = false) :
    importer.applyStructural importPart id (importer.checker.flags id) rule = none := by
  have h : ¬ rule.applies importer.checker id = true := by simp [h]
  cases rule with
  | literal => rfl
  | primitive => rfl
  | function => exact if_neg h
  | tuple =>
    simp only [ImportRule.applies, Option.not_isSome_iff_eq_none] at h
    simp [applyStructural, h]
  | array =>
    simp only [ImportRule.applies, Option.not_isSome_iff_eq_none] at h
    simp [applyStructural, h]
  | union => exact if_neg h
  | intersection => exact if_neg h
  | record =>
    simp only [applyStructural]
    split
    case isTrue e1 =>
      split
      case h_1 signature e2 =>
        refine absurd ?_ h
        simp only [ImportRule.applies, e2, List.length_singleton, beq_self_eq_true, Bool.and_true]
        exact e1
      case h_2 => rfl
    case isFalse => rfl
  | object => exact if_neg h

/-- The first rule that makes something is the first one that applies. -/
lemma findSome?_applyStructural {rules : List ImportRule}
    (h : ∀ rule : ImportRule, rule.isLeaf = true → rule.applies importer.checker id = false) :
    rules.findSome? (importer.applyStructural importPart id (importer.checker.flags id)) =
      (rules.find? (·.applies importer.checker id)).map
        (importer.structuralWalk importPart id) := by
  induction rules with
  | nil => rfl
  | cons rule rules ih =>
    rw [List.findSome?_cons, List.find?_cons]
    cases e : rule.applies importer.checker id with
    | true =>
      have n : rule.isLeaf = false := by
        cases n : rule.isLeaf with
        | true => simp [h rule n] at e
        | false => rfl
      rw [applyStructural_of_applies n e]
      rfl
    | false =>
      rw [applyStructural_of_not_applies e]
      exact ih

/-- Without a leaf rule, neither rule for leaves applies. -/
lemma importLeaf?_eq_none :
    importer.importLeaf? id (importer.checker.flags id) = none ↔
      ∀ rule : ImportRule, rule.isLeaf = true → rule.applies importer.checker id = false := by
  have e : importer.importLeaf? id (importer.checker.flags id) =
      (importer.applyLeaf id (importer.checker.flags id) .literal).or
        (importer.applyLeaf id (importer.checker.flags id) .primitive) := by
    simp only [importLeaf?, ImportRule.all, List.findSome?_cons]
    cases importer.applyLeaf id (importer.checker.flags id) .literal <;>
      cases importer.applyLeaf id (importer.checker.flags id) .primitive <;> rfl
  rw [e, Option.or_eq_none_iff]
  constructor
  · rintro ⟨h1, h2⟩ rule n
    cases rule with
    | literal =>
      simp only [applyLeaf] at h1
      split at h1
      · split at h1 <;> simp at h1
      · exact Bool.eq_false_iff.2 ‹_›
    | primitive =>
      simpa [applyLeaf, ImportRule.applies] using h2
    | _ => simp [ImportRule.isLeaf] at n
  · intro h
    have h1 := h .literal rfl
    have h2 := h .primitive rfl
    simp only [ImportRule.applies, Option.isSome_eq_false_iff, Option.isNone_iff_eq_none] at h1 h2
    simp [applyLeaf, h1, h2]

/-- Importing the structure of a type is taking the steps of its rule and building its node. -/
theorem importStructure_eq
    (h : importer.importLeaf? id (importer.checker.flags id) = none) :
    importer.importStructure importPart id (importer.checker.flags id) = (do
      let nodes ← (importer.steps id).mapM (ImportStep.take importPart)
      pure (importer.build id nodes)) := by
  have h := importLeaf?_eq_none.1 h
  unfold importStructure
  rw [findSome?_applyStructural h]
  show ((importer.checker.ruleFor? id).map _).getD _ = _
  cases r : importer.checker.ruleFor? id with
  | none =>
    unfold steps
    rw [r]
    rfl
  | some rule =>
    have a := Checker.applies_of_ruleFor? r
    rw [Option.map_some, Option.getD_some]
    cases rule with
    | literal => simp [h .literal rfl] at a
    | primitive => simp [h .primitive rfl] at a
    | function => exact importFunction_eq r
    | tuple => exact importTuple_eq r
    | array =>
      obtain ⟨element, e⟩ := Option.isSome_iff_exists.1 a
      simp [structuralWalk, steps, build, r, e, ImportStep.take, List.mapM_cons]
    | union =>
      unfold steps build
      simp only [r]
      exact importComposite_eq
    | intersection =>
      unfold steps build
      simp only [r]
      exact importComposite_eq
    | record =>
      simp only [ImportRule.applies, Bool.and_eq_true, beq_iff_eq, List.length_eq_one_iff] at a
      obtain ⟨-, signature, e⟩ := a
      simp [structuralWalk, steps, build, r, e, recordSteps, importRecord, ImportStep.take,
        List.mapM_cons, recordsOf]
    | object => exact importObject_eq r

end

end Importer

end TypeSchema
