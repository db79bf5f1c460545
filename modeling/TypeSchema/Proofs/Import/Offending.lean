import TypeSchema.Proofs.Import.Accepted
import TypeSchema.Proofs.Import.Alike
import TypeSchema.Proofs.Import.Layout

/-!
# Types without a schema

The types of a store that have no schema, whatever their parts are, are known from what their
handles stand for. An import of a root from a store succeeds exactly if the root reaches none of
them, unless it stops at a limit.
-/

namespace TypeSchema

namespace TypeData

/-- The types that the node of a type is made from. Of several signatures only the first one
counts. -/
def imported : TypeData → List TypeId
  | intrinsic _ | literal _ | pending | callable [] => []
  | composite _ members => members
  | array element => [element]
  | tuple elements => elements.map (·.type)
  | object properties indexes =>
    properties.map (·.type) ++ indexes.flatMap fun signature => [signature.key, signature.value]
  | callable (signature :: _) => signature.parameters.map (·.type) ++ [signature.returns]

/-- There is no schema for a type, whatever the types are that it is made from. -/
def Offending (policy : SignaturePolicy) : TypeData → Prop
  | intrinsic type => type ∈ [.never, .any, .unknown, .null, .bigint, .symbol]
  | literal _ | array _ | callable [] => False
  | composite _ members => members = []
  | tuple elements => ∃ element ∈ elements, element.isRest = true
  | object properties _ => ¬ (properties.map (·.name)).Nodup
  | callable (signature :: overloads) =>
    (∃ parameter ∈ signature.parameters, parameter.isRest = true) ∨
      overloads ≠ [] ∧ policy = .rejectOverloads
  | pending => True

/-- The type is imported by a leaf rule. -/
def isLeaf : TypeData → Bool
  | intrinsic type => type.flags.primitive?.isSome
  | literal _ => true
  | _ => false

/-- An object is imported by the rule of objects, or by that of records. -/
lemma rule?_of_object (properties : List PropertyInfo) (indexes : List IndexSignature) :
    (object properties indexes).rule? = some .object ∨
      properties = [] ∧ (object properties indexes).rule? = some .record := by
  cases properties with
  | cons => exact .inl rfl
  | nil =>
    cases indexes with
    | nil => exact .inl rfl
    | cons index rest => cases rest <;> simp [rule?]

end TypeData

namespace TypeStore

variable (store : TypeStore)

/-- There is no schema for the type of a handle, which may not be handed out at all. -/
def Offending (policy : SignaturePolicy) (id : TypeId) : Prop :=
  match store.lookup id with
  | some data => data.Offending policy
  | none => True

/-- The node of the one type is made from the other one. -/
def Part (id part : TypeId) : Prop := ∃ data, store.lookup id = some data ∧ part ∈ data.imported

/-- The other type is met when the type is imported. -/
def Reaches : TypeId → TypeId → Prop := Relation.ReflTransGen store.Part

/-- The type has several properties of a name, which is the first one that is given again. -/
def Repeats (id : TypeId) (name : String) : Prop :=
  ∃ properties indexes, store.lookup id = some (.object properties indexes) ∧
    firstRepeated? [] (properties.map (·.name)) = some name

end TypeStore

namespace Importer

/-- The steps of the rule for what a handle stands for. -/
def dataSteps (importer : Importer) (id : TypeId) : TypeData → List ImportStep
  | .intrinsic _ | .literal _ | .pending => [importer.refusal id]
  | .composite _ members => importer.compositeSteps id members
  | .array element => [.part element]
  | .tuple elements => importer.elementSteps id elements
  | .object properties indexes => propertySteps properties ++ recordSteps indexes
  | .callable [] => []
  | .callable (signature :: overloads) => importer.functionSteps id (signature :: overloads)

section

variable {importer : Importer} {id part : TypeId} {data : TypeData} {error : ImportError}

/-- An intrinsic type has a schema exactly if it is a leaf. -/
lemma offending_intrinsic {type : Intrinsic} {policy : SignaturePolicy} :
    (TypeData.intrinsic type).Offending policy ↔ (TypeData.intrinsic type).isLeaf = false := by
  show type ∈ [.never, .any, .unknown, .null, .bigint, .symbol] ↔
    type.flags.primitive?.isSome = false
  cases type <;> decide

/-- Where a type has a schema, its rule imports the types that its node is made from. -/
lemma dataSteps_of_not_offending (l : data.isLeaf = false)
    (o : ¬ data.Offending importer.options.signaturePolicy) :
    importer.dataSteps id data = data.imported.map .part := by
  cases data with
  | intrinsic => exact absurd (offending_intrinsic.2 l) o
  | literal => cases l
  | pending => exact absurd trivial o
  | composite connective members =>
    cases members with
    | nil => exact absurd rfl o
    | cons => rfl
  | array => rfl
  | tuple elements =>
    show elements.map _ = (elements.map _).map _
    rw [List.map_map]
    exact List.map_congr_left fun element m => if_neg fun rest => o ⟨element, m, rest⟩
  | object properties indexes =>
    have once : firstRepeated? [] (properties.map (·.name)) = none :=
      firstRepeated?_eq_none.2 ⟨not_not.1 o, fun _ _ m => absurd m List.not_mem_nil⟩
    simp only [dataSteps, propertySteps, once, List.append_nil, TypeData.imported, List.map_append,
      List.map_map, recordSteps, List.map_flatMap]
    rfl
  | callable signatures =>
    cases signatures with
    | nil => rfl
    | cons signature overloads =>
      have accepted : ¬ (!overloads.isEmpty &&
          importer.options.signaturePolicy == .rejectOverloads) = true := by
        simpa using fun several policy => o (.inr ⟨several, policy⟩)
      have parameters : importer.parameterSteps id signature.parameters =
          (signature.parameters.map (·.type)).map .part := by
        unfold parameterSteps
        rw [List.map_map]
        exact List.map_congr_left fun parameter m =>
          if_neg fun rest => o (.inl ⟨parameter, m, rest⟩)
      simp only [dataSteps, functionSteps, if_neg accepted, parameters, TypeData.imported,
        List.map_append]
      rfl

/-- Where a type has no schema, its rule stops. -/
lemma exists_stop_of_offending (id : TypeId)
    (o : data.Offending importer.options.signaturePolicy) :
    data.isLeaf = false ∧ ∃ error, .stop error ∈ importer.dataSteps id data := by
  have refused : ∃ error, .stop error ∈ [importer.refusal id] := ⟨_, List.mem_singleton_self _⟩
  cases data with
  | intrinsic => exact ⟨offending_intrinsic.1 o, refused⟩
  | literal => exact o.elim
  | pending => exact ⟨rfl, refused⟩
  | composite connective members =>
    obtain rfl : members = [] := o
    exact ⟨rfl, refused⟩
  | array => exact o.elim
  | tuple elements =>
    obtain ⟨element, m, rest⟩ := o
    exact ⟨rfl, _, List.mem_map.2 ⟨element, m, if_pos rest⟩⟩
  | object properties indexes =>
    refine ⟨rfl, ?_⟩
    cases twice : firstRepeated? [] (properties.map (·.name)) with
    | none => exact absurd (firstRepeated?_eq_none.1 twice).1 o
    | some name =>
      refine ⟨.construction (.duplicateProperty name), List.mem_append_left _ ?_⟩
      unfold propertySteps
      rw [twice]
      exact List.mem_append_right _ (List.mem_singleton_self _)
  | callable signatures =>
    cases signatures with
    | nil => exact o.elim
    | cons signature overloads =>
      refine ⟨rfl, ?_⟩
      simp only [dataSteps, functionSteps]
      split
      case isTrue => exact refused
      case isFalse accepted =>
        rcases o with ⟨parameter, m, rest⟩ | ⟨several, policy⟩
        · exact ⟨_, List.mem_append_left _ (List.mem_map.2 ⟨parameter, m, if_pos rest⟩)⟩
        · exact absurd (by simp [several, policy]) accepted

/-- A step that may be that of a rest imports the type or refuses it. -/
lemma part_of_restStep {isRest : Bool} {type : TypeId}
    (e : (if isRest then importer.refusal id else .part type) = .part part) : part = type := by
  cases isRest with
  | true => cases e
  | false => exact (ImportStep.part.inj e).symm

/-- Only types that the node is made from are imported. -/
lemma imported_of_part (m : .part part ∈ importer.dataSteps id data) : part ∈ data.imported := by
  have refused : (.part part : ImportStep) ∉ [importer.refusal id] := by simp [refusal]
  cases data with
  | intrinsic => exact absurd m refused
  | literal => exact absurd m refused
  | pending => exact absurd m refused
  | composite connective members =>
    cases members with
    | nil => exact absurd m refused
    | cons member members =>
      obtain ⟨_, mm, e⟩ := List.mem_map.1 m
      exact ImportStep.part.inj e ▸ mm
  | array element =>
    exact List.mem_singleton.2 (ImportStep.part.inj (List.mem_singleton.1 m))
  | tuple elements =>
    obtain ⟨element, me, e⟩ := List.mem_map.1 m
    exact part_of_restStep e ▸ List.mem_map_of_mem me
  | object properties indexes =>
    rcases List.mem_append.1 m with m | m
    · have named : ∃ property ∈ properties, property.type = part := by
        rcases List.mem_append.1 m with m | m
        · simpa using m
        · split at m <;> simp at m
      exact List.mem_append_left _ (List.mem_map.2 named)
    · exact List.mem_append_right _ (by simpa [recordSteps] using m)
  | callable signatures =>
    cases signatures with
    | nil => cases m
    | cons signature overloads =>
      simp only [dataSteps, functionSteps] at m
      split at m
      · exact absurd m refused
      · rcases List.mem_append.1 m with m | m
        · obtain ⟨parameter, mp, e⟩ := List.mem_map.1 m
          exact List.mem_append_left _ (part_of_restStep e ▸ List.mem_map_of_mem mp)
        · exact List.mem_append_right _ (by simpa using m)

/-- A rule refuses the type as unsupported, or its object for a property that is given twice. -/
lemma reason_of_stop (m : .stop error ∈ importer.dataSteps id data) :
    error = .unsupportedType (importer.checker.typeText id) importer.file ∨
      ∃ properties indexes name, data = .object properties indexes ∧
        firstRepeated? [] (properties.map (·.name)) = some name ∧
        error = .construction (.duplicateProperty name) := by
  have refused : .stop error ∈ [importer.refusal id] →
      error = .unsupportedType (importer.checker.typeText id) importer.file :=
    fun m => ImportStep.stop.inj (List.mem_singleton.1 m)
  have rest : ∀ {isRest : Bool} {type : TypeId},
      (if isRest then importer.refusal id else .part type) = .stop error →
        error = .unsupportedType (importer.checker.typeText id) importer.file := by
    intro isRest type e
    cases isRest with
    | true => exact (ImportStep.stop.inj e).symm
    | false => cases e
  cases data with
  | intrinsic => exact .inl (refused m)
  | literal => exact .inl (refused m)
  | pending => exact .inl (refused m)
  | composite connective members =>
    cases members with
    | nil => exact .inl (refused m)
    | cons => simp [dataSteps, compositeSteps] at m
  | array => simp [dataSteps] at m
  | tuple elements =>
    obtain ⟨element, -, e⟩ := List.mem_map.1 m
    exact .inl (rest e)
  | object properties indexes =>
    simp only [dataSteps, propertySteps] at m
    cases twice : firstRepeated? [] (properties.map (·.name)) with
    | none => simp [twice, recordSteps] at m
    | some name =>
      refine .inr ⟨properties, indexes, name, rfl, twice, ?_⟩
      simpa [twice, recordSteps] using m
  | callable signatures =>
    cases signatures with
    | nil => cases m
    | cons signature overloads =>
      simp only [dataSteps, functionSteps] at m
      split at m
      · exact .inl (refused m)
      · rcases List.mem_append.1 m with m | m
        · obtain ⟨parameter, -, e⟩ := List.mem_map.1 m
          exact .inl (rest e)
        · simp at m

/-! ## Rules of handles -/

/-- Of a type without flags that count, without elements and without members nothing is made. -/
lemma ruleFor?_eq_none {flags : TypeFlags} (f : importer.checker.flags id = flags)
    (leaf : flags.hasLiteral = false ∧ flags.primitive? = none)
    (structured : flags.has .object = false ∧ flags.has .union = false ∧
      flags.has .intersection = false)
    (t : importer.checker.tupleElements? id = none)
    (a : importer.checker.arrayElement? id = none) : importer.checker.ruleFor? id = none := by
  refine List.find?_eq_none.2 fun rule _ => ?_
  cases rule <;> simp [ImportRule.applies, f, leaf, structured, t, a]

/-- A type without a rule is refused. -/
lemma refused_of_ruleFor? (r : importer.checker.ruleFor? id = none) :
    importer.importLeaf? id (importer.checker.flags id) = none ∧
      importer.steps id = [importer.refusal id] := by
  refine ⟨importLeaf?_eq_none.2 fun leaf _ => ?_, ?_⟩
  · have unruled := List.find?_eq_none.1 r leaf (by cases leaf <;> decide)
    simpa using unruled
  · unfold steps
    rw [r]

variable {store : TypeStore} (c : importer.checker = store.checker)

include c

/-- A handle that was not handed out is refused. -/
lemma refused_of_lookup (h : store.lookup id = none) :
    importer.importLeaf? id (importer.checker.flags id) = none ∧
      importer.steps id = [importer.refusal id] := by
  apply refused_of_ruleFor?
  have flags : importer.checker.flags id = .empty := by
    simp [c, TypeStore.checker, TypeStore.flags, h]
  apply ruleFor?_eq_none flags (by decide) (by decide)
  · simp [c, TypeStore.checker, TypeStore.tupleElements?, h]
  · simp [c, TypeStore.checker, TypeStore.arrayElement?, h]

/-- A leaf is imported as a node of its own. -/
lemma exists_leafNode (h : store.lookup id = some data) (l : data.isLeaf = true) :
    ∃ node, importer.LeafNode id node := by
  cases data with
  | literal value => exact ⟨_, leafNode_literal c h⟩
  | intrinsic type =>
    have flags : importer.checker.flags id = type.flags := by
      rw [c]
      exact TypeStore.checker_flags h
    have plain : type.flags.hasLiteral = false := by cases type <;> decide
    obtain ⟨primitive, p⟩ := Option.isSome_iff_exists.1 l
    refine ⟨.ofPrimitive primitive, .primitive ?_ (flags ▸ p)⟩
    simp [Checker.ruleFor?, ImportRule.all, ImportRule.applies, flags, plain, p]
  | _ => cases l

/-- The rule for a handle takes the steps for what the handle stands for. -/
lemma steps_of_lookup (h : store.lookup id = some data) (l : data.isLeaf = false) :
    importer.importLeaf? id (importer.checker.flags id) = none ∧
      importer.steps id = importer.dataSteps id data := by
  have ruled : ∀ rule, data.rule? = some rule → rule.isLeaf = false →
      importer.importLeaf? id (importer.checker.flags id) = none ∧
        importer.checker.ruleFor? id = some rule := by
    intro rule r n
    have rule := TypeStore.ruleFor?_checker h r
    rw [← c] at rule
    exact ⟨importLeaf?_of_ruleFor? rule n, rule⟩
  have flags : importer.checker.flags id = data.flags := by
    rw [c]
    exact TypeStore.checker_flags h
  have unruled : importer.checker.ruleFor? id = none →
      importer.dataSteps id data = [importer.refusal id] →
      importer.importLeaf? id (importer.checker.flags id) = none ∧
        importer.steps id = importer.dataSteps id data :=
    fun r e => e ▸ refused_of_ruleFor? r
  have tuple : importer.checker.tupleElements? id = store.tupleElements? id := by rw [c]; rfl
  have array : importer.checker.arrayElement? id = store.arrayElement? id := by rw [c]; rfl
  have members : importer.checker.constituents id = store.constituents id := by rw [c]; rfl
  have signatures : importer.checker.callSignatures id = store.callSignatures id := by rw [c]; rfl
  have properties : importer.checker.properties id = store.properties id := by rw [c]; rfl
  have indexes : importer.checker.indexSignatures id = store.indexSignatures id := by rw [c]; rfl
  cases data with
  | intrinsic type =>
    have plain : type.flags.hasLiteral = false ∧ type.flags.primitive? = none ∧
        type.flags.has .object = false ∧ type.flags.has .union = false ∧
        type.flags.has .intersection = false := by
      revert l
      cases type <;> decide
    refine unruled (ruleFor?_eq_none flags ⟨plain.1, plain.2.1⟩ plain.2.2 ?_ ?_) rfl
    · simp [tuple, TypeStore.tupleElements?, h]
    · simp [array, TypeStore.arrayElement?, h]
  | literal => cases l
  | pending =>
    refine unruled (ruleFor?_eq_none flags (by decide) (by decide) ?_ ?_) rfl
    · simp [tuple, TypeStore.tupleElements?, h]
    · simp [array, TypeStore.arrayElement?, h]
  | composite connective parts =>
    cases connective with
    | union =>
      obtain ⟨n, r⟩ := ruled .union rfl rfl
      exact ⟨n, by simp [steps, r, members, TypeStore.constituents, h, TypeData.constituents,
        dataSteps]⟩
    | intersection =>
      obtain ⟨n, r⟩ := ruled .intersection rfl rfl
      exact ⟨n, by simp [steps, r, members, TypeStore.constituents, h, TypeData.constituents,
        dataSteps]⟩
  | array element =>
    obtain ⟨n, r⟩ := ruled .array rfl rfl
    exact ⟨n, by simp [steps, r, array, TypeStore.arrayElement?, h, dataSteps]⟩
  | tuple elements =>
    obtain ⟨n, r⟩ := ruled .tuple rfl rfl
    exact ⟨n, by simp [steps, r, tuple, TypeStore.tupleElements?, h, dataSteps]⟩
  | object shape records =>
    have both : importer.checker.properties id = shape ∧
        importer.checker.indexSignatures id = records := by
      simp [properties, indexes, TypeStore.properties, TypeStore.indexSignatures, h]
    rcases TypeData.rule?_of_object shape records with r | ⟨rfl, r⟩
    · obtain ⟨n, r⟩ := ruled .object r rfl
      exact ⟨n, by simp [steps, r, both, dataSteps]⟩
    · -- Without properties the rule of records takes the same steps.
      obtain ⟨n, r⟩ := ruled .record r rfl
      exact ⟨n, by simp [steps, r, both, dataSteps, propertySteps, firstRepeated?]⟩
  | callable calls =>
    have called : importer.checker.callSignatures id = calls := by
      simp [signatures, TypeStore.callSignatures, h]
    cases calls with
    | nil =>
      -- Without a signature it is imported as an object without properties.
      have none : importer.checker.properties id = [] ∧
          importer.checker.indexSignatures id = [] := by
        simp [properties, indexes, TypeStore.properties, TypeStore.indexSignatures, h]
      have r : importer.checker.ruleFor? id = some .object := by
        simp [Checker.ruleFor?, ImportRule.all, ImportRule.applies, flags, TypeData.flags, called,
          tuple, array, none, TypeStore.tupleElements?, TypeStore.arrayElement?, h,
          TypeStore.flags_object]
      exact ⟨importLeaf?_of_ruleFor? r rfl,
        by simp [steps, r, none, dataSteps, propertySteps, recordSteps, firstRepeated?]⟩
    | cons signature overloads =>
      obtain ⟨n, r⟩ := ruled .function rfl rfl
      exact ⟨n, by simp [steps, r, called, dataSteps]⟩

/-- A type is blocked exactly if there is no schema for it. -/
lemma offending_iff_blocks :
    store.Offending importer.options.signaturePolicy id ↔ ∃ error, importer.Blocks id error := by
  unfold TypeStore.Offending
  cases h : store.lookup id with
  | none =>
    obtain ⟨n, p⟩ := refused_of_lookup c h
    have stops : .stop (.unsupportedType (importer.checker.typeText id) importer.file) ∈
        importer.steps id := by
      rw [p]
      exact List.mem_singleton_self _
    exact ⟨fun _ => ⟨_, .inr ⟨n, stops⟩⟩, fun _ => trivial⟩
  | some data =>
    cases l : data.isLeaf with
    | true =>
      obtain ⟨node, leaf⟩ := exists_leafNode c h l
      constructor
      · intro o
        have structured := (exists_stop_of_offending id o).1
        cases l.symm.trans structured
      · rintro ⟨error, blocks⟩
        exact absurd blocks leaf.not_blocks
    | false =>
      obtain ⟨n, p⟩ := steps_of_lookup c h l
      constructor
      · intro o
        obtain ⟨-, error, m⟩ := exists_stop_of_offending id o
        exact ⟨error, .inr ⟨n, p ▸ m⟩⟩
      · rintro ⟨error, blocks⟩
        by_contra o
        exact not_blocks_of_steps n (p.trans (dataSteps_of_not_offending l o)) blocks

/-- A type is blocked as unsupported, or for a property that it gives twice. -/
lemma reason_of_blocks (blocks : importer.Blocks id error) :
    error = .unsupportedType (store.typeText id) importer.file ∨
      ∃ name, store.Repeats id name ∧ error = .construction (.duplicateProperty name) := by
  have text : importer.checker.typeText id = store.typeText id := by
    rw [c]
    rfl
  cases h : store.lookup id with
  | none =>
    obtain ⟨n, p⟩ := refused_of_lookup c h
    rcases blocks with f | ⟨-, m⟩
    · cases n.symm.trans f
    · rw [p] at m
      rw [← text]
      exact .inl (ImportStep.stop.inj (List.mem_singleton.1 m))
  | some data =>
    cases l : data.isLeaf with
    | true =>
      obtain ⟨node, leaf⟩ := exists_leafNode c h l
      exact absurd blocks leaf.not_blocks
    | false =>
      obtain ⟨n, p⟩ := steps_of_lookup c h l
      rcases blocks with f | ⟨-, m⟩
      · cases n.symm.trans f
      · rw [p] at m
        rcases reason_of_stop m with e | ⟨properties, indexes, name, rfl, twice, e⟩
        · exact .inl (text ▸ e)
        · exact .inr ⟨name, ⟨properties, indexes, h, twice⟩, e⟩

/-- What the import of a type meets first are types that its node is made from. -/
lemma part_of_edge (e : importer.Edge id part) : store.Part id part := by
  unfold Edge at e
  cases h : store.lookup id with
  | none =>
    rw [(refused_of_lookup c h).2] at e
    simp [refusal] at e
  | some data =>
    cases l : data.isLeaf with
    | true =>
      obtain ⟨node, leaf⟩ := exists_leafNode c h l
      exact absurd e leaf.not_edge
    | false =>
      rw [(steps_of_lookup c h l).2] at e
      exact ⟨data, h, imported_of_part e⟩

/-- The import of a type with a schema meets all types that its node is made from. -/
lemma edge_of_part (o : ¬ store.Offending importer.options.signaturePolicy id)
    (e : store.Part id part) : importer.Edge id part := by
  obtain ⟨data, h, m⟩ := e
  unfold TypeStore.Offending at o
  rw [h] at o
  cases l : data.isLeaf with
  | true =>
    cases data with
    | intrinsic => cases m
    | literal => cases m
    | _ => cases l
  | false =>
    unfold Edge
    rw [(steps_of_lookup c h l).2, dataSteps_of_not_offending l o]
    exact List.mem_map_of_mem m

end

end Importer

/-! ## Imports from stores -/

namespace TypeStore

variable {store : TypeStore} {file : String} {options : ImportOptions} {root : TypeId}

/-- Unless an import from a store stops at a limit, it succeeds exactly if the root reaches no type
without a schema. When it stops it refuses such a type as unsupported, by its text, or an object for
a property that it gives twice. -/
theorem importRoot_iff_no_offending
    (limited : ∀ text, ((Importer.importRoot ⟨store.checker, file, options⟩ root).run
      (Importer.start ⟨store.checker, file, options⟩)).1 ≠
        .error (.failed (.depthLimitExceeded text))) :
    let importer : Importer := ⟨store.checker, file, options⟩
    let outcome := ((importer.importRoot root).run importer.start).1
    ((∃ node, outcome = .ok node) ↔
      ∀ id, store.Reaches root id → ¬ store.Offending options.signaturePolicy id) ∧
    ∀ stop, outcome = .error stop →
      ∃ bad, store.Reaches root bad ∧ store.Offending options.signaturePolicy bad ∧
        (stop = .failed (.unsupportedType (store.typeText bad) file) ∨
          ∃ name, store.Repeats bad name ∧
            stop = .failed (.construction (.duplicateProperty name))) := by
  intro importer outcome
  have c : importer.checker = store.checker := rfl
  have reached : ∀ {id}, importer.Reaches root id → store.Reaches root id :=
    Relation.ReflTransGen.mono (fun _ _ => Importer.part_of_edge c) _ _
  rcases Importer.importRoot_cases limited with ⟨⟨node, e⟩, free⟩ | ⟨bad, error, r, blocks, e⟩
  · have accepted : ∀ id, importer.Reaches root id →
        ¬ store.Offending options.signaturePolicy id := by
      intro id r o
      obtain ⟨error, blocks⟩ := (Importer.offending_iff_blocks c).1 o
      exact free id error r blocks
    have met : ∀ id, store.Reaches root id → importer.Reaches root id := by
      intro id r
      induction r with
      | refl => exact .refl
      | tail _ part ih => exact ih.tail (Importer.edge_of_part c (accepted _ ih) part)
    refine ⟨⟨fun _ id r => accepted id (met id r), fun _ => ⟨node, e⟩⟩, fun stop f => ?_⟩
    cases e.symm.trans f
  · have offending : store.Offending options.signaturePolicy bad :=
      (Importer.offending_iff_blocks c).2 ⟨error, blocks⟩
    refine ⟨⟨fun ⟨node, f⟩ => ?_, fun free => absurd offending (free bad (reached r))⟩,
      fun stop f => ?_⟩
    · cases e.symm.trans f
    · cases e.symm.trans f
      refine ⟨bad, reached r, offending, ?_⟩
      rcases Importer.reason_of_blocks c blocks with rfl | ⟨name, twice, rfl⟩
      · exact .inl rfl
      · exact .inr ⟨name, twice, rfl⟩

/-- A store with the type of linked lists of `bigint`. -/
def bigintList : TypeStore :=
  (TypeStore.new.object [⟨"next", ⟨13⟩, true, false, none⟩,
    ⟨"value", .bigint, false, false, none⟩]).2

/-- The lists are refused, so they reach a type without a schema, and it is `bigint`. -/
theorem bigintList_reaches_offending :
    ¬ (∀ id, bigintList.Reaches ⟨13⟩ id → ¬ bigintList.Offending .firstDeclared id) ∧
      ∃ bad, bigintList.Reaches ⟨13⟩ bad ∧ bigintList.Offending .firstDeclared bad ∧
        bigintList.typeText bad = "bigint" := by
  have refused : ((Importer.importRoot ⟨bigintList.checker, "types.ts", {}⟩ ⟨13⟩).run
      (Importer.start ⟨bigintList.checker, "types.ts", {}⟩)).1 =
        .error (.failed (.unsupportedType "bigint" "types.ts")) := by rfl
  obtain ⟨accepted, stops⟩ := @importRoot_iff_no_offending bigintList "types.ts" {} ⟨13⟩
    fun _ limit => by cases refused.symm.trans limit
  refine ⟨fun free => ?_, ?_⟩
  · obtain ⟨node, e⟩ := accepted.2 free
    cases refused.symm.trans e
  · obtain ⟨bad, reached, offending, unsupported | ⟨name, -, twice⟩⟩ := stops _ refused
    · injection unsupported with failure
      injection failure with text
      exact ⟨bad, reached, offending, text.symm⟩
    · cases twice

end TypeStore

end TypeSchema
