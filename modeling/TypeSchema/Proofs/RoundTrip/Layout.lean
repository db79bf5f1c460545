import TypeSchema.Proofs.Export.Body
import TypeSchema.Proofs.Import.Layout
import TypeSchema.Proofs.Import.Shape
import TypeSchema.Proofs.Lowering.Parts
import TypeSchema.Proofs.RoundTrip.Unfolding

/-!
# The layout of a node in a store

Where a handle stands for the expression of a node over the handles of its parts, the type is
imported by importing these handles in order, and what is built is the node with other parts.
-/

namespace TypeSchema.Schema

variable {store : TypeStore} {importer : Importer} {exporter : Exporter} {id id' : TypeId}
  {ids : List TypeId} {types : List TypeExpr} {node : Schema}

/-- A node built anew of other nodes for its parts. It carries no information of its own, and its
properties are documented as an export documents them. -/
def rebuilt (node : Schema) (nodes : List Schema) : Schema :=
  match node with
  | object properties _ => object (properties.zipWith (fun property node => (property.1,
      (node.atPlace property.2.splitOptional.2).documented
        (property.2.description <|> property.2.splitOptional.1.description))) nodes) {}
  | node => (node.withParts nodes).withInfo {}

lemma rebuilt_of_ne_object {nodes : List Schema}
    (n : ∀ properties info, node ≠ object properties info) :
    node.rebuilt nodes = (node.withParts nodes).withInfo {} := by
  cases node with
  | object properties info => exact absurd rfl (n properties info)
  | _ => rfl

lemma kind_rebuilt {nodes : List Schema} : (node.rebuilt nodes).kind = node.kind := by
  cases node with
  | object => rfl
  | _ =>
    rw [rebuilt_of_ne_object (fun _ _ e => by cases e), kind_withInfo]
    exact kind_withChildren

/-- No member of a union or an intersection is optional. -/
lemma rebuilt_composite {connective : Connective} {members nodes : List Schema} {info : NodeInfo}
    (l : nodes.length = members.length) :
    (composite connective members info).rebuilt nodes = composite connective nodes {} := by
  have e : (members.map fun member => (member, false)).zipWith
      (fun part node => Schema.atPlace part.2 node) nodes = nodes := by
    rw [List.zipWith_map_left]
    exact (zipWith_right l).trans (List.map_id' nodes)
  rw [rebuilt_of_ne_object fun _ _ e => by cases e]
  unfold withParts
  rw [show (composite connective members info).parts.zipWith _ nodes = nodes from e]
  rfl

/-- The type is imported by importing the given types, and what is built of them is the node with
these parts. -/
structure LaidOut (importer : Importer) (node : Schema) (id : TypeId) (ids : List TypeId) :
    Prop where
  leaf : importer.importLeaf? id (importer.checker.flags id) = none
  steps : importer.steps id = ids.map .part
  build : ∀ nodes : List Schema, nodes.length = ids.length →
    importer.build id nodes = node.rebuilt nodes

lemma withoutDescriptions_documented {documentation : Option String} :
    (node.documented documentation).withoutDescriptions = node.withoutDescriptions := by
  cases documentation with
  | none => rfl
  | some text =>
    rw [withoutDescriptions_eq, withoutDescriptions_eq]
    simp [documented, withDescription]

/-- Documentation does not matter once descriptions are cleared. -/
lemma withoutDescriptionsProperties_documented {properties : List (String × Schema)}
    {nodes : List Schema} {documentation : String × Schema → Option String} :
    withoutDescriptionsProperties (properties.zipWith (fun property node => (property.1,
        (node.atPlace property.2.splitOptional.2).documented (documentation property))) nodes) =
      withoutDescriptionsProperties (properties.zipWith (fun property node => (property.1, node))
        ((properties.map fun property => property.2.splitOptional).zipWith
          (fun part node => node.atPlace part.2) nodes)) := by
  induction properties generalizing nodes with
  | nil => rfl
  | cons property properties ih =>
    cases nodes with
    | nil => rfl
    | cons node nodes =>
      simp only [List.zipWith_cons_cons, List.map_cons, withoutDescriptionsProperties, ih,
        withoutDescriptions_documented]

/-- But for descriptions, a node is rebuilt as it is with other parts. -/
lemma rebuilt_resembles (node : Schema) (nodes : List Schema) :
    (node.rebuilt nodes).Resembles ((node.withParts nodes).withIdentifier none) := by
  have plain : ∀ x : Schema, (x.withInfo {}).Resembles (x.withIdentifier none) := by
    intro x
    unfold Resembles
    cases x <;> rfl
  cases node with
  | object properties info =>
    show object (withoutDescriptionsProperties _) _ = object (withoutDescriptionsProperties _) _
    rw [withoutDescriptionsProperties_documented]
    rfl
  | _ =>
    rw [rebuilt_of_ne_object fun _ _ e => by cases e]
    exact plain _

lemma LaidOut.resembles (laid : LaidOut importer node id ids) (nodes : List Schema)
    (l : nodes.length = ids.length) :
    (importer.build id nodes).Resembles ((node.withParts nodes).withIdentifier none) := by
  rw [laid.build nodes l]
  exact rebuilt_resembles node nodes

lemma laidOut_object {properties : List (String × Schema)} {info : NodeInfo}
    (c : importer.checker = store.checker) (n : (properties.map (·.1)).Nodup)
    (lt : types.length = properties.length) (li : ids.length = properties.length)
    (h : store.lookup id = some ((exporter.assemble (object properties info) types).layout ids)) :
    LaidOut importer (object properties info) id ids := by
  let shape : List PropertyInfo := (properties.zipWith propertySignature types).zipWith
    (fun member id => ⟨member.name, id, member.isOptional, false, member.documentation⟩) ids
  have h : store.lookup id = some (.object shape []) := h
  have ls : (properties.zipWith propertySignature types).length = properties.length := by
    simp [lt]
  have r : importer.checker.ruleFor? id = some .object := by
    rw [c]
    exact TypeStore.ruleFor?_checker h TypeData.rule?_object
  have p : importer.checker.properties id = shape := by
    simp [c, TypeStore.checker, TypeStore.properties, h]
  have i : importer.checker.indexSignatures id = [] := by
    simp [c, TypeStore.checker, TypeStore.indexSignatures, h]
  have names : shape.map (·.name) = properties.map (·.1) := by
    rw [List.map_zipWith]
    have e : ∀ (members : List (PropertySignature TypeExpr)), ids.length = members.length →
        members.zipWith (fun member _ => member.name) ids = members.map (·.name) :=
      fun _ l => zipWith_left l
    rw [e _ (li.trans ls.symm), List.map_zipWith]
    exact zipWith_left lt
  have typeIds : shape.map (·.type) = ids := by
    rw [List.map_zipWith]
    exact (zipWith_right (li.trans ls.symm)).trans (List.map_id' ids)
  refine ⟨Importer.importLeaf?_of_ruleFor? r rfl, ?_, fun nodes l => ?_⟩
  · have once : firstRepeated? [] (shape.map (·.name)) = none := by
      rw [names]
      exact firstRepeated?_eq_none.2 ⟨n, fun _ _ m => absurd m List.not_mem_nil⟩
    have e : shape.map (fun property => ImportStep.part property.type) = ids.map .part := by
      rw [← typeIds, List.map_map]
      rfl
    unfold Importer.steps
    rw [r, p, i]
    show Importer.propertySteps shape ++ [] = _
    rw [Importer.propertySteps, once, e, List.append_nil, List.append_nil]
  · unfold Importer.build
    rw [r, p, i]
    show object (shape.zipWith PropertyInfo.node nodes) {} = object _ {}
    have e : shape.zipWith PropertyInfo.node nodes =
        properties.zipWith (fun property node => (property.1,
          (node.atPlace property.2.splitOptional.2).documented
            (property.2.description <|> property.2.splitOptional.1.description))) nodes := by
      have outer : ∀ members : List (PropertySignature TypeExpr), ids.length = members.length →
          (members.zipWith (fun member id => (⟨member.name, id, member.isOptional, false,
            member.documentation⟩ : PropertyInfo)) ids).zipWith PropertyInfo.node nodes =
          members.zipWith (fun member node => (member.name,
            (node.atPlace member.isOptional).documented member.documentation)) nodes :=
        fun _ l => zipWith_zipWith_left (by intros; rfl) l nodes
      rw [outer _ (li.trans ls.symm)]
      exact zipWith_zipWith_left (by intros; rfl) lt nodes
    rw [e]

lemma laidOut_array {element : Schema} {info : NodeInfo} {type : TypeExpr}
    (c : importer.checker = store.checker)
    (h : store.lookup id = some ((exporter.assemble (array element info) [type]).layout [id'])) :
    LaidOut importer (array element info) id [id'] := by
  have h : store.lookup id = some (.array id') := h
  have r : importer.checker.ruleFor? id = some .array := by
    rw [c]
    exact TypeStore.ruleFor?_checker h rfl
  have p : importer.checker.arrayElement? id = some id' := by
    simp [c, TypeStore.checker, TypeStore.arrayElement?, h]
  refine ⟨Importer.importLeaf?_of_ruleFor? r rfl, ?_, fun nodes l => ?_⟩
  · unfold Importer.steps
    rw [r, p]
    rfl
  · obtain ⟨node, rfl⟩ := List.length_eq_one_iff.1 l
    unfold Importer.build
    rw [r]
    rfl

lemma laidOut_tuple {elements : List Schema} {info : NodeInfo}
    (c : importer.checker = store.checker) (lt : types.length = elements.length)
    (li : ids.length = elements.length)
    (h : store.lookup id = some ((exporter.assemble (tuple elements info) types).layout ids)) :
    LaidOut importer (tuple elements info) id ids := by
  let members : List TupleElement := ((splitTrailing elements).zipWith tupleMember types).zipWith
    (fun member id => ⟨id, member.isOptional, false⟩) ids
  have h : store.lookup id = some (.tuple members) := h
  have lt : types.length = (splitTrailing elements).length := by rw [lt, splitTrailing_length]
  have ls : ids.length = ((splitTrailing elements).zipWith tupleMember types).length := by
    simp [lt, li]
  have r : importer.checker.ruleFor? id = some .tuple := by
    rw [c]
    exact TypeStore.ruleFor?_checker h rfl
  have p : importer.checker.tupleElements? id = some members := by
    simp [c, TypeStore.checker, TypeStore.tupleElements?, h]
  refine ⟨Importer.importLeaf?_of_ruleFor? r rfl, ?_, fun nodes l => ?_⟩
  · unfold Importer.steps
    rw [r, p]
    show importer.elementSteps id members = _
    unfold Importer.elementSteps
    rw [List.map_zipWith]
    exact zipWith_right ls
  · unfold Importer.build
    rw [r, p]
    show tuple (members.zipWith (fun element node => node.atPlace element.isOptional) nodes) {} = _
    have e : members.zipWith (fun element node => node.atPlace element.isOptional) nodes =
        (splitTrailing elements).zipWith (fun part node => node.atPlace part.2) nodes := by
      have outer : members.zipWith (fun element node => node.atPlace element.isOptional) nodes =
          ((splitTrailing elements).zipWith tupleMember types).zipWith
            (fun member node => node.atPlace member.isOptional) nodes :=
        zipWith_zipWith_left (by intros; rfl) ls nodes
      exact outer.trans (zipWith_zipWith_left (by intros; rfl) lt nodes)
    rw [e]
    rfl

lemma laidOut_composite {connective : Connective} {members : List Schema} {info : NodeInfo}
    (c : importer.checker = store.checker) (w : 2 ≤ members.length)
    (li : ids.length = members.length)
    (h : store.lookup id =
      some ((exporter.assemble (composite connective members info) types).layout ids)) :
    LaidOut importer (composite connective members info) id ids := by
  have h : store.lookup id = some (.composite connective ids) := h
  have r : importer.checker.ruleFor? id = some connective.rule := by
    rw [c]
    exact TypeStore.ruleFor?_checker h (by cases connective <;> rfl)
  have p : importer.checker.constituents id = ids := by
    simp [c, TypeStore.checker, TypeStore.constituents, h, TypeData.constituents]
  refine ⟨Importer.importLeaf?_of_ruleFor? r (by cases connective <;> rfl), ?_, fun nodes l => ?_⟩
  · have steps : importer.compositeSteps id ids = ids.map .part := by
      cases ids with
      | nil =>
        simp at li
        omega
      | cons => rfl
    unfold Importer.steps
    rw [r, p]
    cases connective <;> exact steps
  · have joined : Importer.joined connective nodes = .composite connective nodes {} :=
      Importer.joined_of_length_ne_one (by omega)
    unfold Importer.build
    rw [r, rebuilt_composite (l.trans li)]
    cases connective <;> exact joined

lemma laidOut_record {key value : Schema} {info : NodeInfo} {keyId valueId : TypeId}
    (c : importer.checker = store.checker)
    (h : store.lookup id =
      some ((exporter.assemble (record key value info) types).layout [keyId, valueId])) :
    LaidOut importer (record key value info) id [keyId, valueId] := by
  have h : store.lookup id = some (.object [] [{ key := keyId, value := valueId }]) := h
  have r : importer.checker.ruleFor? id = some .record := by
    rw [c]
    exact TypeStore.ruleFor?_checker h rfl
  have i : importer.checker.indexSignatures id = [{ key := keyId, value := valueId }] := by
    simp [c, TypeStore.checker, TypeStore.indexSignatures, h]
  refine ⟨Importer.importLeaf?_of_ruleFor? r rfl, ?_, fun nodes l => ?_⟩
  · unfold Importer.steps
    rw [r, i]
    rfl
  · unfold Importer.build
    rw [r]
    obtain ⟨key', value', rfl⟩ := List.length_eq_two.1 l
    rfl

/-- There are as many parameters as members. -/
lemma length_parameters {position : Nat} {members : List (Schema × Bool)}
    (lt : types.length = members.length) :
    (exporter.parameters position members types).length = members.length := by
  induction members generalizing position types with
  | nil => simp [Exporter.parameters]
  | cons member members ih =>
    cases types with
    | nil => simp at lt
    | cons type types => simp [Exporter.parameters, ih (Nat.succ.inj lt)]

/-- The parameters are optional where the members are. -/
lemma parameters_zipWith_atPlace {position : Nat} {members : List (Schema × Bool)}
    (lt : types.length = members.length) (nodes : List Schema) :
    (exporter.parameters position members types).zipWith
        (fun parameter node => node.atPlace parameter.isOptional) nodes =
      members.zipWith (fun part node => node.atPlace part.2) nodes := by
  induction members generalizing position types nodes with
  | nil => simp [Exporter.parameters]
  | cons member members ih =>
    cases types with
    | nil => simp at lt
    | cons type types =>
      cases nodes with
      | nil => simp
      | cons node nodes => simp [Exporter.parameters, ih (Nat.succ.inj lt)]

lemma laidOut_function {arguments : List Schema} {returns : Schema} {info : NodeInfo}
    {type : TypeExpr} {returnsId : TypeId} (c : importer.checker = store.checker)
    (lt : types.length = arguments.length) (li : ids.length = arguments.length)
    (h : store.lookup id = some ((exporter.assemble (function arguments returns info)
      (types ++ [type])).layout (ids ++ [returnsId]))) :
    LaidOut importer (function arguments returns info) id (ids ++ [returnsId]) := by
  have lt : types.length = (splitTrailing arguments).length := by rw [lt, splitTrailing_length]
  have li : ids.length = (splitTrailing arguments).length := by rw [li, splitTrailing_length]
  have lp : ids.length = (exporter.parameters 0 (splitTrailing arguments) types).length := by
    rw [length_parameters lt, li]
  let infos : List ParameterInfo :=
    (exporter.parameters 0 (splitTrailing arguments) types).zipWith
      (fun parameter id => ⟨some parameter.name, id, parameter.isOptional, false⟩) ids
  have h : store.lookup id = some (.callable [⟨infos, returnsId⟩]) := by
    rw [h, Exporter.assemble, Exporter.parameters_append lt, TypeExpr.layout,
      zipWith_append_right lp, List.getLastD_concat]
  have r : importer.checker.ruleFor? id = some .function := by
    rw [c]
    exact TypeStore.ruleFor?_checker h rfl
  have p : importer.checker.callSignatures id = [⟨infos, returnsId⟩] := by
    simp [c, TypeStore.checker, TypeStore.callSignatures, h]
  refine ⟨Importer.importLeaf?_of_ruleFor? r rfl, ?_, fun nodes l => ?_⟩
  · have steps : importer.parameterSteps id infos = ids.map .part := by
      unfold Importer.parameterSteps
      rw [List.map_zipWith]
      exact zipWith_right lp
    unfold Importer.steps
    rw [r, p]
    show importer.parameterSteps id infos ++ [.part returnsId] = _
    rw [steps, List.map_append]
    rfl
  · obtain ⟨before, last, rfl⟩ : ∃ before last, nodes = before ++ [last] :=
      ⟨nodes.dropLast, nodes.getLast (by rintro rfl; simp at l),
        (List.dropLast_concat_getLast _).symm⟩
    have lb : before.length = (splitTrailing arguments).length := by simpa [li] using l
    have li' : infos.length = (splitTrailing arguments).length := by
      simp [infos, length_parameters lt, li]
    -- The marks that are read off the signature are those that the arguments were split by.
    have built : infos.zipWith (fun parameter node => Schema.atPlace parameter.isOptional node)
        (before ++ [last]) =
          (splitTrailing arguments).zipWith (fun part node => node.atPlace part.2) before := by
      rw [zipWith_append_right (lb.trans li'.symm)]
      have outer : infos.zipWith (fun parameter node => node.atPlace parameter.isOptional) before =
          (exporter.parameters 0 (splitTrailing arguments) types).zipWith
            (fun parameter node => node.atPlace parameter.isOptional) before :=
        zipWith_zipWith_left (by intros; rfl) lp before
      exact outer.trans (parameters_zipWith_atPlace lt before)
    have parts : (function arguments returns info).parts.zipWith
        (fun part node => Schema.atPlace part.2 node) (before ++ [last]) =
          (splitTrailing arguments).zipWith (fun part node => node.atPlace part.2) before ++
            [last] := by
      show (splitTrailing arguments ++ [(returns, false)]).zipWith _ _ = _
      rw [List.zipWith_append lb.symm]
      rfl
    rw [rebuilt_of_ne_object fun _ _ e => by cases e]
    unfold Importer.build withParts
    rw [r, p, parts]
    show function (infos.zipWith _ _) _ {} = _
    rw [built]
    simp only [withChildren, List.getLastD_concat, List.dropLast_concat]
    rfl

/-- A node whose expression is laid out over the handles of its parts is imported from them. -/
theorem laidOut (c : importer.checker = store.checker) (k : node.mayBeIdentified)
    (w : node.RootWellFormed) (li : ids.length = node.parts.length)
    (h : store.lookup id = some ((exporter.body node).layout ids)) :
    LaidOut importer node id ids := by
  rw [Exporter.body_eq] at h
  have lt : (node.parts.map fun part => exporter.partType part.1).length = node.parts.length :=
    List.length_map _
  cases node with
  | object properties =>
    have l : ∀ n, n = (properties.map fun property => property.2.splitOptional).length →
        n = properties.length := fun n e => e.trans (List.length_map _)
    exact laidOut_object c w (l _ lt) (l _ li) h
  | array =>
    obtain ⟨id', rfl⟩ := List.length_eq_one_iff.1 li
    exact laidOut_array c h
  | tuple => exact laidOut_tuple c (lt.trans splitTrailing_length) (li.trans splitTrailing_length) h
  | composite => exact laidOut_composite c w (li.trans (List.length_map _)) h
  | record =>
    obtain ⟨keyId, valueId, rfl⟩ := List.length_eq_two.1 li
    exact laidOut_record c h
  | function arguments returns info =>
    have li : ids.length = (splitTrailing arguments).length + 1 := li.trans List.length_append
    obtain ⟨before, last, rfl⟩ : ∃ before last, ids = before ++ [last] :=
      ⟨ids.dropLast, ids.getLast (by rintro rfl; simp at li),
        (List.dropLast_concat_getLast _).symm⟩
    have li : before.length = arguments.length := by simpa using li
    have e : (function arguments returns info).parts.map (fun part => exporter.partType part.1) =
        (splitTrailing arguments).map (fun part => exporter.partType part.1) ++
          [exporter.partType returns] := List.map_append
    rw [e] at h
    exact laidOut_function c (by simp) li h
  | _ => exact k.elim

end TypeSchema.Schema
