import Mathlib
import TypeSchema.Export.Declarations
import TypeSchema.Graph.Queries
import TypeSchema.Proofs.Export.Body
import TypeSchema.Proofs.Import.Consistent
import TypeSchema.Proofs.Import.Shape

/-!
# Imported types in type syntax

`Renders` follows a type through its import and export: the type is imported as a tree, and the tree
is one type expression. An object type has the members of its properties, in order. A property that
the checker calls optional is marked so in the expression unless its type admits `undefined` in a
way of its own: then the import adds no mark, and the export finds none.
-/

namespace TypeSchema

/-- A part and its place have the same expression, or `undefined` beside it in one of the two. -/
inductive TypeExpr.UpToUndefined : TypeExpr → TypeExpr → Prop
  | same {type} : UpToUndefined type type
  | added {type} : UpToUndefined (.composite .union [type, .keyword .undefined]) type
  | removed {type} : UpToUndefined type (.composite .union [type, .keyword .undefined])

/-- The node does not admit `undefined`, or is an unidentified union of another node and
`undefined`, in this order. -/
def Schema.KeepsMark (node : Schema) : Prop :=
  node.admitsUndefined = false ∨
    ∃ type info description,
      node = .composite .union [type, .primitive .undefined info] { description }

/-- The member is the signature of the property, whose type is imported as the node and has the
expression. -/
structure PropertyInfo.SignatureOf (property : PropertyInfo) (node : Schema) (type : TypeExpr)
    (member : PropertySignature TypeExpr) : Prop where
  name : member.name = property.name
  type : member.type.UpToUndefined type
  isOptional : property.isOptional = true → (member.isOptional = true ↔ node.KeepsMark)

/-- The members are the signatures of the properties, one for each in order. -/
inductive Signatures : List PropertyInfo → List Schema → List TypeExpr →
    List (PropertySignature TypeExpr) → Prop
  | nil : Signatures [] [] [] []
  | cons {property properties node nodes type types member members} :
    property.SignatureOf node type member →
    Signatures properties nodes types members →
    Signatures (property :: properties) (node :: nodes) (type :: types) (member :: members)

namespace Importer

/-- The expression of a type whose parts are imported as the nodes and have the expressions. -/
inductive Assembles (importer : Importer) (id : TypeId) :
    List Schema → List TypeExpr → TypeExpr → Prop
  | function {nodes types parameters returns} :
    importer.checker.ruleFor? id = some .function →
    List.Forall₂ (fun (parameter : Parameter TypeExpr) type => parameter.type.UpToUndefined type)
      parameters types →
    Assembles importer id nodes (types ++ [returns]) (.function parameters returns)
  | tuple {nodes types members} :
    importer.checker.ruleFor? id = some .tuple →
    List.Forall₂ (fun (member : TupleMember TypeExpr) type => member.type.UpToUndefined type)
      members types →
    Assembles importer id nodes types (.tuple members)
  | array {nodes type} :
    importer.checker.ruleFor? id = some .array →
    Assembles importer id nodes [type] (.array type)
  | single {nodes member type} :
    importer.Link id member →
    Assembles importer id nodes [type] type
  | composite {nodes types} {connective : Connective} :
    importer.checker.ruleFor? id = some connective.rule →
    Assembles importer id nodes types (.composite connective types)
  | record {nodes key value} :
    importer.checker.ruleFor? id = some .record →
    Assembles importer id nodes [key, value] (.named "Record" [key, value])
  | object {nodes types members} :
    importer.checker.ruleFor? id = some .object →
    importer.checker.indexSignatures id = [] →
    Signatures (importer.checker.properties id) nodes types members →
    Assembles importer id nodes types (.object members)
  /-- The members of the properties, if there are any, beside a record for every index signature. -/
  | indexed {nodes others types members} {entries : List (TypeExpr × TypeExpr)} :
    importer.checker.ruleFor? id = some .object →
    entries.length = (importer.checker.indexSignatures id).length →
    Signatures (importer.checker.properties id) nodes types members →
    Assembles importer id (nodes ++ others)
      (types ++ entries.flatMap fun entry => [entry.1, entry.2])
      (.composite .intersection
        ((if importer.checker.properties id = [] then [] else [.object members]) ++
          entries.map fun entry => .named "Record" [entry.1, entry.2]))

/-- The type is imported as the node, and the node is exported as the expression. -/
inductive Renders (importer : Importer) : TypeId → Schema → TypeExpr → Prop
  | literal {id value} :
    importer.LeafNode id (.literal value {}) →
    Renders importer id (.literal value {}) (.literal value)
  | primitive {id} {type : Primitive} :
    importer.LeafNode id (.primitive type {}) →
    Renders importer id (.primitive type {}) (.keyword type.keyword)
  | reference {id target} :
    Renders importer id (.reference target {}) (.reference target)
  | expanded {id ids nodes node types type identifier} :
    importer.Shape id ids nodes node →
    List.Forall₂ (fun part type => Renders importer part.1 part.2 type) (ids.zip nodes) types →
    importer.Assembles id nodes types type →
    Renders importer id (node.under identifier) type

end Importer

/-! ## Marks of optional members -/

namespace Schema

variable {exporter : Exporter} {node : Schema} {isOptional : Bool} {documentation : Option String}
  {info : NodeInfo}

lemma parts_withInfo : (node.withInfo info).parts = node.parts := by
  cases node <;> rfl

lemma body_withInfo : exporter.body (node.withInfo info) = exporter.body node := by
  rw [Exporter.body_eq, Exporter.body_eq, parts_withInfo]
  cases node <;> rfl

lemma optionalType?_withInfo : (node.withInfo info).optionalType? = node.optionalType? := by
  cases node with
  | composite connective members =>
    unfold withInfo optionalType?
    split
    case h_1 e =>
      cases e
      rfl
    case h_2 n =>
      split
      case h_1 e =>
        cases e
        exact absurd rfl (n _ _ _)
      case h_2 => rfl
  | _ => rfl

/-- A description changes nothing about the mark of an optional member. -/
lemma splitOptional_documented (exporter : Exporter) (node : Schema)
    (documentation : Option String) :
    exporter.body (node.documented documentation).splitOptional.1 =
        exporter.body node.splitOptional.1 ∧
      (node.documented documentation).splitOptional.2 = node.splitOptional.2 := by
  cases documentation with
  | none => exact ⟨rfl, rfl⟩
  | some text =>
    have identifier : (node.withDescription (some text)).identifier = node.identifier :=
      identifier_withDescription
    have type : (node.withDescription (some text)).optionalType? = node.optionalType? :=
      optionalType?_withInfo
    simp only [documented, splitOptional, identifier, type]
    split
    case h_1 => exact ⟨rfl, rfl⟩
    case h_2 => exact ⟨body_withInfo, rfl⟩

/-- A member is split if it is an unidentified union of its type and `undefined`. -/
lemma isSplit_iff : node.splitOptional.2 = true ↔
    ∃ type info description,
      node = .composite .union [type, .primitive .undefined info] { description } := by
  constructor
  · intro h
    unfold splitOptional at h
    split at h
    case h_1 n t =>
      unfold optionalType? at t
      split at t
      case h_1 type info info' =>
        obtain ⟨description, identifier⟩ := info'
        cases n
        exact ⟨type, info, description, rfl⟩
      case h_2 => cases t
    case h_2 => cases h
  · rintro ⟨type, info, description, rfl⟩
    rfl

/-- A member keeps the mark of being optional as its type does. -/
lemma isSplit_toOptional : node.toOptional.splitOptional.2 = true ↔ node.KeepsMark := by
  unfold toOptional KeepsMark
  cases a : node.admitsUndefined with
  | true =>
    rw [if_pos rfl, isSplit_iff]
    exact ⟨.inr, fun h => h.resolve_left nofun⟩
  | false =>
    rw [if_neg (by simp)]
    exact ⟨fun _ => .inl rfl, fun _ => rfl⟩

end Schema

namespace Exporter

variable {exporter : Exporter} {node : Schema} {isOptional : Bool}

lemma partType_of_not_hoists (h : exporter.hoists = false) :
    exporter.partType node = exporter.body node := by
  unfold partType hoisted?
  rw [h]
  rfl

lemma body_union (h : exporter.hoists = false) {info info' : NodeInfo} :
    exporter.body (.composite .union [node, .primitive .undefined info] info') =
      .composite .union [exporter.body node, .keyword .undefined] := by
  have undefined : exporter.body (.primitive .undefined info) = .keyword .undefined := by
    rw [body_eq]
    rfl
  rw [body_eq]
  simp only [Schema.parts, List.map_cons, List.map_nil, partType_of_not_hoists h, assemble,
    undefined]

/-- Taking the mark off a member takes at most `undefined` from its expression. -/
lemma upToUndefined_splitOptional (h : exporter.hoists = false) :
    (exporter.body node.splitOptional.1).UpToUndefined (exporter.body node) := by
  cases s : node.splitOptional.2 with
  | true =>
    obtain ⟨type, info, description, rfl⟩ := Schema.isSplit_iff.1 s
    rw [body_union h]
    exact .removed
  | false =>
    have whole : node.splitOptional.1 = node := by
      unfold Schema.splitOptional at s ⊢
      split at s
      case h_1 => cases s
      case h_2 => rfl
    rw [whole]
    exact .same

/-- A part at a place that may be optional has its expression there, whether the place is split or
not. -/
lemma upToUndefined_atPlace (h : exporter.hoists = false) {part : Schema × Bool}
    (e : part = (node.atPlace isOptional, false) ∨ part = (node.atPlace isOptional).splitOptional) :
    (exporter.body part.1).UpToUndefined (exporter.body node) := by
  by_cases plain : isOptional = true ∧ node.admitsUndefined = false
  · obtain ⟨rfl, a⟩ := plain
    have wrapped : node.atPlace true = .composite .union [node, Schema.undefinedNode] {} := by
      simp [Schema.atPlace, Schema.toOptional, a]
    rw [wrapped] at e
    rcases e with rfl | rfl
    · show (exporter.body (.composite .union [node, .primitive .undefined {}] {})).UpToUndefined _
      rw [body_union h]
      exact .added
    · exact .same
  · -- The place holds the node itself, which is split if it looks like an optional member.
    have kept : node.atPlace isOptional = node := by
      cases isOptional with
      | false => rfl
      | true =>
        have a : node.admitsUndefined = true := by simpa using plain
        simp [Schema.atPlace, Schema.toOptional, a]
    rw [kept] at e
    rcases e with rfl | rfl
    · exact .same
    · exact upToUndefined_splitOptional h

lemma signatureOf_propertySignature (h : exporter.hoists = false) (property : PropertyInfo) :
    property.SignatureOf node (exporter.body node)
      (Schema.propertySignature (property.node node)
        (exporter.body (property.node node).2.splitOptional.1)) := by
  obtain ⟨body, split⟩ := Schema.splitOptional_documented exporter
    (node.atPlace property.isOptional) property.documentation
  refine ⟨rfl, ?_, fun o => ?_⟩
  · show (exporter.body (Schema.documented _ _).splitOptional.1).UpToUndefined _
    rw [body]
    exact upToUndefined_atPlace h (.inr rfl)
  · show (Schema.documented _ _).splitOptional.2 = true ↔ _
    rw [split, o]
    exact Schema.isSplit_toOptional

end Exporter

/-! ## Expressions of imported types -/

namespace Importer

open Exporter

variable {importer : Importer} {exporter : Exporter} {id : TypeId} {ids : List TypeId}
  {node : Schema} {nodes : List Schema} {s s' : ImportState}

lemma signatures_propertySignature (h : exporter.hoists = false) {properties : List PropertyInfo}
    (l : nodes.length = properties.length) :
    Signatures properties nodes (nodes.map exporter.body)
      ((properties.zipWith PropertyInfo.node nodes).zipWith Schema.propertySignature
        ((properties.zipWith PropertyInfo.node nodes).map fun property =>
          exporter.body property.2.splitOptional.1)) := by
  induction properties generalizing nodes with
  | nil =>
    obtain rfl := List.length_eq_zero_iff.1 l
    exact .nil
  | cons property properties ih =>
    cases nodes with
    | nil => cases l
    | cons node nodes =>
      exact .cons (signatureOf_propertySignature h property) (ih (Nat.succ.inj l))

/-- The object of the properties has their signatures as its members. -/
lemma body_object (h : exporter.hoists = false) {shape : List (String × Schema)}
    {info : NodeInfo} :
    exporter.body (.object shape info) = .object (shape.zipWith Schema.propertySignature
      (shape.map fun property => exporter.body property.2.splitOptional.1)) := by
  rw [body_eq]
  simp only [Schema.parts, List.map_map, assemble]
  congr 2
  exact List.map_congr_left fun property _ => partType_of_not_hoists h

lemma body_composite (h : exporter.hoists = false) {connective : Connective} {info : NodeInfo} :
    exporter.body (.composite connective nodes info) =
      .composite connective (nodes.map exporter.body) := by
  rw [body_eq]
  simp only [Schema.parts, List.map_map, assemble]
  congr 1
  exact List.map_congr_left fun node _ => partType_of_not_hoists h

lemma body_record (h : exporter.hoists = false) {key value : Schema} {info : NodeInfo} :
    exporter.body (.record key value info) =
      .named "Record" [exporter.body key, exporter.body value] := by
  rw [body_eq]
  simp only [Schema.parts, List.map_cons, List.map_nil, assemble, partType_of_not_hoists h]

lemma body_tuple (h : exporter.hoists = false) {info : NodeInfo} :
    exporter.body (.tuple nodes info) = .tuple ((Schema.splitTrailing nodes).zipWith
      Schema.tupleMember ((Schema.splitTrailing nodes).map fun part => exporter.body part.1)) := by
  rw [body_eq]
  simp only [Schema.parts, assemble, partType_of_not_hoists h]

lemma map_type_tupleMember {parts : List (Schema × Bool)} {types : List TypeExpr}
    (l : types.length = parts.length) :
    (parts.zipWith Schema.tupleMember types).map (·.type) = types := by
  rw [List.map_zipWith]
  exact (zipWith_right (f := fun type => type) l).trans (List.map_id _)

lemma body_function (h : exporter.hoists = false) {returns : Schema} {info : NodeInfo} :
    exporter.body (.function nodes returns info) =
      .function (exporter.parameters 0 (Schema.splitTrailing nodes)
        ((Schema.splitTrailing nodes).map fun part => exporter.body part.1))
        (exporter.body returns) := by
  rw [body_eq]
  simp only [Schema.parts, List.map_append, assemble, List.map_cons, List.map_nil,
    List.getLastD_concat, partType_of_not_hoists h]
  rw [parameters_append (List.length_map _)]

/-- Members at places that may be optional have the expressions of their parts. -/
lemma forall₂_splitTrailing (h : exporter.hoists = false) {α : Type} {as : List α}
    (isOptional : α → Bool) (l : nodes.length = as.length) :
    List.Forall₂ (fun (part : Schema × Bool) type => (exporter.body part.1).UpToUndefined type)
      (Schema.splitTrailing (as.zipWith (fun a => Schema.atPlace (isOptional a)) nodes))
      (nodes.map exporter.body) := by
  have all := Schema.forall₂_splitRun (as.zipWith (fun a => Schema.atPlace (isOptional a)) nodes)
  unfold Schema.splitTrailing
  revert all
  generalize (Schema.splitRun _).1 = parts
  intro all
  induction as generalizing nodes parts with
  | nil =>
    obtain rfl := List.length_eq_zero_iff.1 l
    cases all
    exact .nil
  | cons a as ih =>
    cases nodes with
    | nil => cases l
    | cons node nodes =>
      cases all with
      | cons first rest =>
        exact .cons (upToUndefined_atPlace h first) (ih (Nat.succ.inj l) _ rest)

/-- What is built of the nodes of a type's parts is exported as the type prescribes. -/
lemma Shape.assembles (h : exporter.hoists = false) (shape : importer.Shape id ids nodes node) :
    importer.Assembles id nodes (nodes.map exporter.body) (exporter.body node) := by
  cases shape with
  | @function signature overloads arguments returns r c l =>
    have all := forall₂_splitTrailing h ParameterInfo.isOptional l
    rw [body_function h, List.map_append]
    refine .function r ((List.forall₂_map_left_iff (f := Parameter.type)).1 ?_)
    rw [map_type_parameters (List.length_map _)]
    exact List.forall₂_map_left_iff.2 all
  | @tuple elements nodes r e l =>
    have all := forall₂_splitTrailing h TupleElement.isOptional l
    rw [body_tuple h]
    refine .tuple r ((List.forall₂_map_left_iff (f := TupleMember.type)).1 ?_)
    rw [map_type_tupleMember (List.length_map _)]
    exact List.forall₂_map_left_iff.2 all
  | @array element node r e =>
    rw [body_eq]
    simp only [Schema.parts, List.map_cons, List.map_nil, assemble, partType_of_not_hoists h]
    exact .array r
  | single k => exact .single k
  | @composite nodes connective r two l =>
    rw [body_composite h]
    exact .composite r
  | @record signature key value r e =>
    rw [body_record h]
    exact .record r
  | @object nodes r c l =>
    rw [body_object h]
    exact .object r c (signatures_propertySignature h l)
  | @indexed nodes entries r ne l le =>
    let types := entries.map fun entry => (exporter.body entry.1, exporter.body entry.2)
    have parts : (entries.flatMap fun entry => [entry.1, entry.2]).map exporter.body =
        types.flatMap fun entry => [entry.1, entry.2] := by
      rw [List.map_flatMap, List.flatMap_map]
      rfl
    have object : (if importer.checker.properties id = [] then []
          else [Schema.object ((importer.checker.properties id).zipWith PropertyInfo.node nodes)
            {}]).map exporter.body =
        if importer.checker.properties id = [] then []
        else [exporter.body (.object
          ((importer.checker.properties id).zipWith PropertyInfo.node nodes) {})] := by
      split
      case isTrue => rfl
      case isFalse => rfl
    have records : (entries.map fun entry => Schema.record entry.1 entry.2 {}).map exporter.body =
        types.map fun entry => .named "Record" [entry.1, entry.2] := by
      rw [List.map_map, List.map_map]
      exact List.map_congr_left fun entry _ => body_record h
    rw [body_composite h, List.map_append, List.map_append, parts, object, records, body_object h]
    exact .indexed r ((List.length_map _).trans le) (signatures_propertySignature h l)

/-- Parts that are rendered one after the other are rendered each by its expression. -/
lemma renders_parts (all : Walk.Threads (fun id s node s' =>
      ∃ _ : importer.Imports id s node s', importer.Renders id node (exporter.body node))
      ids s nodes s') :
    List.Forall₂ (fun part type => importer.Renders part.1 part.2 type) (ids.zip nodes)
      (nodes.map exporter.body) := by
  induction all with
  | nil => exact .nil
  | cons one _ ih =>
    obtain ⟨_, r⟩ := one
    exact .cons r ih

/-- What a type is imported as is exported as the type prescribes. -/
theorem Imports.renders (h : exporter.hoists = false) (i : importer.Imports id s node s') :
    importer.Renders id node (exporter.body node) := by
  induction i using Imports.induct with
  | leaf l =>
    cases l with
    | @literal value r v =>
      rw [show exporter.body (.ofLiteral value) = .literal value from body_eq]
      exact .literal (.literal r v)
    | @primitive type r p =>
      rw [show exporter.body (.ofPrimitive type) = .keyword type.keyword from body_eq]
      exact .primitive (.primitive r p)
  | @named id s identifier =>
    rw [show exporter.body (.reference identifier {}) = .reference identifier from body_eq]
    exact .reference
  | cycle =>
    rw [show exporter.body (.reference _ {}) = .reference _ from body_eq]
    exact .reference
  | @entered id s guard ids nodes inside guard' identifier s' n c e p all l o ih =>
    have shape := shape_build p all.length
    have body : exporter.body ((importer.build id nodes).under identifier) =
        exporter.body (importer.build id nodes) := by
      cases identifier with
      | none => rfl
      | some identifier => exact Schema.body_withInfo
    rw [body]
    exact .expanded shape (renders_parts ih) (shape.assembles h)

end Importer

/-- A tree is one type expression if it is exported as one. -/
lemma body_of_toTypeExpr {options : ExportOptions} {node : Schema} {type : TypeExpr}
    (h : node.toTypeExpr options = .ok type) : type = Exporter.body ⟨options, false⟩ node := by
  unfold Schema.toTypeExpr at h
  split at h
  case h_1 =>
    unfold Schema.toTypeExprUnchecked Exporter.finish at h
    dsimp only at h
    split at h
    case h_1 =>
      exact (Exporter.gives_exportNode (Prod.ext h rfl)).1
    case h_2 => cases h
  case h_2 => cases h

/-- A type that is imported is rendered: in the expression of its tree every object type that is
expanded has the signatures of its properties, and a property that the checker calls optional is
marked so if and only if what its type is imported as keeps the mark. -/
theorem fromType_renders {importer : Importer} {root : TypeId} {node : Schema}
    {options : ExportOptions} {type : TypeExpr} (h : importer.fromType root = .ok node)
    (e : node.toTypeExpr options = .ok type) : importer.Renders root node type := by
  obtain ⟨s', i, -⟩ := Importer.imports_of_fromType h
  obtain rfl := body_of_toTypeExpr e
  exact i.renders rfl

/-- An object type with two optional properties, one of the type `undefined | string` and one of the
type `number`. -/
def optionalMembers : TypeStore :=
  ((TypeStore.new.union [.undefined, .string]).2.object
    [⟨"x", ⟨13⟩, true, false, none⟩, ⟨"y", .number, true, false, none⟩]).2

/-- The two optional properties are rendered. -/
theorem fromType_optionalMembers_renders :
    Importer.Renders ⟨optionalMembers.checker, "types.ts", {}⟩ ⟨14⟩
      (.object [("x", .composite .union [.primitive .undefined {}, .primitive .string {}] {}),
        ("y", .composite .union [.primitive .number {}, .primitive .undefined {}] {})] {})
      (.object [⟨"x", false, .composite .union [.keyword .undefined, .keyword .string], none⟩,
        ⟨"y", true, .keyword .number, none⟩]) :=
  fromType_renders (by rfl) (show Schema.toTypeExpr {} _ = .ok _ by cbv)

/-- A property that the checker calls optional is no longer so in type syntax. -/
theorem optionalMembers_loses_mark :
    ∃ node members,
      Importer.fromType ⟨optionalMembers.checker, "types.ts", {}⟩ ⟨14⟩ = .ok node ∧
      node.toTypeExpr {} = .ok (.object members) ∧
      (∃ property ∈ optionalMembers.checker.properties ⟨14⟩,
        property.name = "x" ∧ property.isOptional = true) ∧
      ∀ member ∈ members, member.name = "x" → member.isOptional = false := by
  refine ⟨.object [("x", .composite .union [.primitive .undefined {}, .primitive .string {}] {}),
      ("y", .composite .union [.primitive .number {}, .primitive .undefined {}] {})] {},
    [⟨"x", false, .composite .union [.keyword .undefined, .keyword .string], none⟩,
      ⟨"y", true, .keyword .number, none⟩], by rfl, by cbv, ?_, ?_⟩
  · exact ⟨⟨"x", ⟨13⟩, true, false, none⟩, List.mem_cons_self, rfl, rfl⟩
  · intro member m e
    rcases List.mem_pair.1 m with rfl | rfl
    · rfl
    · exact absurd e (by decide)

end TypeSchema
