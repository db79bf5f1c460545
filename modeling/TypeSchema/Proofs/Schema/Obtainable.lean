import TypeSchema.Proofs.Import.WellFormed
import TypeSchema.Proofs.Schema.Resemblance
import TypeSchema.Proofs.Wire.Decoded

/-!
# Obtainable trees

Trees are built by the functions of construction, made optional and taken out of optional members,
freed of their descriptions, taken apart, read of text, and imported, and all of this in any order.
The trees that can be obtained so are the well-formed ones.
-/

namespace TypeSchema.Schema

/-- The trees that any composition of the operations of the library gives. -/
inductive Obtainable : Schema → Prop
  | primitive (type : Primitive) : Obtainable (ofPrimitive type)
  | literal (value : Literal) : Obtainable (ofLiteral value)
  | object {properties node} :
    (∀ property ∈ properties, Obtainable property.2) →
    ofProperties properties = .ok node →
    Obtainable node
  | array {element} :
    Obtainable element →
    Obtainable (arrayOf element)
  | tuple {elements} :
    (∀ element ∈ elements, Obtainable element) →
    Obtainable (tupleOf elements)
  | composite {connective members node} :
    (∀ member ∈ members, Obtainable member) →
    compositeOf connective members = .ok node →
    Obtainable node
  | record {key value} :
    Obtainable key →
    Obtainable value →
    Obtainable (recordOf key value)
  | function {arguments returns} :
    (∀ argument ∈ arguments, Obtainable argument) →
    Obtainable returns →
    Obtainable (functionOf arguments returns)
  | reference {target node} :
    referenceTo target = .ok node →
    Obtainable node
  | options {node} (options : BuildOptions) :
    Obtainable node →
    Obtainable (options.apply node)
  | description {node} (description : Option String) :
    Obtainable node →
    Obtainable (node.withDescription description)
  | identifier {node} (identifier : Option String) :
    Obtainable node →
    Obtainable (node.withIdentifier identifier)
  | optional {node} :
    Obtainable node →
    Obtainable node.toOptional
  | optionalType {node type} :
    Obtainable node →
    node.optionalType? = some type →
    Obtainable type
  | withoutDescriptions {node} :
    Obtainable node →
    Obtainable node.withoutDescriptions
  | child {node child} :
    Obtainable node →
    child ∈ node.children →
    Obtainable child
  | text {text node} :
    ofText text = .ok node →
    Obtainable node
  /-- Types of one checker are imported one after the other, in one state. -/
  | imported {node} (importer : Importer) (ids : List TypeId) :
    .ok node ∈ (importer.importEach ids).1 →
    Obtainable node
  /-- The references of the last import are checked. -/
  | importedLast {node} (importer : Importer) (ids : List TypeId) (last : TypeId) :
    importer.importLast ids last = .ok node →
    Obtainable node

variable {node : Schema}

/-- The type of an optional member is its first member. -/
lemma mem_children_of_optionalType? {type : Schema} (e : node.optionalType? = some type) :
    type ∈ node.children := by
  unfold optionalType? at e
  split at e
  · cases e
    exact List.mem_cons_self
  · cases e

/-- Properties keep their names when their descriptions are cleared. -/
lemma map_fst_withoutDescriptionsProperties (properties : List (String × Schema)) :
    (withoutDescriptionsProperties properties).map (·.1) = properties.map (·.1) := by
  induction properties with
  | nil => rfl
  | cons property properties ih => exact congrArg (property.1 :: ·) ih

/-- A node is well-formed without its descriptions if it is with them. -/
lemma RootWellFormed.withoutDescriptions (w : node.RootWellFormed) :
    node.withoutDescriptions.RootWellFormed := by
  cases node with
  | object properties =>
    show ((withoutDescriptionsProperties properties).map (·.1)).Nodup
    rw [map_fst_withoutDescriptionsProperties]
    exact w
  | composite connective members =>
    show 2 ≤ (withoutDescriptionsList members).length
    rw [withoutDescriptionsList_eq, List.length_map]
    exact w
  | _ => exact w

lemma WellFormed.withoutDescriptions (w : node.WellFormed) :
    node.withoutDescriptions.WellFormed := by
  induction node using childrenInduction with
  | step node ih =>
    refine .of_children w.root.withoutDescriptions fun child m => ?_
    rw [children_withoutDescriptions] at m
    obtain ⟨child, mc, rfl⟩ := List.mem_map.1 m
    exact ih child mc (w.child mc)

/-- What is constructed is obtained. -/
lemma Constructed.obtainable (c : node.Constructed) : node.Obtainable := by
  induction c with
  | primitive type => exact .primitive type
  | literal value => exact .literal value
  | object _ made ih => exact .object ih made
  | array _ ih => exact .array ih
  | tuple _ ih => exact .tuple ih
  | composite _ made ih => exact .composite ih made
  | record _ _ ihk ihv => exact .record ihk ihv
  | function _ _ iha ihr => exact .function iha ihr
  | reference made => exact .reference made
  | options options _ ih => exact .options options ih
  | description description _ ih => exact .description description ih
  | identifier identifier _ ih => exact .identifier identifier ih

/-- What is obtained is well-formed. -/
lemma Obtainable.wellFormed (o : node.Obtainable) : node.WellFormed := by
  have constructed : ∀ {node : Schema}, node.WellFormed → node.Constructed :=
    constructed_iff_wellFormed.2
  induction o with
  | primitive type => exact (Constructed.primitive type).wellFormed
  | literal value => exact (Constructed.literal value).wellFormed
  | object _ made ih =>
    exact (Constructed.object (fun property m => constructed (ih property m)) made).wellFormed
  | array _ ih => exact (Constructed.array (constructed ih)).wellFormed
  | tuple _ ih =>
    exact (Constructed.tuple fun element m => constructed (ih element m)).wellFormed
  | composite _ made ih =>
    exact (Constructed.composite (fun member m => constructed (ih member m)) made).wellFormed
  | record _ _ ihk ihv =>
    exact (Constructed.record (constructed ihk) (constructed ihv)).wellFormed
  | function _ _ iha ihr =>
    exact (Constructed.function (fun argument m => constructed (iha argument m))
      (constructed ihr)).wellFormed
  | reference made => exact (Constructed.reference made).wellFormed
  | options options _ ih => exact ih.apply options
  | description _ _ ih => exact ih.withInfo _
  | identifier _ _ ih => exact ih.withInfo _
  | optional _ ih => exact ih.toOptional
  | optionalType _ e ih => exact ih.child (mem_children_of_optionalType? e)
  | withoutDescriptions _ ih => exact ih.withoutDescriptions
  | child _ m ih => exact ih.child m
  | text h => exact (decoded_of_ofText h).wellFormed
  | imported importer ids m => exact Importer.wellFormed_of_importEach m
  | importedLast importer ids last h => exact Importer.wellFormed_of_importLast h

/-- The trees that can be obtained, by whatever composition of construction, making optional, taking
apart, reading and importing, are the well-formed ones: at every depth, unions and intersections
have two members or more, references a target, and the properties of an object different names. -/
theorem obtainable_iff_wellFormed : node.Obtainable ↔ node.WellFormed :=
  ⟨Obtainable.wellFormed, fun w => (constructed_iff_wellFormed.2 w).obtainable⟩

end TypeSchema.Schema
