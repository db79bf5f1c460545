import TypeSchema.Export.Walk
import TypeSchema.Proofs.Walk

/-!
# Parts of an exported node

Whatever its kind, a node is exported by exporting its parts in order and putting the type
expressions together. The parts are the children of the node, an optional member without the mark of
being optional.
-/

namespace TypeSchema

namespace Schema

/-- The parts of a node, each with whether it is the type of an optional member. -/
def parts : Schema → List (Schema × Bool)
  | primitive .. | literal .. | reference .. => []
  | object properties _ => properties.map fun property => property.2.splitOptional
  | array element _ => [(element, false)]
  | tuple elements _ => splitTrailing elements
  | composite _ members _ => members.map fun member => (member, false)
  | record key value _ => [(key, false), (value, false)]
  | function arguments returns _ => splitTrailing arguments ++ [(returns, false)]

/-- A number literal that is not finite is refused. -/
def checkLiteral : Schema → ExportWalk Unit
  | literal (.number number) _ =>
    if number.isFinite then pure () else Walk.fail (.nonFiniteLiteral number)
  | _ => pure ()

end Schema

/-- The members of a node at their places, the first one at the given position. -/
def Place.members (place : Place) : (position : Nat) → List (Schema × Bool) → List (Place × Schema)
  | _, [] => []
  | position, (node, isSplit) :: rest =>
    (place.member position isSplit, node) :: place.members (position + 1) rest

/-- The parts of a node at their places. -/
def Schema.placedParts (node : Schema) (place : Place) : List (Place × Schema) :=
  place.members 0 node.parts

/-- A property of the type of an object whose inner type has the given expression. -/
def Schema.propertySignature (property : String × Schema) (type : TypeExpr) :
    PropertySignature TypeExpr :=
  ⟨property.1, property.2.splitOptional.2, type,
    property.2.description <|> property.2.splitOptional.1.description⟩

/-- An element of the type of a tuple. -/
def Schema.tupleMember (member : Schema × Bool) (type : TypeExpr) : TupleMember TypeExpr :=
  ⟨member.2, type⟩

namespace Exporter

variable (exporter : Exporter)

/-- The parameters of the type of a function, named by their positions. -/
def parameters : (position : Nat) → List (Schema × Bool) → List TypeExpr → List (Parameter TypeExpr)
  | position, member :: members, type :: types =>
    ⟨exporter.options.parameterPrefix ++ toString position, member.2, type⟩ ::
      parameters (position + 1) members types
  | _, _, _ => []

/-- The type expression of a node whose parts have the given ones. -/
def assemble : Schema → List TypeExpr → TypeExpr
  | .primitive type _, _ => .keyword type.keyword
  | .literal value _, _ => .literal value
  | .object properties _, types => .object (properties.zipWith Schema.propertySignature types)
  | .array _ _, types => .array (types.headD default)
  | .tuple elements _, types =>
    .tuple ((Schema.splitTrailing elements).zipWith Schema.tupleMember types)
  | .composite connective _ _, types => .composite connective types
  | .record _ _ _, types => .named "Record" types
  | .function arguments _ _, types =>
    .function (exporter.parameters 0 (Schema.splitTrailing arguments) types)
      (types.getLastD default)
  | .reference target _, _ => .reference target

/-- A part at its place is exported. -/
def exportPlaced (exportPart : Place → Schema → ExportWalk TypeExpr) (part : Place × Schema) :
    ExportWalk TypeExpr :=
  exporter.exportMember exportPart part.1 part.2

section

variable {exporter} {exportPart : Place → Schema → ExportWalk TypeExpr} {place : Place}

lemma exportList_eq {position : Nat} {nodes : List Schema} :
    exporter.exportList exportPart place position nodes =
      (place.members position (nodes.map fun node => (node, false))).mapM
        (exporter.exportPlaced exportPart) := by
  induction nodes generalizing position with
  | nil => rfl
  | cons node nodes ih =>
    simp only [exportList, List.map_cons, Place.members, List.mapM_cons, ih]
    rfl

lemma exportProperties_eq {position : Nat} {properties : List (String × Schema)} :
    exporter.exportProperties exportPart place position properties = (do
      let types ← (place.members position
        (properties.map fun property => property.2.splitOptional)).mapM
          (exporter.exportPlaced exportPart)
      pure (properties.zipWith Schema.propertySignature types)) := by
  induction properties generalizing position with
  | nil => rfl
  | cons property properties ih =>
    obtain ⟨name, node⟩ := property
    simp only [exportProperties, List.map_cons, Place.members, List.mapM_cons, ih, bind_assoc,
      pure_bind]
    rfl

lemma exportElements_eq {position : Nat} {members : List (Schema × Bool)} :
    exporter.exportElements exportPart place position members = (do
      let types ← (place.members position members).mapM (exporter.exportPlaced exportPart)
      pure (members.zipWith Schema.tupleMember types)) := by
  induction members generalizing position with
  | nil => rfl
  | cons member members ih =>
    simp only [exportElements, Place.members, List.mapM_cons, ih, bind_assoc, pure_bind]
    rfl

lemma exportParameters_eq {position : Nat} {members : List (Schema × Bool)} :
    exporter.exportParameters exportPart place position members = (do
      let types ← (place.members position members).mapM (exporter.exportPlaced exportPart)
      pure (exporter.parameters position members types)) := by
  induction members generalizing position with
  | nil => rfl
  | cons member members ih =>
    simp only [exportParameters, Place.members, List.mapM_cons, ih, bind_assoc, pure_bind]
    rfl

/-- The members of an appended list have the later positions. -/
lemma members_append {position : Nat} {members others : List (Schema × Bool)} :
    place.members position (members ++ others) =
      place.members position members ++ place.members (position + members.length) others := by
  induction members generalizing position with
  | nil => rfl
  | cons member members ih =>
    simp only [List.cons_append, Place.members, ih, List.length_cons]
    congr 3
    omega

@[simp] lemma length_members {position : Nat} {members : List (Schema × Bool)} :
    (place.members position members).length = members.length := by
  induction members generalizing position with
  | nil => rfl
  | cons member members ih => simp [Place.members, ih]

end

end Exporter

namespace Schema

lemma splitRun_length {nodes : List Schema} : (splitRun nodes).1.length = nodes.length := by
  induction nodes with
  | nil => rfl
  | cons node nodes ih =>
    simp only [splitRun]
    split <;> simp [ih]

/-- Splitting the optional members at the end of a list leaves none out. -/
@[simp] lemma splitTrailing_length {nodes : List Schema} :
    (splitTrailing nodes).length = nodes.length := splitRun_length

end Schema

namespace Exporter

variable {exporter : Exporter} {exportPart : Place → Schema → ExportWalk TypeExpr} {place : Place}

/-- Parameters are made of as many type expressions as there are members. -/
lemma parameters_append {position : Nat} {members : List (Schema × Bool)}
    {types others : List TypeExpr} (l : types.length = members.length) :
    exporter.parameters position members (types ++ others) =
      exporter.parameters position members types := by
  induction members generalizing position types with
  | nil => simp [parameters]
  | cons member members ih =>
    cases types with
    | nil => simp at l
    | cons type types => simp [parameters, ih (Nat.succ.inj l)]

/-- Parameters have the types they are made of. -/
lemma map_type_parameters {position : Nat} {members : List (Schema × Bool)} {types : List TypeExpr}
    (l : types.length = members.length) :
    (exporter.parameters position members types).map (·.type) = types := by
  induction members generalizing position types with
  | nil =>
    obtain rfl := List.length_eq_zero_iff.1 l
    rfl
  | cons member members ih =>
    cases types with
    | nil => simp at l
    | cons type types => simp [parameters, ih (Nat.succ.inj l)]

/-- Exporting the structure of a node is exporting its parts and putting them together. -/
theorem exportStructure_eq {node : Schema} :
    exporter.exportStructure exportPart place node = (do
      node.checkLiteral
      let types ← (node.placedParts place).mapM (exporter.exportPlaced exportPart)
      pure (exporter.assemble node types)) := by
  cases node with
  | primitive => rfl
  | literal value info =>
    cases value with
    | number number =>
      simp only [exportStructure, exportLiteral, Schema.checkLiteral]
      split <;> rfl
    | _ => rfl
  | object properties info =>
    simp only [exportStructure, exportProperties_eq, bind_assoc, pure_bind]
    rfl
  | array element info =>
    simp [exportStructure, Schema.checkLiteral, Schema.placedParts, Schema.parts, Place.members,
      Place.member, List.mapM_cons, exportPlaced, assemble]
  | tuple elements info =>
    simp only [exportStructure, exportElements_eq, bind_assoc, pure_bind]
    rfl
  | composite connective members info =>
    simp only [exportStructure, exportList_eq]
    rfl
  | record key value info =>
    simp [exportStructure, Schema.checkLiteral, Schema.placedParts, Schema.parts, Place.members,
      Place.member, List.mapM_cons, exportPlaced, assemble]
  | function arguments returns info =>
    simp only [exportStructure, exportParameters_eq, bind_assoc, pure_bind, Schema.checkLiteral,
      Schema.placedParts, Schema.parts, members_append, List.mapM_append, Nat.zero_add,
      Schema.splitTrailing_length]
    -- The arguments take the first places, the returned type the one behind them.
    apply Walk.bind_congr_of_gives
    intro s types s' h
    have l := h.mapM_length
    rw [length_members] at l
    simp [Place.members, Place.member, List.mapM_cons, exportPlaced, assemble,
      parameters_append l]
  | reference => rfl

end Exporter

end TypeSchema
