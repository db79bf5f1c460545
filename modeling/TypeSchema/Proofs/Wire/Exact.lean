import TypeSchema.Proofs.Wire.Decoded
import TypeSchema.Proofs.Wire.Written

/-!
# The records that make a node

A node is made of the record of its own fields and of no other, save that the echo of a primitive
kind may be left out. The check for unexpected fields says that a record holds nothing besides the
payload of its kind; what is then taken from that payload is all of it.
-/

namespace TypeSchema

open Json Json.Reader

/-- What is checked of a node when it is made of its fields. That an array has one element is in its
type, and the names of a shape are distinct before the shape is a field. -/
def Schema.Admitted : Schema → Prop
  | composite _ members _ => 2 ≤ members.length
  | reference target _ => target ≠ ""
  | _ => True

namespace WireNode

/-- A record without the payload fields that are not among the given ones. -/
def only (fields : WireNode) (kept : List PayloadField) : WireNode where
  kind := fields.kind
  type := if .type ∈ kept then fields.type else none
  shape := if .shape ∈ kept then fields.shape else none
  types := if .types ∈ kept then fields.types else none
  key := if .key ∈ kept then fields.key else none
  value := if .value ∈ kept then fields.value else none
  arguments := if .arguments ∈ kept then fields.arguments else none
  returns := if .returns ∈ kept then fields.returns else none
  reference := if .reference ∈ kept then fields.reference else none
  info := fields.info

/-- The text of a payload field that is present. -/
def fieldText? (fields : WireNode) : PayloadField → Option String
  | .type => fields.type.map Literal.wireText
  | .shape => fields.shape.map fun shape => Schema.objectText (Schema.wireProperties shape)
  | .types => fields.types.map fun types => Schema.arrayText (Schema.wireList types)
  | .key => fields.key.map Schema.wireText
  | .value => fields.value.map Schema.wireText
  | .arguments => fields.arguments.map fun types => Schema.arrayText (Schema.wireList types)
  | .returns => fields.returns.map Schema.wireText
  | .reference => fields.reference.map Text.quoted

/-- The payload fields that are present, each with its text. -/
def payloadTexts (fields : WireNode) : List (String × String) :=
  [.type, .shape, .types, .key, .value, .arguments, .returns, .reference].filterMap
    fun field => (fields.fieldText? field).map fun text => (field.name, text)

/-- The text of a record: the object of all fields that are present. -/
def wireText (fields : WireNode) : String :=
  Schema.objectText (memberTexts (("typeName", Text.quoted fields.kind.name) ::
    (fields.payloadTexts ++ Schema.infoFields fields.info)))

variable {fields : WireNode} {node : Schema}

/-- A node is written by writing the record of its fields. -/
lemma wireText_ofSchema (node : Schema) : (ofSchema node).wireText = node.wireText := by
  have payload : (ofSchema node).payloadTexts = node.payloadFields := by
    cases node <;> rfl
  have kind : (ofSchema node).kind = node.kind := by
    cases node <;> rfl
  have info : (ofSchema node).info = node.info := by
    cases node <;> rfl
  rw [wireText_eq, wireText, payload, kind, info, Schema.wireFields]

/-! ### Unexpected fields -/

lemma mem_presentFields {field : PayloadField} :
    field ∈ fields.presentFields ↔ fields.hasField field = true := by
  cases field <;> simp [presentFields]

/-- No field is unexpected if the record is nothing besides the payload of its kind. -/
lemma unexpectedField?_eq_none :
    fields.unexpectedField? = none ↔ fields.only fields.kind.payloadFields = fields := by
  have present : fields.unexpectedField? = none ↔
      ∀ field, fields.hasField field = true → field ∈ fields.kind.payloadFields := by
    simp [unexpectedField?, mem_presentFields]
  have keep {α : Type} {p : Prop} [Decidable p] {content : Option α} :
      (if p then content else none) = content ↔ (content.isSome = true → p) := by
    cases content <;> simp
  have parts : fields.only fields.kind.payloadFields = fields ↔
      ∀ field, fields.hasField field = true → field ∈ fields.kind.payloadFields := by
    obtain ⟨kind, type, shape, types, key, value, arguments, returns, reference, info⟩ := fields
    simp only [only, mk.injEq, keep, true_and, and_true]
    constructor
    · rintro ⟨h₁, h₂, h₃, h₄, h₅, h₆, h₇, h₈⟩ field
      cases field <;> assumption
    · intro h
      exact ⟨h .type, h .shape, h .types, h .key, h .value, h .arguments, h .returns, h .reference⟩
  rw [present, parts]

/-! ### What is taken from the payload -/

lemma primitiveNode_eq_ok {type : Primitive} : fields.primitiveNode type = .ok node ↔
    node = .primitive type fields.info ∧
      (fields.type = none ∨ fields.type = some (.string fields.kind.name)) := by
  unfold primitiveNode
  cases fields.type with
  | none => simp [eq_comm]
  | some echo =>
    by_cases same : echo = .string fields.kind.name
    · simp [same, eq_comm]
    · simp [same]

lemma compositeNode_eq_ok {connective : Connective} :
    fields.compositeNode connective = .ok node ↔ ∃ members, fields.types = some members ∧
      2 ≤ members.length ∧ node = .composite connective members fields.info := by
  unfold compositeNode
  rw [bind_eq_ok]
  refine exists_congr fun members => and_congr require_eq_ok ?_
  unfold Schema.compositeOf
  by_cases few : members.length < 2
  · simp [few, Nat.not_le.2 few, bind, Except.bind]
  · simp [few, Nat.le_of_not_lt few, bind, Except.bind, pure, Except.pure, Schema.withInfo, eq_comm]

lemma arrayNode_eq_ok : fields.arrayNode = .ok node ↔
    ∃ element, fields.types = some [element] ∧ node = .array element fields.info := by
  unfold arrayNode
  rw [bind_eq_ok]
  constructor
  · rintro ⟨types, r, e⟩
    split at e
    · rename_i element
      cases e
      exact ⟨element, require_eq_ok.1 r, rfl⟩
    · cases e
  · rintro ⟨element, r, rfl⟩
    exact ⟨[element], require_eq_ok.2 r, rfl⟩

lemma referenceNode_eq_ok : fields.referenceNode = .ok node ↔
    ∃ target, fields.reference = some target ∧ target ≠ "" ∧
      node = .reference target fields.info := by
  unfold referenceNode
  rw [bind_eq_ok]
  refine exists_congr fun target => and_congr require_eq_ok ?_
  unfold Schema.referenceTo
  by_cases empty : target = ""
  · simp [empty, bind, Except.bind]
  · simp [empty, bind, Except.bind, pure, Except.pure, Schema.withInfo, eq_comm]

/-! ### The record of a node -/

/-- A primitive node comes of its own record, or of that record without the echo. -/
lemma only_of_primitiveNode (type : Primitive) (same : fields.kind = type.kind)
    (e : fields.primitiveNode type = .ok node) :
    node.Admitted ∧ (fields.only type.kind.payloadFields = ofSchema node ∨
      node.kind.isPrimitive = true ∧
        fields.only type.kind.payloadFields = { ofSchema node with type := none }) := by
  obtain ⟨rfl, echo⟩ := primitiveNode_eq_ok.1 e
  obtain ⟨kind, echoed, shape, types, key, value, arguments, returns, reference, info⟩ := fields
  obtain rfl : kind = type.kind := same
  replace echo : echoed = none ∨ echoed = some (.string type.kind.name) := echo
  refine ⟨trivial, ?_⟩
  rcases echo with rfl | rfl
  · exact .inr ⟨by cases type <;> rfl, by cases type <;> rfl⟩
  · exact .inl (by cases type <;> rfl)

/-- A composite node is admitted and comes of its own record. -/
lemma only_of_compositeNode (connective : Connective) (same : fields.kind = connective.kind)
    (e : fields.compositeNode connective = .ok node) :
    node.Admitted ∧ fields.only connective.kind.payloadFields = ofSchema node := by
  obtain ⟨members, present, two, rfl⟩ := compositeNode_eq_ok.1 e
  obtain ⟨kind, type, shape, types, key, value, arguments, returns, reference, info⟩ := fields
  obtain rfl : kind = connective.kind := same
  obtain rfl : types = some members := present
  exact ⟨two, by cases connective <;> rfl⟩

/-- A node that is made is admitted, and the payload of its kind is that of its own record. -/
lemma only_of_payloadNode (e : fields.payloadNode = .ok node) :
    node.Admitted ∧ (fields.only fields.kind.payloadFields = ofSchema node ∨
      node.kind.isPrimitive = true ∧
        fields.only fields.kind.payloadFields = { ofSchema node with type := none }) := by
  obtain ⟨kind, type, shape, types, key, value, arguments, returns, reference, info⟩ := fields
  cases kind with
  | string => exact only_of_primitiveNode .string rfl e
  | number => exact only_of_primitiveNode .number rfl e
  | boolean => exact only_of_primitiveNode .boolean rfl e
  | void => exact only_of_primitiveNode .void rfl e
  | undefined => exact only_of_primitiveNode .undefined rfl e
  | union => exact (only_of_compositeNode .union rfl e).imp id .inl
  | intersection => exact (only_of_compositeNode .intersection rfl e).imp id .inl
  | array =>
    obtain ⟨element, rfl, rfl⟩ := arrayNode_eq_ok.1 e
    exact ⟨trivial, .inl rfl⟩
  | reference =>
    obtain ⟨target, rfl, nonempty, rfl⟩ := referenceNode_eq_ok.1 e
    exact ⟨nonempty, .inl rfl⟩
  | literal | object | tuple =>
    obtain ⟨content, present, e⟩ := bind_eq_ok.1 e
    obtain rfl := require_eq_ok.1 present
    cases e
    exact ⟨trivial, .inl rfl⟩
  | record | function =>
    obtain ⟨first, present, e⟩ := bind_eq_ok.1 e
    obtain rfl := require_eq_ok.1 present
    obtain ⟨second, present, e⟩ := bind_eq_ok.1 e
    obtain rfl := require_eq_ok.1 present
    cases e
    exact ⟨trivial, .inl rfl⟩

/-- The record of an admitted node makes the node. -/
lemma toSchema_ofSchema_of_admitted (admitted : node.Admitted) :
    (ofSchema node).toSchema = .ok node := by
  cases node with
  | object properties info => rfl
  | _ => exact toSchema_ofSchema admitted

/-- The echo of a primitive kind may be left out. -/
lemma toSchema_withoutEcho (primitive : node.kind.isPrimitive = true) :
    { ofSchema node with type := none }.toSchema = .ok node := by
  cases node with
  | primitive type info => cases type <;> rfl
  | composite connective => cases connective <;> cases primitive
  | _ => cases primitive

/-- A record of fields makes a node just if the node is admitted and the record is the node's own,
in which a primitive node may leave out the echo of its kind. The node's own record has the fields
that are written for the node, with nothing between them. -/
theorem toSchema_eq_ok_iff (fields : WireNode) (node : Schema) :
    (fields.toSchema = .ok node ↔ node.Admitted ∧
      (fields = ofSchema node ∨
        node.kind.isPrimitive = true ∧ fields = { ofSchema node with type := none })) ∧
      node.wireText = (ofSchema node).wireText := by
  refine ⟨⟨fun e => ?_, ?_⟩, (wireText_ofSchema node).symm⟩
  · unfold toSchema at e
    split at e
    · cases e
    · rename_i expected
      have own := only_of_payloadNode e
      rwa [unexpectedField?_eq_none.1 expected] at own
  · rintro ⟨admitted, rfl | ⟨primitive, rfl⟩⟩
    · exact toSchema_ofSchema_of_admitted admitted
    · exact toSchema_withoutEcho primitive

end WireNode

end TypeSchema
