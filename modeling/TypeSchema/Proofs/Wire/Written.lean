import TypeSchema.Proofs.Json.Number
import TypeSchema.Proofs.Schema.Equality
import TypeSchema.Proofs.Schema.Nesting
import TypeSchema.Wire.Reader
import TypeSchema.Wire.Writer

/-!
# Reading a serialized node back

The serialized form of a node is an object of its fields. Each field is read in place, and together
they fill the record of fields that the node is made of.
-/

namespace TypeSchema

open Json Json.Reader

/-- The text of a number is read, to its end, as that number. -/
def Binary64.ReadsBack (x : Binary64) : Prop :=
  ∃ numeral, head.Reads x.wireText.toList (.number numeral) [] ∧ numeral.toBinary64 = x

/-- The texts of the finite numbers in a tree are read back. -/
def Schema.NumbersReadBack (node : Schema) : Prop :=
  ∀ inner ∈ node.preorder, ∀ number info, inner = .literal (.number number) info →
    number.isFinite = true → number.ReadsBack

namespace Schema

/-- The fields of the description and the identifier, as they are written. -/
def infoFields (info : NodeInfo) : List (String × String) :=
  (info.description.map fun text => ("description", Text.quoted text)).toList ++
    (info.identifier.map fun text => ("identifier", Text.quoted text)).toList

/-- The payload fields of a node, as they are written. -/
def payloadFields : Schema → List (String × String)
  | primitive type _ => [("type", Text.quoted type.kind.name)]
  | literal value _ => [("type", value.wireText)]
  | object properties _ => [("shape", objectText (wireProperties properties))]
  | array element _ => [("types", arrayText [element.wireText])]
  | tuple elements _ => [("types", arrayText (wireList elements))]
  | composite _ members _ => [("types", arrayText (wireList members))]
  | record key value _ => [("key", key.wireText), ("value", value.wireText)]
  | function arguments returns _ =>
    [("arguments", arrayText (wireList arguments)), ("return", returns.wireText)]
  | reference target _ => [("reference", Text.quoted target)]

/-- All fields of a node, as they are written. -/
def wireFields (node : Schema) : List (String × String) :=
  ("typeName", Text.quoted node.kind.name) :: (node.payloadFields ++ infoFields node.info)

end Schema

section

variable {properties : List (String × Schema)} {nodes : List Schema}

lemma wireList_eq : Schema.wireList nodes = nodes.map Schema.wireText := by
  induction nodes with
  | nil => rfl
  | cons node nodes ih => rw [Schema.wireList, ih, List.map_cons]

lemma wireProperties_eq : Schema.wireProperties properties =
    memberTexts (properties.map fun property => (property.1, property.2.wireText)) := by
  induction properties with
  | nil => rfl
  | cons property properties ih =>
    obtain ⟨name, node⟩ := property
    rw [Schema.wireProperties, ih]
    rfl

end

lemma following_infoFields (info : NodeInfo) :
    following (memberTexts (Schema.infoFields info)) = (Schema.infoText info).toList := by
  obtain ⟨description, identifier⟩ := info
  have key : (Text.quoted "description").toList = "\"description\"".toList ∧
      (Text.quoted "identifier").toList = "\"identifier\"".toList := by
    decide +kernel
  cases description <;> cases identifier <;>
    simp [following, memberTexts, memberText, Schema.infoFields, Schema.infoText, key.1, key.2]

/-- A serialized node is the object of its fields. -/
lemma wireText_eq (node : Schema) :
    node.wireText = Schema.objectText (memberTexts node.wireFields) := by
  have key : (Text.quoted "typeName").toList = "\"typeName\"".toList := by decide +kernel
  have object {kind : Kind} {info : NodeInfo} {payload : String} (field : String × String)
      (fields : List (String × String))
      (h : payload = String.intercalate "," (memberTexts (field :: fields))) :
      Schema.nodeText kind payload info = Schema.objectText (memberTexts
        (("typeName", Text.quoted kind.name) :: (field :: fields ++ Schema.infoFields info))) := by
    have tail : following (memberTexts (field :: fields ++ Schema.infoFields info)) =
        ',' :: (payload.toList ++ (Schema.infoText info).toList) := by
      rw [h, ← following_infoFields, memberTexts_append, following_append, memberTexts_cons,
        following_cons, toList_intercalate_cons, List.cons_append]
    apply String.toList_inj.1
    rw [Schema.objectText, memberTexts_cons, String.toList_append, String.toList_append,
      toList_intercalate_cons, tail]
    simp [Schema.nodeText, memberText, key]
  cases node with
  | record key value info =>
    apply object ("key", key.wireText) [("value", value.wireText)]
    show _ = Schema.payloadKey .key ++ key.wireText ++ "," ++
      (Schema.payloadKey .value ++ value.wireText)
    simp only [String.append_assoc]
  | function arguments returns info =>
    apply object ("arguments", _) [("return", _)]
    show _ = Schema.payloadKey .arguments ++ Schema.arrayText (Schema.wireList arguments) ++ "," ++
      (Schema.payloadKey .returns ++ returns.wireText)
    simp only [String.append_assoc]
  | _ => exact object (_, _) [] rfl


/-! ### Values -/

section

variable {room : Nat} {value : Head → Reader Schema}

lemma spells_string (s : String) : Spells string (Text.quoted s) s :=
  fun rest _ => ⟨.string s, rest, nofun, reads_head_quoted s rest, reads_pure.2 ⟨rfl, rfl⟩⟩

lemma spells_literalValue {literal : Literal}
    (back : ∀ number, literal = .number number → number.ReadsBack) :
    Spells (literalValue room) literal.wireText literal := by
  intro rest close
  cases literal with
  | boolean value =>
    refine ⟨.boolean value, rest, nofun, ?_, reads_pure.2 ⟨rfl, rfl⟩⟩
    cases value <;> simp [Literal.wireText, Literal.boolText] <;> rfl
  | number number =>
    obtain ⟨numeral, h, e⟩ := back number rfl
    refine ⟨.number numeral, rest, nofun, h.head_append close, reads_pure.2 ⟨?_, rfl⟩⟩
    rw [e]
  | string s =>
    exact ⟨.string s, rest, nofun, reads_head_quoted s rest, reads_pure.2 ⟨rfl, rfl⟩⟩

/-- The name of a kind is read as the kind. -/
lemma reads_alternative (kind : Kind) (rest : List Char) :
    (alternative room namedKinds).Reads ((Text.quoted kind.name).toList ++ rest) kind rest := by
  have known : namedKinds.lookup kind.name = some kind := by cases kind <;> rfl
  rw [toList_quoted, List.cons_append, List.append_assoc]
  -- a quote decides that the name alone is written
  show (do alternativeNamed namedKinds (← key) : Reader Kind).Reads _ _ _
  refine Reads.bind (stringAfterQuote_quotedBody kind.name rest) ?_
  rw [alternativeNamed, known]
  exact reads_pure.2 ⟨rfl, rfl⟩

lemma toList_arrayText (items : List String) (rest : List Char) :
    (Schema.arrayText items).toList ++ rest =
      '[' :: ((String.intercalate "," items).toList ++ ']' :: rest) := by
  simp [Schema.arrayText]

lemma toList_objectText (items : List String) (rest : List Char) :
    (Schema.objectText items).toList ++ rest =
      '\x7b' :: ((String.intercalate "," items).toList ++ '\x7d' :: rest) := by
  simp [Schema.objectText]

/-- A list of nodes is read where one container may still be opened. -/
lemma spells_nodesValue {nodes : List Schema} (pos : 0 < room)
    (h : ∀ node ∈ nodes, Spells value node.wireText node) :
    Spells (nodesValue room value) (Schema.arrayText (Schema.wireList nodes)) nodes := by
  intro rest _
  have all : List.Forall₂ (Spells value) (nodes.map Schema.wireText) nodes :=
    List.forall₂_map_left_iff.2 (List.forall₂_same.2 h)
  rw [toList_arrayText, wireList_eq]
  refine ⟨.array, _, nofun, reads_head_array, ?_⟩
  rw [nodesValue, nested, if_neg (Nat.ne_of_gt pos)]
  exact reads_arrayEnd all

/-- A property of a new name is put behind the others. -/
lemma insertProperty_of_not_mem {name : String} {node : Schema} {shape : List (String × Schema)}
    (new : name ∉ shape.map (·.1)) : insertProperty name node shape = shape ++ [(name, node)] := by
  induction shape with
  | nil => rfl
  | cons property shape ih =>
    rw [List.map_cons, List.mem_cons, not_or] at new
    rw [insertProperty, if_neg (Ne.symm new.1), ih new.2, List.cons_append]

/-- The reader of one property of a shape. -/
def propertyOf (value : Head → Reader Schema) (name : String) (shape : List (String × Schema)) :
    Reader (List (String × Schema)) := do
  colon
  let node ← value (← head)
  return insertProperty name node shape

lemma reads_colon (rest : List Char) : colon.Reads (':' :: rest) () rest := rfl

lemma fills_properties {properties before : List (String × Schema)}
    (distinct : ((before ++ properties).map (·.1)).Nodup)
    (h : ∀ property ∈ properties, Spells value property.2.wireText property.2) :
    Fills (propertyOf value)
      (properties.map fun property => (property.1, property.2.wireText)) before
      (before ++ properties) := by
  induction properties generalizing before with
  | nil =>
    rw [List.append_nil]
    exact .nil
  | cons property properties ih =>
    have new : property.1 ∉ before.map (·.1) := by
      rw [List.map_append, List.map_cons] at distinct
      exact fun m => (List.nodup_append.1 distinct).2.2 _ m _ List.mem_cons_self rfl
    have shift : before ++ property :: properties = (before ++ [property]) ++ properties := by
      rw [List.append_assoc]
      rfl
    rw [shift] at distinct ⊢
    refine .cons ?_ (ih distinct fun other m => h other (List.mem_cons_of_mem _ m))
    intro rest close
    obtain ⟨found, mid, -, r, r'⟩ := h property List.mem_cons_self rest close
    refine Reads.bind (reads_colon _) (r.bind (r'.bind (reads_pure.2 ⟨?_, rfl⟩)))
    exact insertProperty_of_not_mem new

/-- A shape is read where one container may still be opened. -/
lemma spells_shapeValue {properties : List (String × Schema)} (pos : 0 < room)
    (distinct : (properties.map (·.1)).Nodup)
    (h : ∀ property ∈ properties, Spells value property.2.wireText property.2) :
    Spells (shapeValue room value) (Schema.objectText (Schema.wireProperties properties))
      properties := by
  intro rest _
  have fills : Fills (propertyOf value) _ [] properties := fills_properties distinct h
  rw [toList_objectText, wireProperties_eq]
  refine ⟨.object, _, nofun, reads_head_object, ?_⟩
  rw [shapeValue, nested, if_neg (Nat.ne_of_gt pos)]
  exact fills.reads_objectEnd

end

/-! ### Fields -/

section

variable {room : Nat} {child member : Head → Reader Schema} {rest : List Char}

/-- A field is read into a draft that does not have it. -/
lemma Json.Reader.Fills.field {α β : Type} {value : Head → Reader α} {name text : String} {a : α}
    {items : List (String × String)} {draft result : WireDraft} (put : Option α → WireDraft)
    (reader : readField room child member name draft =
      do once name (none : Option β); colon; return put (← optional value))
    (h : Spells value text a)
    (fills : Fills (readField room child member) items (put (some a)) result) :
    Fills (readField room child member) ((name, text) :: items) draft result := by
  refine .cons (fun rest close => ?_) fills
  have r : (optional value).Reads (text.toList ++ rest) (some a) rest := by
    obtain ⟨found, mid, ne, r, r'⟩ := h rest close
    refine r.bind ?_
    cases found with
    | null => exact absurd rfl ne
    | _ => exact r'.bind (reads_pure.2 ⟨rfl, rfl⟩)
  rw [reader]
  refine Reads.bind (reads_pure.2 ⟨rfl, rfl⟩) (Reads.bind (reads_colon _) ?_)
  exact r.bind (reads_pure.2 ⟨rfl, rfl⟩)

/-- The identifier is read. -/
lemma fills_identifier (draft : WireDraft) (identifier : Option String)
    (new : draft.identifier = none) :
    Fills (readField room child member)
      (identifier.map fun text => ("identifier", Text.quoted text)).toList draft
      { draft with identifier := identifier.map some } := by
  cases identifier with
  | none =>
    cases draft
    cases new
    exact .nil
  | some text =>
    exact .field (fun text => { draft with identifier := some text }) (by rw [readField, new])
      (spells_string text) .nil

/-- The description and the identifier are read. -/
lemma fills_infoFields {draft : WireDraft} (info : NodeInfo)
    (newDescription : draft.description = none) (newIdentifier : draft.identifier = none) :
    Fills (readField room child member) (Schema.infoFields info) draft
      { draft with
        description := info.description.map some
        identifier := info.identifier.map some } := by
  obtain ⟨description, identifier⟩ := info
  cases description with
  | none =>
    cases draft
    cases newDescription
    exact fills_identifier _ identifier newIdentifier
  | some text =>
    exact .field (fun text => { draft with description := some text })
      (by rw [readField, newDescription]) (spells_string text)
      (fills_identifier { draft with description := some (some text) } identifier newIdentifier)

/-- The draft of which a record of fields is made. -/
def WireDraft.ofFields (fields : WireNode) : WireDraft where
  kind := some fields.kind
  type := fields.type.map some
  shape := fields.shape.map some
  types := fields.types.map some
  key := fields.key.map some
  value := fields.value.map some
  arguments := fields.arguments.map some
  returns := fields.returns.map some
  reference := fields.reference.map some
  description := fields.info.description.map some
  identifier := fields.info.identifier.map some

lemma finish_ofFields (fields : WireNode) : (WireDraft.ofFields fields).finish = pure fields := by
  have join {α : Type} (field : Option α) : (field.map some).join = field := by
    cases field <;> rfl
  have same : (WireDraft.ofFields fields).finishAs fields.kind = fields := by
    simp only [WireDraft.finishAs, WireDraft.ofFields, join]
  exact congrArg pure same

/-- The fields of a node are read into its draft, if its children are read where they stand. -/
lemma fills_wireFields {node : Schema} (w : node.RootWellFormed)
    (back : ∀ number info, node = .literal (.number number) info → number.ReadsBack)
    (shallow : node.nesting ≤ room + 1)
    (spellsChild : ∀ inner ∈ node.children, inner.nesting ≤ room →
      Spells child inner.wireText inner)
    (spellsMember : ∀ inner ∈ node.children, inner.nesting < room →
      Spells member inner.wireText inner) :
    Fills (readField room child member) node.wireFields {}
      (WireDraft.ofFields (WireNode.ofSchema node)) := by
  have kind : ∀ rest, Closes rest → (readField room child member "typeName" {}).Reads
      (':' :: ((Text.quoted node.kind.name).toList ++ rest)) { kind := some node.kind } rest := by
    intro rest _
    rw [readField]
    refine Reads.bind (reads_pure.2 ⟨rfl, rfl⟩) (Reads.bind (reads_colon _) ?_)
    exact (reads_alternative node.kind rest).bind (reads_pure.2 ⟨rfl, rfl⟩)
  have list {nodes : List Schema} (among : ∀ inner ∈ nodes, inner ∈ node.children)
      (fits : Schema.nestingList nodes < room) :
      Spells (nodesValue room member) (Schema.arrayText (Schema.wireList nodes)) nodes := by
    apply spells_nodesValue (Nat.zero_lt_of_lt fits)
    intro inner m
    have below := Schema.nestingList_le_iff.1 (Nat.le_refl _) inner m
    exact spellsMember inner (among inner m) (Nat.lt_of_le_of_lt below fits)
  -- The name of the type comes first, then the fields of its kind, and then those of every node.
  refine .cons kind ?_
  cases node with
  | primitive type info =>
    have h : Spells (literalValue room) (Literal.string type.kind.name).wireText
        (.string type.kind.name) := spells_literalValue nofun
    exact .field (fun type => { kind := some _, type := some type }) rfl h
      (fills_infoFields info rfl rfl)
  | literal value info =>
    have h : Spells (literalValue room) value.wireText value := by
      apply spells_literalValue
      rintro number rfl
      exact back number info rfl
    exact .field (fun type => { kind := some _, type := some type }) rfl h
      (fills_infoFields info rfl rfl)
  | object properties info =>
    have fits : Schema.nestingProperties properties < room := Nat.lt_of_succ_le
      (Nat.le_of_succ_le_succ shallow)
    have h := spells_shapeValue (Nat.zero_lt_of_lt fits) w fun property m =>
      spellsMember property.2 (List.mem_map_of_mem m)
        (Nat.lt_of_le_of_lt (Schema.nestingProperties_le_iff.1 (Nat.le_refl _) property m) fits)
    exact .field (fun shape => { kind := some _, shape := some shape }) rfl h
      (fills_infoFields info rfl rfl)
  | array element info =>
    have one : Schema.nestingList [element] = element.nesting := Nat.max_zero _
    have h := list (fun _ m => m) (one ▸ Nat.le_of_succ_le_succ shallow)
    exact .field (fun types => { kind := some _, types := some types }) rfl h
      (fills_infoFields info rfl rfl)
  | tuple elements info =>
    have h := list (fun _ m => m) (Nat.le_of_succ_le_succ shallow)
    exact .field (fun types => { kind := some _, types := some types }) rfl h
      (fills_infoFields info rfl rfl)
  | composite connective members info =>
    have h := list (fun _ m => m) (Nat.le_of_succ_le_succ shallow)
    exact .field (fun types => { kind := some _, types := some types }) rfl h
      (fills_infoFields info rfl rfl)
  | record key value info =>
    have fits := Nat.max_le.1 (Nat.le_of_succ_le_succ shallow)
    have hk := spellsChild key List.mem_cons_self fits.1
    have hv := spellsChild value (List.mem_cons_of_mem _ List.mem_cons_self) fits.2
    refine .field (fun key => { kind := some _, key := some key }) rfl hk ?_
    exact .field (fun value => { kind := some _, key := some (some key), value := some value }) rfl
      hv (fills_infoFields info rfl rfl)
  | function arguments returns info =>
    have fits := Nat.max_le.1 (Nat.le_of_succ_le_succ shallow)
    have ha := list (fun _ m => List.mem_append_left _ m) fits.1
    have hr := spellsChild returns (List.mem_append_right _ List.mem_cons_self) fits.2
    refine .field (fun arguments => { kind := some _, arguments := some arguments }) rfl ha ?_
    exact .field
      (fun returns =>
        { kind := some _, arguments := some (some arguments), returns := some returns })
      rfl hr (fills_infoFields info rfl rfl)
  | reference target info =>
    exact .field (fun reference => { kind := some _, reference := some reference }) rfl
      (spells_string target) (fills_infoFields info rfl rfl)

end

/-- The fields of a well-formed node make the node. -/
lemma toSchema_ofSchema {node : Schema} (w : node.RootWellFormed) :
    (WireNode.ofSchema node).toSchema = .ok node := by
  cases node with
  | primitive type info => cases type <;> rfl
  | literal => rfl
  | object => rfl
  | array => rfl
  | tuple => rfl
  | composite connective members info =>
    have made : Schema.compositeOf connective members = .ok (.composite connective members {}) :=
      if_neg (Nat.not_lt.2 w)
    have run : (WireNode.ofSchema (.composite connective members info)).toSchema = (do
        let composite ← Schema.compositeOf connective members
        return composite.withInfo info) := by
      cases connective <;> rfl
    rw [run, made]
    rfl
  | record => rfl
  | function => rfl
  | reference target info =>
    have made : Schema.referenceTo target = .ok (.reference target {}) := if_neg w
    have run : (WireNode.ofSchema (.reference target info)).toSchema = (do
        let reference ← Schema.referenceTo target
        return reference.withInfo info) := rfl
    rw [run, made]
    rfl

/-! ### Nodes -/

section

variable {node : Schema} {room : Nat}

lemma Schema.NumbersReadBack.of_mem {inner : Schema} (b : node.NumbersReadBack)
    (m : inner ∈ node.preorder) : inner.NumbersReadBack :=
  fun innermost m' => b innermost (preorder_trans m m')

/-- A node is read where its kind is decided, if its fields are. -/
lemma Json.Reader.Spells.madeNode {fields : Head → Reader WireNode} {text : String}
    (w : node.RootWellFormed) (h : Spells fields text (WireNode.ofSchema node)) :
    Spells (madeNode fields) text node := by
  intro rest close
  obtain ⟨found, mid, ne, r, r'⟩ := h rest close
  refine ⟨found, mid, ne, r, r'.bind ?_⟩
  rw [toSchema_ofSchema w]
  exact reads_pure.2 ⟨rfl, rfl⟩

/-- The serialized form of a node is read as the record of its fields, where as many containers may
be opened as it nests. -/
theorem spells_wireNode (w : node.WellFormed) (f : node.Finite) (b : node.NumbersReadBack)
    (shallow : node.nesting ≤ room) :
    Spells (wireNode room) node.wireText (WireNode.ofSchema node) := by
  -- the children are read with less room, so the induction is on the room
  induction room using Nat.strong_induction_on generalizing node with
  | _ room ih =>
    obtain ⟨room, rfl⟩ := Nat.exists_eq_add_one_of_ne_zero
      (Nat.ne_of_gt (Nat.lt_of_lt_of_le node.one_le_nesting shallow))
    have child {room' : Nat} (less : room' < room + 1) (inner : Schema) (m : inner ∈ node.children)
        (fits : inner.nesting ≤ room') :
        Spells (madeNode (wireNode room')) inner.wireText inner := by
      have m := Schema.mem_preorder_of_child m Schema.mem_preorder_self
      exact (ih room' less (w.of_mem m) (f.of_mem m) (b.of_mem m) fits).madeNode (w inner m)
    have back (number : Binary64) (info : NodeInfo) (e : node = .literal (.number number) info) :
        number.ReadsBack :=
      b node Schema.mem_preorder_self number info e
        (f node Schema.mem_preorder_self number info e)
    have fills := fills_wireFields w.root back shallow (child (Nat.lt_succ_self _))
      fun inner m fits => child (Nat.lt_succ_of_le (Nat.sub_le room 1)) inner m (by omega)
    intro rest close
    rw [wireText_eq, toList_objectText, wireNode_succ]
    refine ⟨.object, _, nofun, reads_head_object, fills.reads_objectEnd.bind ?_⟩
    rw [finish_ofFields]
    exact reads_pure.2 ⟨rfl, rfl⟩

end

end TypeSchema
