import TypeSchema.Lowering.Walk
import TypeSchema.Proofs.Lowering.Parts

/-!
# What handles denote

A handle denotes an expression in a store when the data behind it has the expression's shape and the
handles in the data denote the expression's parts, place by place. A name is denoted by the handle
that is given for it, so that recursive aliases need no recursion here. Nothing of this refers to
how expressions are lowered.
-/

namespace TypeSchema

/-- The property is the member's, and may be written to. -/
structure PropertySignature.SameAs (member : PropertySignature TypeExpr) (property : PropertyInfo) :
    Prop where
  name : property.name = member.name
  isOptional : property.isOptional = member.isOptional
  documentation : property.documentation = member.documentation
  isReadonly : property.isReadonly = false

/-- The element of the tuple is the member's, and stands for itself alone. -/
structure TupleMember.SameAs (member : TupleMember TypeExpr) (element : TupleElement) : Prop where
  isOptional : element.isOptional = member.isOptional
  isRest : element.isRest = false

/-- The parameter of the signature is the one of the expression, and stands for itself alone. -/
structure Parameter.SameAs (parameter : Parameter TypeExpr) (info : ParameterInfo) : Prop where
  name : info.name = some parameter.name
  isOptional : info.isOptional = parameter.isOptional
  isRest : info.isRest = false

namespace TypeStore

/-- A key type for any string or number: one of the two, or a union of them. -/
inductive IndexKey (store : TypeStore) : TypeId → Prop
  | string : IndexKey store .string
  | number : IndexKey store .number
  | union {id ids} :
    store.lookup id = some (.composite .union ids) →
    (∀ id ∈ ids, id = .string ∨ id = .number) →
    IndexKey store id

/-- A literal type that is the key of the property of a name. -/
def NamesProperty (store : TypeStore) (id : TypeId) (name : String) : Prop :=
  ∃ value, store.lookup id = some (.literal value) ∧ value.propertyName? = some name

/-- A key type for the properties of the names: a literal type, or a union of literal types. -/
inductive LiteralKeys (store : TypeStore) : TypeId → List String → Prop
  | one {id name} :
    store.NamesProperty id name →
    LiteralKeys store id [name]
  | union {id ids names} :
    store.lookup id = some (.composite .union ids) →
    ids ≠ [] →
    List.Forall₂ store.NamesProperty ids names →
    LiteralKeys store id names

/-- The data has the shape of the expression, with the handles in place of its parts. -/
inductive HasShape (store : TypeStore) : TypeExpr → List TypeId → TypeData → Prop
  | object {members properties} :
    List.Forall₂ PropertySignature.SameAs members properties →
    HasShape store (.object members) (properties.map (·.type)) (.object properties [])
  | composite {connective members ids} :
    HasShape store (.composite connective members) ids (.composite connective ids)
  | array {element id} :
    HasShape store (.array element) [id] (.array id)
  | tuple {members elements} :
    List.Forall₂ TupleMember.SameAs members elements →
    HasShape store (.tuple members) (elements.map (·.type)) (.tuple elements)
  | function {parameters returns infos id} :
    List.Forall₂ Parameter.SameAs parameters infos →
    HasShape store (.function parameters returns) (infos.map (·.type) ++ [id])
      (.callable [⟨infos, id⟩])
  | arrayName {element id} :
    HasShape store (.named "Array" [element]) [id] (.array id)
  | indexed {key value keyId valueId} :
    store.IndexKey keyId →
    HasShape store (.named "Record" [key, value]) [keyId, valueId]
      (.object [] [{ key := keyId, value := valueId }])
  | keyed {key value keyId valueId names} :
    store.LiteralKeys keyId names →
    HasShape store (.named "Record" [key, value]) [keyId, valueId]
      (.object (names.map fun name => { name, type := valueId }) [])

/-- The handle denotes the expression, where names have the given handles. -/
inductive Denotes (store : TypeStore) (ids : String → Option TypeId) : TypeExpr → TypeId → Prop
  | keyword {word : Keyword} :
    Denotes store ids (.keyword word) word.typeId
  | literal {value id} :
    store.Interned value id →
    store.lookup id = some (.literal value) →
    Denotes store ids (.literal value) id
  | name {name id} :
    ids name = some id →
    Denotes store ids (.named name []) id
  | parted {type : TypeExpr} {handles data id} :
    store.HasShape type handles data →
    List.Forall₂ (Denotes store ids) type.parts handles →
    store.lookup id = some data →
    Denotes store ids type id

/-- Induction on what a handle denotes: what holds of the parts holds of the expression. -/
@[elab_as_elim]
theorem Denotes.induct {store : TypeStore} {ids : String → Option TypeId}
    {motive : ∀ type id, Denotes store ids type id → Prop}
    (keyword : ∀ {word : Keyword}, motive (.keyword word) word.typeId .keyword)
    (literal : ∀ {value id} (interned : store.Interned value id)
      (found : store.lookup id = some (.literal value)),
      motive (.literal value) id (.literal interned found))
    (name : ∀ {name id} (found : ids name = some id), motive (.named name []) id (.name found))
    (parted : ∀ {type handles data id} (shape : store.HasShape type handles data)
      (parts : List.Forall₂ (Denotes store ids) type.parts handles)
      (found : store.lookup id = some data)
      (_ih : List.Forall₂ (fun part id => ∃ h, motive part id h) type.parts handles),
      motive type id (.parted shape parts found))
    {type : TypeExpr} {id : TypeId} (h : Denotes store ids type id) : motive type id h := by
  refine @Denotes.rec store ids motive
    (fun parts handles _ => List.Forall₂ (fun part id => ∃ h, motive part id h) parts handles)
    keyword literal name ?_ .nil ?_ type id h
  · intro type handles data id shape parts found ih
    exact parted shape parts found ih
  · intro part id parts handles h _ m all
    exact .cons ⟨h, m⟩ all

variable {store store' store'' : TypeStore} {ids ids' : String → Option TypeId} {type : TypeExpr}
  {handles : List TypeId} {data : TypeData} {id key value : TypeId} {names : List String}

/-! ## Later stores -/

/-- A store that keeps what handles stand for, and the handles of literal values. -/
structure Retains (store store' : TypeStore) : Prop extends store.Keeps store' where
  interned : ∀ value id, store.Interned value id → store'.Interned value id

/-- Defining a reserved handle changes nothing that handles stand for. -/
lemma retains_define (e : store.lookup id = some .pending) :
    store.Retains (store.define id data).2 :=
  ⟨keeps_define e, fun _ _ i => i.congr (literalIds_define e)⟩

lemma IndexKey.mono (h : store.IndexKey id) (k : store.Keeps store') : store'.IndexKey id := by
  cases h with
  | string => exact .string
  | number => exact .number
  | union found all => exact .union (k.lookup _ _ found nofun) all

lemma NamesProperty.mono {name : String} (h : store.NamesProperty id name)
    (k : store.Keeps store') : store'.NamesProperty id name := by
  obtain ⟨value, found, e⟩ := h
  exact ⟨value, k.lookup _ _ found nofun, e⟩

lemma LiteralKeys.mono (h : store.LiteralKeys id names) (k : store.Keeps store') :
    store'.LiteralKeys id names := by
  cases h with
  | one one => exact .one (one.mono k)
  | union found some all =>
    exact .union (k.lookup _ _ found nofun) some (all.imp fun _ _ h => h.mono k)

lemma HasShape.mono (h : store.HasShape type handles data) (k : store.Keeps store') :
    store'.HasShape type handles data := by
  cases h with
  | object same => exact .object same
  | composite => exact .composite
  | array => exact .array
  | tuple same => exact .tuple same
  | function same => exact .function same
  | arrayName => exact .arrayName
  | indexed key => exact .indexed (key.mono k)
  | keyed keys => exact .keyed (keys.mono k)

lemma HasShape.ne_pending (h : store.HasShape type handles data) : data ≠ .pending := by
  cases h <;> exact nofun

/-- What a handle denotes it denotes in every later store, where more names have handles. -/
theorem Denotes.mono (h : store.Denotes ids type id) (r : store.Retains store')
    (known : ∀ name id, ids name = some id → ids' name = some id) :
    store'.Denotes ids' type id := by
  induction h using Denotes.induct with
  | keyword => exact .keyword
  | literal interned found => exact .literal (r.interned _ _ interned) (r.lookup _ _ found nofun)
  | name found => exact .name (known _ _ found)
  | parted shape parts found ih =>
    refine .parted (shape.mono r.toKeeps) (ih.imp ?_) (r.lookup _ _ found shape.ne_pending)
    rintro part handle ⟨_, later⟩
    exact later

/-- An expression without parts is denoted by one handle. -/
theorem Denotes.unique {id' : TypeId} (h : store.Denotes ids type id)
    (h' : store.Denotes ids type id') (k : type.isStructural = false) : id = id' := by
  cases h with
  | keyword =>
    cases h' with
    | keyword => rfl
    | parted shape => cases shape
  | literal interned =>
    cases h' with
    | literal interned' => exact interned.unique interned'
    | parted shape => cases shape
  | name found =>
    cases h' with
    | name found' => exact Option.some.inj (found.symm.trans found')
    | parted shape => cases shape
  | parted shape => cases shape <;> cases k

end TypeStore

end TypeSchema
