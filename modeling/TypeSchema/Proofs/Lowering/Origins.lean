import TypeSchema.Proofs.Lowering.Acceptance
import TypeSchema.Proofs.Lowering.Spots

/-!
# The origins of handles

When declarations are lowered, every handle that an expression is denoted by comes from a keyword,
from a literal value or from the spot of an expression with parts, and nothing else has this origin.
Which origin it is can be told from the declarations alone, and so can the data behind the handle,
but for the handles in it.
-/

namespace TypeSchema

/-! ## Data of a shape -/

namespace TypeStore

variable {store : TypeStore} {id key : TypeId} {names : List String} {data : TypeData}

/-- An index key is an intrinsic type. -/
lemma Regular.not_isIndexKey (r : store.Regular) (found : store.lookup id = some data)
    (n : ∀ type, data ≠ .intrinsic type) : isIndexKey id = false := by
  rw [Bool.eq_false_iff]
  intro i
  rcases isIndexKey_iff.1 i with rfl | rfl
  · obtain ⟨_, e⟩ := r.lookup_keyword .string
    exact n _ (Option.some.inj (found.symm.trans e))
  · obtain ⟨_, e⟩ := r.lookup_keyword .number
    exact n _ (Option.some.inj (found.symm.trans e))

/-- A key type for the properties of names stands for these. -/
lemma Regular.recordKeys?_of_literalKeys (r : store.Regular) (k : store.LiteralKeys key names) :
    store.recordKeys? key = some (.properties names) := by
  unfold recordKeys?
  cases k with
  | one p =>
    obtain ⟨value, found, e⟩ := p
    rw [r.not_isIndexKey found nofun, found]
    simp [e]
  | @union ids _ found some all =>
    have literals : ids.all isIndexKey = false := by
      cases all with
      | nil => exact absurd rfl some
      | cons first _ =>
        obtain ⟨value, found, -⟩ := first
        rw [List.all_cons, r.not_isIndexKey found nofun]
        rfl
    rw [r.not_isIndexKey found nofun, found]
    simp [literals, mapM_literalName?_of_forall₂ all]

end TypeStore

/-- The shape of an expression leaves the data no choice but of the handles. -/
theorem TypeExpr.assemble?_of_hasShape {store : TypeStore} {type : TypeExpr} {ids : List TypeId}
    {data : TypeData} (r : store.Regular) (h : store.HasShape type ids data) :
    type.assemble? store ids = some data := by
  cases h with
  | @object members properties same =>
    dsimp only [assemble?, layout]
    rw [zipWith_map_of_forall₂ same]
    rintro member property ⟨name, isOptional, documentation, isReadonly⟩
    rw [← name, ← isOptional, ← documentation, ← isReadonly]
  | composite => rfl
  | array => rfl
  | tuple same =>
    dsimp only [assemble?, layout]
    rw [zipWith_map_of_forall₂ same]
    rintro member element ⟨isOptional, isRest⟩
    rw [← isOptional, ← isRest]
  | @function parameters returns infos id same =>
    have l : (infos.map (·.type)).length = parameters.length := by
      rw [List.length_map, same.length_eq]
    dsimp only [assemble?, layout]
    rw [zipWith_append_right l, zipWith_map_of_forall₂ same]
    · simp
    · rintro parameter info ⟨name, isOptional, isRest⟩
      rw [← name, ← isOptional, ← isRest]
  | arrayName => rfl
  | @indexed key value keyId valueId k =>
    show store.recordData? keyId valueId = _
    unfold TypeStore.recordData?
    rw [TypeStore.recordKeys?_of_indexKey k]
  | @keyed key value keyId valueId names k =>
    show store.recordData? keyId valueId = _
    unfold TypeStore.recordData?
    rw [r.recordKeys?_of_literalKeys k]

namespace Lowering

/-! ## Origins -/

/-- What a handle is handed out for. -/
inductive Origin where
  | keyword (word : Keyword)
  | literal (value : Literal)
  | spot (spot : Spot)

/-- The handle is handed out for the origin. -/
inductive ComesFrom (s : LowerState) (labels : Labels) : TypeId → Origin → Prop
  | keyword {word : Keyword} : ComesFrom s labels word.typeId (.keyword word)
  | literal {value : Literal} {id : TypeId} :
    s.store.Interned value id →
    ComesFrom s labels id (.literal value)
  | spot {spot : Spot} {id : TypeId} :
    labels id = some spot →
    ComesFrom s labels id (.spot spot)

/-- The origin of the handle of an expression at a spot. -/
inductive OriginAt (declarations : List Declaration) : Spot → TypeExpr → Origin → Prop
  | keyword {spot : Spot} {word : Keyword} :
    OriginAt declarations spot (.keyword word) (.keyword word)
  | literal {spot : Spot} {value : Literal} :
    OriginAt declarations spot (.literal value) (.literal value)
  | parted {spot : Spot} {type : TypeExpr} :
    type.isStructural = true →
    OriginAt declarations spot type (.spot spot)
  | name {spot : Spot} {name : String} {last : Declaration} {origin : Origin} :
    EndsAt declarations name last →
    OriginAt declarations (.top last.name) last.type origin →
    OriginAt declarations spot (.named name []) origin

variable {declarations : List Declaration} {s : LowerState} {labels : Labels} {type : TypeExpr}
  {id id' : TypeId} {spot : Spot} {origin origin' : Origin} {name : String}

/-- A spot's expression has one origin. -/
lemma OriginAt.unique (h : OriginAt declarations spot type origin)
    (h' : OriginAt declarations spot type origin') : origin = origin' := by
  induction h with
  | keyword =>
    cases h' with
    | keyword => rfl
    | parted k => cases k
  | literal =>
    cases h' with
    | literal => rfl
    | parted k => cases k
  | parted k =>
    cases h' with
    | parted => rfl
    | _ => cases k
  | name e _ ih =>
    cases h' with
    | parted k => cases k
    | name e' h' =>
      obtain rfl := e.unique e'
      exact ih h'

lemma OriginAt.congr {others : List Declaration} (h : OriginAt declarations spot type origin)
    (same : declared? declarations = declared? others) : OriginAt others spot type origin := by
  induction h with
  | keyword => exact .keyword
  | literal => exact .literal
  | parted k => exact .parted k
  | name e _ ih => exact .name (e.congr same) ih

/-- The expressions at spots depend on the declarations of names alone. -/
lemma Spot.type?_congr {others : List Declaration} (spot : Spot)
    (same : declared? declarations = declared? others) :
    spot.type? declarations = spot.type? others := by
  unfold Spot.type?
  rw [same]

namespace Complete

variable (c : Complete declarations s labels)

include c

/-- The data behind a labelled handle is that of the expression at its spot. -/
lemma lookup_of_label (e : labels id = some spot) :
    ∃ type ids data, spot.type? declarations = some type ∧ s.store.lookup id = some data ∧
      s.store.HasShape type ids data ∧ List.Forall₂ s.Denotes type.parts ids ∧
      ∀ i part handle, type.parts[i]? = some part → ids[i]? = some handle →
        part.isStructural = true → labels handle = some (spot.part i) := by
  obtain ⟨type, at_spot, -, p | ⟨ids, data, found, shape, parts, inner⟩⟩ :=
    c.labelled.laid id spot e
  · exact absurd p (c.defined id)
  · exact ⟨type, ids, data, at_spot, found, shape, parts, inner⟩

/-- A handle comes from one origin. -/
lemma origin_unique (h : ComesFrom s labels id origin) (h' : ComesFrom s labels id origin') :
    origin = origin' := by
  have regular := c.faithful.regular
  -- Intrinsic types, literal types and types of a shape exclude one another.
  cases h with
  | @keyword word =>
    obtain ⟨_, intrinsic⟩ := regular.lookup_keyword word
    generalize e : word.typeId = id at h' intrinsic
    cases h' with
    | @keyword word' =>
      obtain rfl : word = word' := by revert e; cases word <;> cases word' <;> decide
      rfl
    | literal i => cases intrinsic.symm.trans (regular.lookup_of_interned i)
    | spot e =>
      obtain ⟨_, _, _, -, found, shape, -⟩ := c.lookup_of_label e
      cases found.symm.trans intrinsic
      cases shape
  | literal i =>
    have literal := regular.lookup_of_interned i
    cases h' with
    | @keyword word =>
      obtain ⟨_, intrinsic⟩ := regular.lookup_keyword word
      cases intrinsic.symm.trans literal
    | literal i' =>
      cases literal.symm.trans (regular.lookup_of_interned i')
      rfl
    | spot e =>
      obtain ⟨_, _, _, -, found, shape, -⟩ := c.lookup_of_label e
      cases found.symm.trans literal
      cases shape
  | spot e =>
    obtain ⟨_, _, _, -, found, shape, -⟩ := c.lookup_of_label e
    cases h' with
    | @keyword word =>
      obtain ⟨_, intrinsic⟩ := regular.lookup_keyword word
      cases found.symm.trans intrinsic
      cases shape
    | literal i =>
      cases found.symm.trans (regular.lookup_of_interned i)
      cases shape
    | spot e' =>
      obtain rfl := Option.some.inj (e.symm.trans e')
      rfl

/-- No other handle has the same origin. -/
lemma handle_unique (h : ComesFrom s labels id origin) (h' : ComesFrom s labels id' origin) :
    id = id' := by
  cases h with
  | keyword =>
    cases h' with
    | keyword => rfl
  | literal i =>
    cases h' with
    | literal i' => exact i.unique i'
  | spot e =>
    cases h' with
    | spot e' => exact c.labelled.injective id id' _ e e'

/-- The bodies of declarations, and nothing else, have alias names. -/
lemma aliasName?_iff (h : ComesFrom s labels id origin) :
    s.store.aliasName? id = some name ↔ origin = .spot (.top name) := by
  rw [c.labelled.named]
  constructor
  · intro e
    exact c.origin_unique h (.spot e)
  · rintro rfl
    cases h with
    | spot e => exact e

omit c in
/-- The handle of an expression that is no bare name comes from the expression itself. -/
lemma exists_origin_of_ne (d : s.Denotes type id) (n : ∀ name, type ≠ .named name [])
    (own : type.isStructural = true → labels id = some spot) :
    ∃ origin, OriginAt declarations spot type origin ∧ ComesFrom s labels id origin := by
  cases d with
  | keyword => exact ⟨_, .keyword, .keyword⟩
  | literal i => exact ⟨_, .literal, .literal i⟩
  | name => exact absurd rfl (n _)
  | parted shape =>
    have k := TypeExpr.isStructural_of_hasShape shape
    exact ⟨_, .parted k, .spot (own k)⟩

/-- The handle of every expression has an origin that the declarations tell. -/
theorem exists_origin (d : s.Denotes type id)
    (own : type.isStructural = true → labels id = some spot) :
    ∃ origin, OriginAt declarations spot type origin ∧ ComesFrom s labels id origin := by
  by_cases n : ∃ name, type = .named name []
  · obtain ⟨name, rfl⟩ := n
    obtain ⟨type', m, d', n⟩ := exists_means c.faithful c.grounded d
    cases m with
    | own => exact absurd rfl (n name)
    | name e =>
      -- The handle of a name is that of the body at the end of its chain, not one of the spot.
      obtain ⟨origin, o, h⟩ := exists_origin_of_ne d' n (c.labelled.known name id _ d.resolved e)
      exact ⟨origin, .name e o, h⟩
  · exact exists_origin_of_ne d (not_exists.1 n) own

end Complete

end Lowering

end TypeSchema
