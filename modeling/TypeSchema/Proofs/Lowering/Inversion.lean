import TypeSchema.Proofs.Lowering.Denotation
import TypeSchema.Proofs.Lowering.Structure

/-!
# Lowerings read backwards

What a successful lowering has done: the parts of an expression were lowered in order and their
handles put together in the expression's shape, and the names of an alias chain are those of
declarations, each but the last one the bare name of the next.
-/

namespace TypeSchema

/-! ## Key types of records -/

namespace TypeStore

variable {store : TypeStore} {id key value : TypeId} {ids : List TypeId} {names : List String}
  {data : TypeData}

lemma isIndexKey_iff : isIndexKey id = true ↔ id = .string ∨ id = .number := by
  simp [isIndexKey]

lemma namesProperty_of_literalName? {name : String} (h : store.literalName? id = some name) :
    store.NamesProperty id name := by
  unfold literalName? at h
  split at h
  case h_1 value found => exact ⟨value, found, h⟩
  case h_2 => cases h

lemma forall₂_of_mapM_literalName? (h : ids.mapM store.literalName? = some names) :
    List.Forall₂ store.NamesProperty ids names := by
  induction ids generalizing names with
  | nil =>
    cases h
    exact .nil
  | cons id ids ih =>
    simp only [List.mapM_cons, Option.bind_eq_bind, Option.bind_eq_some_iff, Option.pure_def,
      Option.some.injEq] at h
    obtain ⟨name, first, rest, others, rfl⟩ := h
    exact .cons (namesProperty_of_literalName? first) (ih others)

/-- What a record's key type stands for is told by the type. -/
lemma of_recordKeys? {keys : RecordKeys} (h : store.recordKeys? key = some keys) :
    (keys = .index ∧ store.IndexKey key) ∨
      ∃ names, keys = .properties names ∧ store.LiteralKeys key names := by
  unfold recordKeys? at h
  split at h
  case isTrue i =>
    cases h
    refine .inl ⟨rfl, ?_⟩
    rcases isIndexKey_iff.1 i with rfl | rfl
    · exact .string
    · exact .number
  case isFalse =>
    split at h
    case h_1 value found =>
      obtain ⟨name, e, rfl⟩ := Option.map_eq_some_iff.1 h
      exact .inr ⟨[name], rfl, .one ⟨value, found, e⟩⟩
    case h_2 members found =>
      split at h
      case isTrue all =>
        cases h
        refine .inl ⟨rfl, .union found fun id m => ?_⟩
        exact isIndexKey_iff.1 (List.all_eq_true.1 all id m)
      case isFalse all =>
        obtain ⟨names, e, rfl⟩ := Option.map_eq_some_iff.1 h
        refine .inr ⟨names, rfl, .union found ?_ (forall₂_of_mapM_literalName? e)⟩
        -- A union of nothing would have been a key for any string or number.
        rintro rfl
        exact all rfl
    case h_3 => cases h

lemma recordKeys?_of_indexKey (k : store.IndexKey key) : store.recordKeys? key = some .index := by
  cases k with
  | string => rfl
  | number => rfl
  | union found all =>
    exact recordKeys?_of_union found fun id m => isIndexKey_iff.2 (all id m)

lemma literalName?_of_namesProperty {name : String} (h : store.NamesProperty id name) :
    store.literalName? id = some name := by
  obtain ⟨value, found, e⟩ := h
  unfold literalName?
  rw [found]
  exact e

lemma mapM_literalName?_of_forall₂ (h : List.Forall₂ store.NamesProperty ids names) :
    ids.mapM store.literalName? = some names := by
  induction h with
  | nil => rfl
  | cons first _ ih => simp [List.mapM_cons, literalName?_of_namesProperty first, ih]

/-- What is a key type stands for keys. -/
lemma recordKeys?_ne_none (k : store.IndexKey key ∨ ∃ names, store.LiteralKeys key names) :
    store.recordKeys? key ≠ none := by
  rcases k with k | ⟨names, k⟩
  · rw [recordKeys?_of_indexKey k]
    exact nofun
  · unfold recordKeys?
    split
    case isTrue => exact nofun
    case isFalse =>
      cases k with
      | one p =>
        obtain ⟨value, found, e⟩ := p
        simp [found, e]
      | union found _ all =>
        rw [found]
        dsimp only
        split
        case isTrue => exact nofun
        case isFalse => simp [mapM_literalName?_of_forall₂ all]

lemma hasShape_of_recordData? {keyType valueType : TypeExpr}
    (h : store.recordData? key value = some data) :
    store.HasShape (.named "Record" [keyType, valueType]) [key, value] data := by
  unfold recordData? at h
  split at h
  case h_1 e =>
    cases h
    rcases of_recordKeys? e with ⟨-, i⟩ | ⟨_, e, -⟩
    · exact .indexed i
    · cases e
  case h_2 names e =>
    cases h
    rcases of_recordKeys? e with ⟨e, -⟩ | ⟨_, e, keys⟩
    · cases e
    · cases e
      exact .keyed keys
  case h_3 => cases h

end TypeStore

/-- What an expression is put together to has its shape. -/
lemma TypeExpr.hasShape_of_assemble? {store : TypeStore} {type : TypeExpr} {ids : List TypeId}
    {data : TypeData} (f : type.fault? = none) (l : ids.length = type.parts.length)
    (e : type.assemble? store ids = some data) : store.HasShape type ids data := by
  cases type with
  | keyword => cases f
  | literal => cases f
  | object members =>
    have l : ids.length = members.length := l.trans (List.length_map _)
    have shape : store.HasShape (.object members) _ _ := .object
      (forall₂_zipWith_left l fun member id => (⟨rfl, rfl, rfl, rfl⟩ : member.SameAs
        ⟨member.name, id, member.isOptional, false, member.documentation⟩))
    rw [map_zipWith_right l fun _ _ => rfl] at shape
    exact Option.some.inj e ▸ shape
  | composite =>
    cases e
    exact .composite
  | array =>
    obtain ⟨id, rfl⟩ := List.length_eq_one_iff.1 l
    cases e
    exact .array
  | tuple members =>
    have l : ids.length = members.length := l.trans (List.length_map _)
    have shape : store.HasShape (.tuple members) _ _ := .tuple
      (forall₂_zipWith_left l fun member id =>
        (⟨rfl, rfl⟩ : member.SameAs ⟨id, member.isOptional, false⟩))
    rw [map_zipWith_right l fun _ _ => rfl] at shape
    exact Option.some.inj e ▸ shape
  | named name arguments =>
    rcases named_of_fault?_eq_none f with ⟨rfl, key, value, rfl⟩ | ⟨rfl, element, rfl⟩
    · obtain ⟨keyId, valueId, rfl⟩ := List.length_eq_two.1 l
      exact TypeStore.hasShape_of_recordData? e
    · obtain ⟨id, rfl⟩ := List.length_eq_one_iff.1 l
      cases e
      exact .arrayName
  | function parameters returns =>
    obtain ⟨before, id, rfl⟩ : ∃ before id, ids = before ++ [id] := by
      refine ⟨ids.dropLast, ids.getLast ?_, (List.dropLast_append_getLast _).symm⟩
      rintro rfl
      simp [parts] at l
    have l : before.length = parameters.length := by simpa [parts] using l
    have e : some (TypeData.callable [⟨parameters.zipWith (fun parameter id =>
        ⟨some parameter.name, id, parameter.isOptional, false⟩) (before ++ [id]),
        (before ++ [id]).getLastD default⟩]) = some data := e
    rw [zipWith_append_right l, List.getLastD_concat] at e
    have shape : store.HasShape (.function parameters returns) _ (.callable [⟨_, id⟩]) := .function
      (forall₂_zipWith_left l fun parameter id => (⟨rfl, rfl, rfl⟩ : parameter.SameAs
        ⟨some parameter.name, id, parameter.isOptional, false⟩))
    rw [map_zipWith_right l fun _ _ => rfl] at shape
    exact Option.some.inj e ▸ shape

namespace Lowering

variable {lowerPart : TypeExpr → LowerWalk TypeId} {declarations : List Declaration}
  {s s' : LowerState} {type : TypeExpr} {data : TypeData} {id : TypeId} {ids : List TypeId}

/-! ## Parts -/

/-- The data of an expression has its shape, with the handles that its parts were lowered to. -/
theorem parts_of_gives_lowerStructure (h : (lowerStructure lowerPart type).Gives s data s') :
    ∃ ids, (type.parts.mapM lowerPart).Gives s ids s' ∧ s'.store.HasShape type ids data := by
  obtain ⟨f, ids, parts, e⟩ := gives_lowerStructure_iff.1 h
  exact ⟨ids, parts, TypeExpr.hasShape_of_assemble? f parts.mapM_length e⟩

/-! ## Levels and handles -/

/-- A walk one level deeper that gives a result runs there, and leaves the level it ends on. -/
lemma of_gives_deeper {α : Type} {walk : LowerWalk α} {a : α}
    (h : (LowerWalk.deeper walk).Gives s a s') :
    ∃ t depth, walk.Gives s.down a t ∧ t.depth.leave = .ok depth ∧ s' = { t with depth } := by
  unfold Walk.Gives at h
  rw [run_deeper] at h
  split at h
  case isTrue => cases h
  case isFalse =>
    split at h
    case h_1 depth left =>
      obtain ⟨result, rfl⟩ := Prod.mk.inj h
      exact ⟨(walk.run s.down).2, depth, Prod.ext result rfl, left, rfl⟩
    case h_2 => cases h

/-- An expression that is no keyword, literal or bare name has parts. -/
lemma of_gives_lowerExpr (k : type.isStructural = true)
    (h : (lowerExpr lowerPart declarations type).Gives s id s') :
    ∃ data t, (lowerStructure lowerPart type).Gives s data t ∧ id = t.store.nextId ∧
      s' = { t with store := t.store.place data } := by
  rw [lowerExpr_of_structural k] at h
  obtain ⟨data, t, lowered, h⟩ := Walk.gives_bind.1 h
  refine ⟨data, t, lowered, ?_⟩
  cases h
  exact ⟨rfl, rfl⟩

/-- The handle of an alias with parts is reserved before these are lowered, and defined after. -/
lemma of_gives_lowerAliasBody {declaration : Declaration}
    (k : declaration.type.isStructural = true)
    (h : (lowerAliasBody lowerPart declaration).Gives s id s') :
    id = s.store.nextId ∧ ∃ data t,
      (LowerWalk.deeper (lowerStructure lowerPart declaration.type)).Gives
        (s.resolving declaration.name) data t ∧
      s' = { t with store := (t.store.define id data).2 } := by
  unfold lowerAliasBody at h
  rw [if_pos k] at h
  obtain ⟨reserved, s1, h1, h⟩ := Walk.gives_bind.1 h
  cases h1
  obtain ⟨_, s2, h2, h⟩ := Walk.gives_bind.1 h
  cases h2
  obtain ⟨_, s3, h3, h⟩ := Walk.gives_bind.1 h
  cases h3
  obtain ⟨data, t, h4, h⟩ := Walk.gives_bind.1 h
  cases h
  exact ⟨rfl, data, t, h4, rfl⟩

/-! ## Alias chains -/

/-- The names of a chain, the last one first, and the declaration of the last. Every name is
declared and had no handle when the chain was followed, and every one but the last stands for the
next. -/
inductive AliasChain (declarations : List Declaration) (resolved : List (String × TypeId)) :
    List String → Declaration → Prop
  | start {declaration} :
    declared? declarations declaration.name = some declaration →
    resolved.lookup declaration.name = none →
    AliasChain declarations resolved [declaration.name] declaration
  | next {chain declaration following} :
    AliasChain declarations resolved chain declaration →
    declaration.type = .named following.name [] →
    declared? declarations following.name = some following →
    resolved.lookup following.name = none →
    AliasChain declarations resolved (following.name :: chain) following

variable {resolved : List (String × TypeId)} {chain : List String} {declaration : Declaration}
  {name : String}

lemma AliasChain.unresolved (l : AliasChain declarations resolved chain declaration) :
    ∀ name ∈ chain, resolved.lookup name = none := by
  induction l with
  | start _ r =>
    intro name m
    cases List.mem_singleton.1 m
    exact r
  | next _ _ _ r ih => exact List.forall_mem_cons.2 ⟨r, ih⟩

lemma AliasChain.mem_last (l : AliasChain declarations resolved chain declaration) :
    declaration.name ∈ chain := by
  cases l with
  | start => exact List.mem_cons_self
  | next => exact List.mem_cons_self

/-- The last name of a chain has no handle yet. -/
lemma AliasChain.unresolved_last (l : AliasChain declarations resolved chain declaration) :
    resolved.lookup declaration.name = none := l.unresolved _ l.mem_last

lemma AliasChain.declared (l : AliasChain declarations resolved chain declaration) :
    declared? declarations declaration.name = some declaration := by
  cases l with
  | start c => exact c
  | next _ _ c => exact c

lemma name_of_declared? (h : declared? declarations name = some declaration) :
    declaration.name = name := by
  have e := List.find?_some h
  exact eq_of_beq e

lemma eq_named_of_aliasTarget? (h : type.aliasTarget? declarations = some name) :
    type = .named name [] := by
  unfold TypeExpr.aliasTarget? at h
  split at h
  case h_1 target =>
    obtain ⟨_, -, rfl⟩ := Option.map_eq_some_iff.1 h
    rfl
  case h_2 => cases h

/-- The name is the first one of a chain, or comes after the chain. -/
def Follows (declarations : List Declaration) (resolved : List (String × TypeId))
    (chain : List String) (name : String) : Prop :=
  chain = [] ∨
    ∃ declaration, AliasChain declarations resolved chain declaration ∧
      declaration.type = .named name []

lemma Follows.extend {following : Declaration} (f : Follows declarations resolved chain name)
    (c : declared? declarations name = some following) (r : resolved.lookup name = none) :
    AliasChain declarations resolved (following.name :: chain) following := by
  obtain rfl := name_of_declared? c
  rcases f with rfl | ⟨declaration, l, e⟩
  · exact .start c r
  · exact .next l e c r

/-- A chain that ends well has the first name, and ends at a declaration that has a body of its own
or is the bare name of a resolved alias. -/
def EndsWell (declarations : List Declaration) (resolved : List (String × TypeId))
    (first : String) : ChainEnd → Prop
  | .undeclared _ | .cycle _ => True
  | .resolved chain id => first ∈ chain ∧
    ∃ declaration target, AliasChain declarations resolved chain declaration ∧
      declaration.type = .named target [] ∧ resolved.lookup target = some id
  | .body chain declaration => first ∈ chain ∧ AliasChain declarations resolved chain declaration

lemma endsWell_followChain {first : String} (steps : Nat)
    (f : Follows declarations resolved chain name) (m : first ∈ name :: chain)
    (r : resolved.lookup name = none) :
    EndsWell declarations resolved first (followChain declarations resolved steps chain name) := by
  induction steps generalizing chain name with
  | zero => trivial
  | succ steps ih =>
    unfold followChain
    split
    case h_1 => trivial
    case h_2 following c =>
      have longer := f.extend c r
      obtain rfl := name_of_declared? c
      split
      case isTrue => trivial
      case isFalse =>
        dsimp only
        split
        case h_1 => exact ⟨m, longer⟩
        case h_2 target t =>
          have e := eq_named_of_aliasTarget? t
          split
          case h_1 id r => exact ⟨m, following, target, longer, e, r⟩
          case h_2 r => exact ih (.inr ⟨following, longer, e⟩) (List.mem_cons_of_mem _ m) r

/-- The alias chain of a name that has no handle yet ends well, or not at all. -/
theorem endsWell_chainEnd (r : resolved.lookup name = none) :
    EndsWell declarations resolved name (chainEnd declarations resolved name) :=
  endsWell_followChain _ (.inl rfl) List.mem_cons_self r

/-- What is followed to a body is an alias chain. -/
lemma aliasChain_of_chainEnd (r : resolved.lookup name = none)
    (e : chainEnd declarations resolved name = .body chain declaration) :
    AliasChain declarations resolved chain declaration := by
  have ends : EndsWell declarations resolved name (chainEnd declarations resolved name) :=
    endsWell_chainEnd r
  rw [e] at ends
  exact ends.2

end Lowering

end TypeSchema
