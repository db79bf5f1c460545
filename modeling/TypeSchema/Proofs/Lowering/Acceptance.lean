import TypeSchema.Proofs.Lowering.Accepted

/-!
# Lowering succeeds on accepted declarations

Declarations that are lowered are accepted, as what every expression of theirs is denoted by tells
what it stands for. Accepted declarations are lowered unless they lie too deep: no alias chain that
is followed is without an end, and a record finds the union that is its key type defined.
-/

namespace TypeSchema

namespace TypeExpr

variable {type : TypeExpr} {store : TypeStore} {ids : List TypeId} {data : TypeData}

/-- What has a shape has parts. -/
lemma isStructural_of_hasShape (h : store.HasShape type ids data) : type.isStructural = true := by
  cases h <;> rfl

/-- What has a shape is not refused for its form. -/
lemma fault?_of_hasShape (h : store.HasShape type ids data) : type.fault? = none := by
  cases h <;> rfl

/-- Handles of parts do not fit only where a record has no key type. -/
lemma record_of_assemble?_eq_none (f : type.fault? = none) (h : type.assemble? store ids = none) :
    ∃ key value, type = .named "Record" [key, value] ∧
      store.recordData? (ids.headD default) (ids.tail.headD default) = none := by
  cases type with
  | named name arguments =>
    unfold assemble? at h
    dsimp only at h
    rcases named_of_fault?_eq_none f with ⟨rfl, key, value, rfl⟩ | ⟨rfl, element, rfl⟩
    · exact ⟨key, value, rfl, h⟩
    · cases h
  | _ => cases h

end TypeExpr

namespace TypeStore

variable {store : TypeStore} {key value : TypeId}

/-- A record has a key type if its key stands for keys. -/
lemma recordData?_ne_none (h : store.recordKeys? key ≠ none) :
    store.recordData? key value ≠ none := by
  unfold recordData?
  cases e : store.recordKeys? key with
  | none => exact absurd e h
  | some keys => cases keys <;> simp

/-- A record is an index signature, or a property for every name that its key stands for. -/
lemma record_of_hasShape {keyType valueType : TypeExpr} {ids : List TypeId} {data : TypeData}
    (h : store.HasShape (.named "Record" [keyType, valueType]) ids data) :
    ∃ key value, ids = [key, value] ∧
      ((store.IndexKey key ∧ data = .object [] [{ key, value }]) ∨
        ∃ names, store.LiteralKeys key names ∧
          data = .object (names.map fun name => { name, type := value }) []) := by
  generalize e : TypeExpr.named "Record" [keyType, valueType] = type at h
  cases h with
  | arrayName => simp at e
  | indexed k => exact ⟨_, _, rfl, .inl ⟨k, rfl⟩⟩
  | keyed k => exact ⟨_, _, rfl, .inr ⟨_, k, rfl⟩⟩
  | _ => cases e

/-- A keyword denotes an intrinsic type. -/
lemma Regular.lookup_keyword (r : store.Regular) (word : Keyword) :
    ∃ type, store.lookup word.typeId = some (.intrinsic type) := by
  rw [r.intrinsics word.typeId (by cases word <;> rfl)]
  cases word <;> exact ⟨_, rfl⟩

end TypeStore

namespace LowerState

variable {s : LowerState} {type : TypeExpr} {id : TypeId}

/-- What denotes an expression that is no bare name is told by the data behind the handle. -/
lemma Denotes.cases_of_ne (d : s.Denotes type id) (n : ∀ name, type ≠ .named name []) :
    (∃ word, type = .keyword word ∧ id = word.typeId) ∨
      (∃ value, type = .literal value ∧ s.store.lookup id = some (.literal value)) ∨
      ∃ ids data, s.store.HasShape type ids data ∧ List.Forall₂ s.Denotes type.parts ids ∧
        s.store.lookup id = some data := by
  cases d with
  | keyword => exact .inl ⟨_, rfl, rfl⟩
  | literal _ found => exact .inr (.inl ⟨_, rfl, found⟩)
  | name => exact absurd rfl (n _)
  | parted shape parts found => exact .inr (.inr ⟨_, _, shape, parts, found⟩)

end LowerState

namespace Lowering

variable {declarations : List Declaration} {s s' : LowerState} {type type' key : TypeExpr}
  {id : TypeId} {ids : List TypeId} {name : String} {last : Declaration} {pending : List String}

/-! ## What denotes an expression denotes what it stands for -/

/-- The handle of a name denotes the body at the end of its chain, unless a name of the chain has
only a reserved handle. -/
lemma denotes_of_endsAt (f : s.Faithful declarations pending) (e : EndsAt declarations name last)
    (free : ∀ other ∈ pending, ¬ EndsAt declarations other last)
    (r : s.resolved.lookup name = some id) : s.Denotes last.type id := by
  induction e with
  | own c t =>
    obtain ⟨_, c', d, -⟩ := f.stands _ id r fun m => free _ m (.own c t)
    obtain rfl := Option.some.inj (c.symm.trans c')
    exact d
  | link c t e ih =>
    obtain ⟨_, c', d, -⟩ := f.stands _ id r fun m => free _ m (.link c t e)
    obtain rfl := Option.some.inj (c.symm.trans c')
    rw [eq_named_of_aliasTarget? t] at d
    exact ih free d.resolved

lemma denotes_of_means (f : s.Faithful declarations pending) (m : Means declarations type type')
    (free : ∀ other ∈ pending, ¬ Means declarations (.named other []) type')
    (d : s.Denotes type id) : s.Denotes type' id := by
  cases m with
  | own => exact d
  | name e => exact denotes_of_endsAt f e (fun other mo e' => free other mo (.name e')) d.resolved

/-! ## Lowered declarations are accepted -/

/-- An expression that is denoted stands for one that is no bare name. -/
lemma exists_means (f : s.Faithful declarations []) (g : Grounded declarations s.resolved)
    (d : s.Denotes type id) :
    ∃ type', Means declarations type type' ∧ s.Denotes type' id ∧
      ∀ name, type' ≠ .named name [] := by
  by_cases n : ∃ name, type = .named name []
  · obtain ⟨name, rfl⟩ := n
    obtain ⟨last, e⟩ := g name id d.resolved
    have d := denotes_of_endsAt f e (fun _ m => absurd m List.not_mem_nil) d.resolved
    refine ⟨last.type, .name e, d, fun other t => ?_⟩
    rw [t] at d
    obtain ⟨_, e'⟩ := g other id d.resolved
    obtain ⟨_, c⟩ := e'.exists_declared
    have none := e.aliasTarget?
    simp [t, TypeExpr.aliasTarget?, c] at none
  · exact ⟨type, .own (not_exists.1 n), d, not_exists.1 n⟩

lemma meansIndex_of_denotes (f : s.Faithful declarations []) (g : Grounded declarations s.resolved)
    (d : s.Denotes type id) (e : id = .string ∨ id = .number) : MeansIndex declarations type := by
  obtain ⟨type', m, d, n⟩ := exists_means f g d
  have found : ∃ word, s.store.lookup id = some (.intrinsic word) := by
    rcases e with rfl | rfl
    · exact f.regular.lookup_keyword .string
    · exact f.regular.lookup_keyword .number
  obtain ⟨word, found⟩ := found
  rcases d.cases_of_ne n with ⟨word, rfl, rfl⟩ | ⟨value, -, found'⟩ | ⟨ids, data, shape, -, found'⟩
  · rcases e with e | e
    · obtain rfl : word = .string := by cases word <;> first | rfl | cases e
      exact .inl m
    · obtain rfl : word = .number := by cases word <;> first | rfl | cases e
      exact .inr m
  · cases found.symm.trans found'
  · obtain rfl := Option.some.inj (found.symm.trans found')
    cases shape

lemma meansProperty_of_denotes (f : s.Faithful declarations [])
    (g : Grounded declarations s.resolved) (d : s.Denotes type id)
    (p : s.store.NamesProperty id name) : MeansProperty declarations type := by
  obtain ⟨value, found, e⟩ := p
  obtain ⟨type', m, d, n⟩ := exists_means f g d
  rcases d.cases_of_ne n with ⟨word, -, rfl⟩ | ⟨value', rfl, found'⟩ | ⟨ids, data, shape, -, found'⟩
  · obtain ⟨_, found'⟩ := f.regular.lookup_keyword word
    cases found.symm.trans found'
  · cases found.symm.trans found'
    exact ⟨value, name, m, e⟩
  · obtain rfl := Option.some.inj (found.symm.trans found')
    cases shape

/-- A handle that stands for a union denotes one. -/
lemma means_union_of_denotes (f : s.Faithful declarations []) (g : Grounded declarations s.resolved)
    (d : s.Denotes type id) (found : s.store.lookup id = some (.composite .union ids)) :
    ∃ members, Means declarations type (.composite .union members) ∧
      List.Forall₂ s.Denotes members ids := by
  obtain ⟨type', m, d, n⟩ := exists_means f g d
  rcases d.cases_of_ne n with
    ⟨word, -, rfl⟩ | ⟨value, -, found'⟩ | ⟨ids, data, shape, parts, found'⟩
  · obtain ⟨_, found'⟩ := f.regular.lookup_keyword word
    cases found.symm.trans found'
  · cases found.symm.trans found'
  · obtain rfl := Option.some.inj (found.symm.trans found')
    cases shape with
    | composite => exact ⟨_, m, parts⟩

lemma keyType_of_indexKey (f : s.Faithful declarations []) (g : Grounded declarations s.resolved)
    (d : s.Denotes key id) (k : s.store.IndexKey id) : KeyType declarations key := by
  cases k with
  | string => exact .index (meansIndex_of_denotes f g d (.inl rfl))
  | number => exact .index (meansIndex_of_denotes f g d (.inr rfl))
  | union found all =>
    obtain ⟨members, m, parts⟩ := means_union_of_denotes f g d found
    refine .indexes m fun member mm => ?_
    obtain ⟨id, mi, d⟩ := exists_of_forall₂ parts member mm
    exact meansIndex_of_denotes f g d (all id mi)

lemma keyType_of_literalKeys {names : List String} (f : s.Faithful declarations [])
    (g : Grounded declarations s.resolved) (d : s.Denotes key id)
    (k : s.store.LiteralKeys id names) : KeyType declarations key := by
  cases k with
  | one p => exact .property (meansProperty_of_denotes f g d p)
  | union found _ all =>
    obtain ⟨members, m, parts⟩ := means_union_of_denotes f g d found
    refine .properties m fun member mm => ?_
    obtain ⟨id, mi, d⟩ := exists_of_forall₂ parts member mm
    obtain ⟨name, -, p⟩ := exists_of_forall₂ all id mi
    exact meansProperty_of_denotes f g d p

/-- What is denoted is accepted. -/
theorem admits_of_denotes (f : s.Faithful declarations []) (g : Grounded declarations s.resolved)
    (d : s.Denotes type id) : Admits declarations type := by
  unfold LowerState.Denotes at d
  induction d using TypeStore.Denotes.induct with
  | keyword => exact .keyword
  | literal => exact .literal
  | name found =>
    obtain ⟨_, e⟩ := g _ _ found
    exact .name e
  | parted shape parts found ih =>
    refine .parted (TypeExpr.isStructural_of_hasShape shape) (TypeExpr.fault?_of_hasShape shape)
      ?_ ?_
    · rintro key value rfl
      obtain ⟨keyId, valueId, rfl, keys⟩ := TypeStore.record_of_hasShape shape
      cases parts with
      | cons d _ =>
        rcases keys with ⟨k, -⟩ | ⟨names, k, -⟩
        · exact keyType_of_indexKey f g d k
        · exact keyType_of_literalKeys f g d k
    · intro part m
      obtain ⟨_, -, _, admitted⟩ := exists_of_forall₂ ih part m
      exact admitted

/-- Declarations that are lowered are accepted. -/
theorem accepted_of_lowerDeclarations {store store' : TypeStore} {handles : List (String × TypeId)}
    (r : store.Reachable) (h : lowerDeclarations store declarations = (.ok handles, store')) :
    Accepted declarations := by
  obtain ⟨n, s, _, rfl, threads, -⟩ := names_of_lowerDeclarations h
  have grounded : Grounded declarations (start store).resolved := fun _ _ e => by cases e
  obtain ⟨-, f, all⟩ := faithful_names threads (faithful_start r)
  have g := grounded_threads (threads.imp fun _ _ _ _ h => h.grounded) grounded
  refine ⟨n, fun declaration m => ?_⟩
  obtain ⟨id, e⟩ := all declaration m
  obtain ⟨declaration', c, d, -⟩ := f.stands declaration.name id e List.not_mem_nil
  obtain rfl := Option.some.inj ((declared?_eq_some n m).symm.trans c)
  exact admits_of_denotes f g d

/-! ## Accepted declarations are lowered -/

/-- The expression stands for a keyword or a literal. -/
def MeansPlain (declarations : List Declaration) (type : TypeExpr) : Prop :=
  (∃ word, Means declarations type (.keyword word)) ∨
    ∃ value, Means declarations type (.literal value)

/-- The only stops are for the depth, or are misuses. -/
def ForDepth (stop : WalkStop LowerError) : Prop :=
  stop = .failed .depthLimitExceeded ∨ ∃ misuse, stop = .misused misuse

/-- None of the names is that of a key type. -/
def NoKeys (declarations : List Declaration) (pending : List String) : Prop :=
  ∀ name ∈ pending, ¬ KeyType declarations (.named name [])

/-- The expression is lowered in a faithful state, and outside of all key types, or it comes to no
record. -/
def Ready (declarations : List Declaration) (type : TypeExpr) (s : LowerState) : Prop :=
  ∃ pending, s.Faithful declarations pending ∧
    (MeansPlain declarations type ∨ NoKeys declarations pending)

/-- So it is for the parts of the expression, which may be a key type itself. -/
def Inside (declarations : List Declaration) (type : TypeExpr) (s : LowerState) : Prop :=
  ∃ pending, s.Faithful declarations pending ∧
    ((∃ members, type = .composite .union members ∧
        ∀ member ∈ members, MeansPlain declarations member) ∨
      NoKeys declarations pending)

lemma MeansIndex.plain (h : MeansIndex declarations type) : MeansPlain declarations type :=
  .inl (h.elim (fun m => ⟨_, m⟩) fun m => ⟨_, m⟩)

lemma MeansProperty.plain (h : MeansProperty declarations type) : MeansPlain declarations type := by
  obtain ⟨value, _, m, -⟩ := h
  exact .inr ⟨value, m⟩

/-- What stands for an expression with parts stands for no keyword and no literal. -/
lemma MeansPlain.not_structural (p : MeansPlain declarations type)
    (m : Means declarations type type') :
    type'.isStructural = false := by
  rcases p with ⟨word, p⟩ | ⟨value, p⟩
  · rw [m.unique p]
    rfl
  · rw [m.unique p]
    rfl

/-- A key type that has parts is a union of others that have none. -/
lemma KeyType.exists_members (k : KeyType declarations type) (m : Means declarations type type')
    (c : type'.isStructural = true) :
    ∃ members, type' = .composite .union members ∧
      ∀ member ∈ members, MeansPlain declarations member := by
  cases k with
  | index i =>
    have := i.plain.not_structural m
    rw [c] at this
    cases this
  | property p =>
    have := p.plain.not_structural m
    rw [c] at this
    cases this
  | indexes i all => exact ⟨_, m.unique i, fun member mm => (all member mm).plain⟩
  | properties i all => exact ⟨_, m.unique i, fun member mm => (all member mm).plain⟩

lemma means_of_structural (k : type.isStructural = true) : Means declarations type type :=
  .own (by rintro name rfl; cases k)

lemma Ready.inside (h : Ready declarations type s) (k : type.isStructural = true) :
    Inside declarations type s := by
  obtain ⟨pending, f, p | n⟩ := h
  · have := p.not_structural (means_of_structural k)
    rw [k] at this
    cases this
  · exact ⟨pending, f, .inr n⟩

lemma Inside.ready {part : TypeExpr} (h : Inside declarations type s) (m : part ∈ type.parts) :
    Ready declarations part s := by
  obtain ⟨pending, f, ⟨members, rfl, all⟩ | n⟩ := h
  · exact ⟨pending, f, .inl (all part m)⟩
  · exact ⟨pending, f, .inr n⟩

/-- The body with parts that a name leads to is lowered under its reserved handle. If it is a key
type, its parts come to no record. -/
lemma Ready.resolving (h : Ready declarations (.named name []) s)
    (e : EndsAt declarations name last) (r : s.resolved.lookup last.name = none)
    (k : last.type.isStructural = true) :
    Inside declarations last.type (s.resolving last.name) := by
  obtain ⟨pending, f, p | n⟩ := h
  · have := p.not_structural (.name e)
    rw [k] at this
    cases this
  · obtain ⟨-, f'⟩ := faithful_resolving f r
    refine ⟨_, f', ?_⟩
    by_cases key : KeyType declarations (.named last.name [])
    · exact .inl (key.exists_members (.name (.own e.declared e.aliasTarget?)) k)
    · exact .inr (List.forall_mem_cons.2 ⟨key, n⟩)

section

variable (f : s.Faithful declarations pending) (n : NoKeys declarations pending)

include f n

/-- Outside of all key types, the handle of a key type denotes what it stands for. -/
lemma denotes_of_keyType (k : KeyType declarations type) (m : Means declarations type type')
    (d : s.Denotes type id) : s.Denotes type' id :=
  denotes_of_means f m (fun other mo m' => n other mo (k.of_means m m')) d

lemma eq_index_of_meansIndex (i : MeansIndex declarations type) (d : s.Denotes type id) :
    id = .string ∨ id = .number := by
  rcases i with m | m
  · cases denotes_of_keyType f n (.index (.inl m)) m d with
    | keyword => exact .inl rfl
    | parted shape => cases shape
  · cases denotes_of_keyType f n (.index (.inr m)) m d with
    | keyword => exact .inr rfl
    | parted shape => cases shape

lemma namesProperty_of_meansProperty (p : MeansProperty declarations type) (d : s.Denotes type id) :
    ∃ name, s.store.NamesProperty id name := by
  obtain ⟨value, name, m, e⟩ := p
  cases denotes_of_keyType f n (.property ⟨value, name, m, e⟩) m d with
  | literal _ found => exact ⟨name, value, found, e⟩
  | parted shape => cases shape

/-- A key type that is lowered is one in the store. -/
lemma keys_of_keyType (k : KeyType declarations key) (d : s.Denotes key id) :
    s.store.IndexKey id ∨ ∃ names, s.store.LiteralKeys id names := by
  cases k with
  | index i =>
    rcases eq_index_of_meansIndex f n i d with rfl | rfl
    · exact .inl .string
    · exact .inl .number
  | property p =>
    obtain ⟨name, p⟩ := namesProperty_of_meansProperty f n p d
    exact .inr ⟨[name], .one p⟩
  | @indexes members m all =>
    cases denotes_of_keyType f n (.indexes m all) m d with
    | parted shape parts found =>
      cases shape with
      | composite =>
        refine .inl (.union found fun id mi => ?_)
        obtain ⟨member, mm, d⟩ := exists_of_forall₂ parts.flip id mi
        exact eq_index_of_meansIndex f n (all member mm) d
  | @properties members m all =>
    cases denotes_of_keyType f n (.properties m all) m d with
    | @parted _ ids _ _ shape parts found =>
      cases shape with
      | composite =>
        -- A union of nothing is a key type of an index signature, as all of its members are.
        by_cases empty : ids = []
        · refine .inl (.union found fun id mi => ?_)
          rw [empty] at mi
          cases mi
        · have named : ∀ id ∈ ids, ∃ name, s.store.NamesProperty id name := by
            intro id mi
            obtain ⟨member, mm, d⟩ := exists_of_forall₂ parts.flip id mi
            exact namesProperty_of_meansProperty f n (all member mm) d
          obtain ⟨names, all⟩ := exists_forall₂ named
          exact .inr ⟨names, .union found empty all⟩

end

/-- The walk lowers what is accepted, but for its depth. -/
def Proceeds (declarations : List Declaration) (room : Nat) : Prop :=
  ∀ type, Admits declarations type →
    (lowerType declarations room type).StopsOnly (Ready declarations type) ForDepth

lemma Admits.fault?_eq_none (a : Admits declarations type) (k : type.isStructural = true) :
    type.fault? = none := by
  cases a with
  | parted _ fault => exact fault
  | _ => cases k

lemma Admits.part {part : TypeExpr} (a : Admits declarations type) (m : part ∈ type.parts) :
    Admits declarations part := by
  cases a with
  | parted _ _ _ parts => exact parts part m
  | _ => cases m

lemma Admits.keyType {value : TypeExpr} (a : Admits declarations (.named "Record" [key, value])) :
    KeyType declarations key := by
  cases a with
  | parted _ _ keys => exact keys key value rfl

lemma Admits.endsAt (a : Admits declarations (.named name [])) :
    ∃ last, EndsAt declarations name last := by
  cases a with
  | name e => exact ⟨_, e⟩
  | parted k => cases k

/-- A body that has no parts stands for a keyword or a literal. -/
lemma Admits.plain (a : Admits declarations type) (k : type.isStructural = false)
    (t : type.aliasTarget? declarations = none) : MeansPlain declarations type := by
  cases a with
  | keyword => exact .inl ⟨_, .own nofun⟩
  | literal => exact .inr ⟨_, .own nofun⟩
  | name e =>
    obtain ⟨_, c⟩ := e.exists_declared
    simp [TypeExpr.aliasTarget?, c] at t
  | parted k' => cases k'.symm.trans k

/-- The alias chains of accepted declarations end. -/
lemma Accepted.endsAt {declaration : Declaration} (a : Accepted declarations)
    (m : declaration ∈ declarations) : ∃ last, EndsAt declarations declaration.name last := by
  have c := declared?_eq_some a.nodup m
  cases t : declaration.type.aliasTarget? declarations with
  | none => exact ⟨declaration, .own c t⟩
  | some target =>
    have admitted := a.admits declaration m
    rw [eq_named_of_aliasTarget? t] at admitted
    obtain ⟨last, e⟩ := admitted.endsAt
    exact ⟨last, .link c t e⟩

/-- Lowering an expression leads from one state inside another expression to the next. -/
lemma Inside.of_gives {room : Nat} {part : TypeExpr} (h : Inside declarations type s)
    (g : (lowerType declarations room part).Gives s id s') : Inside declarations type s' := by
  obtain ⟨pending, f, keys⟩ := h
  exact ⟨pending, ((lowers_of_gives g).outcome f).faithful, keys⟩

/-- An accepted expression stops only as its parts do: the key type of a record is defined when the
record is put together. -/
lemma stopsOnly_lowerStructure_accepted {room : Nat} (h : Proceeds declarations room)
    (a : Admits declarations type) (k : type.isStructural = true) :
    (lowerStructure (lowerType declarations room) type).StopsOnly (Inside declarations type)
      ForDepth := by
  apply stopsOnly_lowerStructure
  · intro error e
    cases (a.fault?_eq_none k).symm.trans e
  · exact fun part m => (h part (a.part m)).weaken fun s i => i.ready m
  · exact fun part _ s id s' i g => i.of_gives g
  · intro s ids s' i g misfit
    obtain ⟨key, value, rfl, none⟩ :=
      TypeExpr.record_of_assemble?_eq_none (a.fault?_eq_none k) misfit
    -- A record is no union, so it is not inside of a key type.
    obtain ⟨pending, f, ⟨members, e, -⟩ | n⟩ := i
    · cases e
    have threads := (Walk.gives_mapM.1 g).imp fun _ _ _ _ => lowers_of_gives
    obtain ⟨-, f, all⟩ := outcome_threads (threads.imp fun _ _ _ _ h _ f => h.outcome f) f
    cases all with
    | cons d _ =>
      exact absurd none (TypeStore.recordData?_ne_none
        (TypeStore.recordKeys?_ne_none (keys_of_keyType f n a.keyType d)))

/-- An accepted name stops only as the body at the end of its chain does. -/
lemma stopsOnly_resolveAlias_accepted {room : Nat} (h : Proceeds declarations room)
    (a : ∀ declaration ∈ declarations, Admits declarations declaration.type)
    (e : EndsAt declarations name last) :
    (resolveAlias (lowerType declarations room) declarations name).StopsOnly
      (Ready declarations (.named name [])) ForDepth := by
  apply stopsOnly_resolveAlias
  · intro s _ _ other c
    have arrived : Arrives last (chainEnd declarations s.resolved name) := arrives_chainEnd e
    rw [c] at arrived
    cases arrived
  · intro s _ _ other c
    have arrived : Arrives last (chainEnd declarations s.resolved name) := arrives_chainEnd e
    rw [c] at arrived
    cases arrived
  intro chain declaration
  refine stopsOnly_lowerAliasBody
    (J := fun s => declaration ∈ declarations ∧ Inside declarations declaration.type s) ?_ ?_ ?_
  · rintro k s ⟨⟨pending, f, -⟩, -, c⟩
    have ends := endsAt_of_chainEnd c
    have admitted := a declaration (List.mem_of_find?_eq_some ends.declared)
    exact h declaration.type admitted s ⟨pending, f, .inl (admitted.plain k ends.aliasTarget?)⟩
  · intro k
    refine stopsOnly_deeper
      (J := fun s => declaration ∈ declarations ∧ Inside declarations declaration.type s) ?_ ?_
      (fun _ _ _ => .inl rfl) fun misuse => .inr ⟨misuse, rfl⟩
    · rintro s ⟨m, i⟩
      exact stopsOnly_lowerStructure_accepted h (a declaration m) k s i
    · rintro s ⟨m, pending, f, keys⟩
      exact ⟨m, pending, ⟨f.regular, f.reserved, f.stands⟩, keys⟩
  · rintro k s ⟨ready, r, c⟩
    have ends := endsAt_of_chainEnd c
    have none := (aliasChain_of_chainEnd r c).unresolved_last
    exact ⟨List.mem_of_find?_eq_some ends.declared, ready.resolving ends none k⟩

/-- Accepted expressions are lowered, but for their depth. -/
theorem proceeds (a : ∀ declaration ∈ declarations, Admits declarations declaration.type)
    (room : Nat) : Proceeds declarations room := by
  induction room with
  | zero =>
    intro type _
    exact stopsOnly_deeper (J := fun _ => True) (Walk.stopsOnly_fail (.inl rfl))
      (fun _ _ => trivial) (fun _ _ _ => .inl rfl) fun misuse => .inr ⟨misuse, rfl⟩
  | succ room ih =>
    intro type admitted
    refine stopsOnly_deeper (J := Ready declarations type) (stopsOnly_lowerExpr ?_ ?_ ?_) ?_
      (fun _ _ _ => .inl rfl) fun misuse => .inr ⟨misuse, rfl⟩
    · exact fun k => (stopsOnly_lowerStructure_accepted ih admitted k).weaken fun s i => i.inside k
    · rintro name rfl none
      obtain ⟨last, e⟩ := admitted.endsAt
      obtain ⟨_, c⟩ := e.exists_declared
      cases none.symm.trans c
    · rintro name rfl
      obtain ⟨last, e⟩ := admitted.endsAt
      exact stopsOnly_resolveAlias_accepted ih a e
    · rintro s ⟨pending, f, keys⟩
      exact ⟨pending, ⟨f.regular, f.reserved, f.stands⟩, keys⟩

/-- Accepted declarations are refused for their depth only. -/
theorem stop_of_accepted {store store' : TypeStore} {stop : WalkStop LowerError}
    (r : store.Reachable) (a : Accepted declarations)
    (h : lowerDeclarations store declarations = (.error stop, store')) :
    stop = .failed .depthLimitExceeded := by
  have all : (lowerAll declarations).StopsOnly (fun s => s.Faithful declarations []) ForDepth := by
    refine stopsOnly_lowerAll (fun declaration m => ?_) fun declaration _ s id s' f g => ?_
    · obtain ⟨last, e⟩ := a.endsAt m
      refine (stopsOnly_resolveAlias_accepted (proceeds a.admits maxRoom) a.admits e).weaken ?_
      exact fun s f => ⟨[], f, .inr fun _ m => absurd m List.not_mem_nil⟩
    · exact ((lowers_of_gives_name g).outcome f).faithful
  rw [lowerDeclarations_of_nodup a.nodup] at h
  have e : ((lowerAll declarations).run (start store)).1 = .error stop := (Prod.mk.inj h).1
  obtain ⟨reason, rfl⟩ := (kept_depth.lowerAll declarations (start store)).2 stop e
  rcases all (start store) (faithful_start r) _ _ (Prod.ext e rfl) with e | ⟨misuse, e⟩
  · exact e
  · cases e

/-- Declarations that do not lie too deep are lowered if and only if they are accepted. -/
theorem exists_lowerDeclarations_iff {store : TypeStore} (r : store.Reachable)
    (n : (lowerDeclarations store declarations).1 ≠ .error (.failed .depthLimitExceeded)) :
    (∃ ids, (lowerDeclarations store declarations).1 = .ok ids) ↔ Accepted declarations := by
  constructor
  · rintro ⟨ids, e⟩
    exact accepted_of_lowerDeclarations r (Prod.ext e rfl)
  · intro a
    cases e : (lowerDeclarations store declarations).1 with
    | ok ids => exact ⟨ids, rfl⟩
    | error stop =>
      rw [e, stop_of_accepted r a (Prod.ext e rfl)] at n
      exact absurd rfl n

end Lowering

end TypeSchema
