import TypeSchema.Lowering.Walk
import TypeSchema.Proofs.Lowering.Store
import TypeSchema.Proofs.Walk

/-!
# Parts of a lowered expression

An expression that has parts is laid out from the handles of these, and gets a handle of its own
once they are lowered. A name is lowered by lowering the body of its alias, once. A handle that
stands for `string`, `number` or a union of them is the key type of a record, and stays one when the
store grows.
-/

namespace TypeSchema

/-! ## Key types of records -/

namespace TypeStore

variable {store store' : TypeStore} {id : TypeId} {ids : List TypeId}

lemma recordKeys?_of_isIndexKey (h : isIndexKey id = true) :
    store.recordKeys? id = some .index := by
  simp [recordKeys?, h]

/-- A union of index keys is one itself. -/
lemma recordKeys?_of_union (h : store.lookup id = some (.composite .union ids))
    (all : ∀ id ∈ ids, isIndexKey id = true) : store.recordKeys? id = some .index := by
  unfold recordKeys?
  split
  case isTrue => rfl
  case isFalse =>
    rw [h]
    exact if_pos (List.all_eq_true.2 all)

/-- What is an index key once is one always. -/
lemma recordKeys?_of_keeps (k : store.Keeps store') (h : store.recordKeys? id = some .index) :
    store'.recordKeys? id = some .index := by
  by_cases i : isIndexKey id = true
  · exact recordKeys?_of_isIndexKey i
  unfold recordKeys? at h
  rw [if_neg i] at h
  cases e : store.lookup id with
  | none => simp [e] at h
  | some data =>
    rw [e] at h
    cases data with
    | literal value => simp at h
    | composite connective members =>
      cases connective with
      | intersection => cases h
      | union =>
        dsimp only at h
        split at h
        case isTrue all =>
          exact recordKeys?_of_union (k.lookup id _ e nofun) (List.all_eq_true.1 all)
        case isFalse => simp at h
    | _ => cases h

end TypeStore

/-! ## Parts -/

namespace TypeExpr

/-- The parts of an expression. -/
def parts : TypeExpr → List TypeExpr
  | keyword _ | literal _ => []
  | object members => members.map (·.type)
  | composite _ members => members
  | array element => [element]
  | tuple members => members.map (·.type)
  | named _ arguments => arguments
  | function parameters returns => parameters.map (·.type) ++ [returns]

/-- What an expression stands for when its parts have the given handles; a name with arguments is a
record. -/
def layout : TypeExpr → List TypeId → TypeData
  | object members, ids =>
    .object (members.zipWith (fun member id =>
      ⟨member.name, id, member.isOptional, false, member.documentation⟩) ids) []
  | composite connective _, ids => .composite connective ids
  | array _, ids => .array (ids.headD default)
  | tuple members, ids =>
    .tuple (members.zipWith (fun member id => ⟨id, member.isOptional, false⟩) ids)
  | named _ _, ids => .object [] [{ key := ids.headD default, value := ids.tail.headD default }]
  | function parameters _, ids =>
    .callable [⟨parameters.zipWith (fun parameter id =>
      ⟨some parameter.name, id, parameter.isOptional, false⟩) ids, ids.getLastD default⟩]
  | keyword _, _ | literal _, _ => .pending

/-- The handles of the parts can be put together: those of a record's name have a key. -/
def Fits (store : TypeStore) : TypeExpr → List TypeId → Prop
  | named name arguments, ids =>
    name = "Record" ∧ arguments.length = 2 ∧ store.recordKeys? (ids.headD default) = some .index
  | _, _ => True

end TypeExpr

/-! ## Names -/

/-- The declaration of a name is the one that has this name. -/
lemma declared?_eq_some {declarations : List Declaration} {declaration : Declaration}
    (n : (declarations.map (·.name)).Nodup)
    (m : declaration ∈ declarations) :
    declared? declarations declaration.name = some declaration := by
  unfold declared?
  induction declarations with
  | nil => cases m
  | cons first rest ih =>
    rw [List.map_cons, List.nodup_cons] at n
    cases m with
    | head => simp
    | tail _ m =>
      have ne : first.name ≠ declaration.name := fun e =>
        n.1 (e ▸ List.mem_map_of_mem m)
      rw [List.find?_cons_of_neg (by simpa using ne)]
      exact ih n.2 m

/-! ## Levels -/

/-- The state one level deeper. -/
def LowerState.down (s : LowerState) : LowerState :=
  { s with depth := { s.depth with depth := s.depth.depth + 1 } }

/-- The state in which the body of an alias is lowered: its handle is reserved and resolved. -/
def LowerState.resolving (s : LowerState) (name : String) : LowerState :=
  { s with
    store := s.store.reserveNamed name
    resolved := (name, s.store.nextId) :: s.resolved }

namespace LowerState

variable {s s' s'' : LowerState}

/-- A lowering takes nothing back, and ends at the depth it started at. -/
structure Leads (s s' : LowerState) : Prop where
  grows : s.store.Grows s'.store
  depth : s'.depth = s.depth
  resolved : ∀ name id, s.resolved.lookup name = some id → s'.resolved.lookup name = some id

lemma Leads.refl (s : LowerState) : s.Leads s := ⟨.refl _, rfl, fun _ _ h => h⟩

lemma Leads.trans (h : s.Leads s') (h' : s'.Leads s'') : s.Leads s'' where
  grows := h.grows.trans h'.grows
  depth := h'.depth.trans h.depth
  resolved name id e := h'.resolved name id (h.resolved name id e)

end LowerState

namespace Lowering

variable {lowerPart : TypeExpr → LowerWalk TypeId} {s s' : LowerState} {ids : List TypeId}
  {type : TypeExpr} {declarations : List Declaration} {name : String} {id : TypeId}
  {data : TypeData} {declaration : Declaration}

/-- A walk one level deeper is the walk there, and leaves the level it ends on. -/
lemma run_deeper {α : Type} {walk : LowerWalk α} :
    (LowerWalk.deeper walk).run s =
      if s.depth.maxDepth.toNat ≤ s.depth.depth then (.error (.failed .depthLimitExceeded), s)
      else
        match (walk.run s.down).2.depth.leave with
        | .ok depth => ((walk.run s.down).1, { (walk.run s.down).2 with depth })
        | .error misuse => (.error (.misused misuse), (walk.run s.down).2) := by
  unfold LowerWalk.deeper Walk.run DepthCounter.enter?
  dsimp only
  split
  case h_1 e =>
    split at e
    case isTrue l => rw [if_pos l]
    case isFalse => cases e
  case h_2 e =>
    split at e
    case isTrue => cases e
    case isFalse l =>
      rw [if_neg l]
      cases e
      rfl

/-- A walk goes one level deeper where the limit is not reached. -/
lemma gives_deeper {α : Type} {walk : LowerWalk α} {a : α}
    (l : s.depth.depth < s.depth.maxDepth.toNat) (h : walk.Gives s.down a s')
    (d : s'.depth = s.down.depth) :
    (LowerWalk.deeper walk).Gives s a { s' with depth := s.depth } := by
  have leave : s'.depth.leave = .ok s.depth := by
    rw [d]
    rfl
  have h : walk.run s.down = (.ok a, s') := h
  unfold Walk.Gives
  rw [run_deeper, if_neg (Nat.not_le_of_lt l), h]
  dsimp only
  rw [leave]

/-! ## Handles of expressions -/

/-- An expression that has parts gets a new handle, once these are lowered. -/
lemma lowerExpr_of_structural (k : type.isStructural = true) :
    lowerExpr lowerPart declarations type = (do
      let data ← lowerStructure lowerPart type
      let id ← LowerWalk.onStore (·.reserve)
      let _ ← LowerWalk.onStore (·.define id data)
      return id) := by
  cases type with
  | keyword => cases k
  | literal => cases k
  | named name arguments =>
    cases arguments with
    | nil => cases k
    | cons => rfl
  | _ => rfl

lemma gives_lowerExpr_of_structural (k : type.isStructural = true)
    (h : (lowerStructure lowerPart type).Gives s data s') :
    (lowerExpr lowerPart declarations type).Gives s s'.store.nextId
      { s' with store := s'.store.place data } := by
  rw [lowerExpr_of_structural k]
  exact Walk.gives_bind.2 ⟨data, s', h, rfl⟩

/-- A name that is resolved has its handle. -/
lemma gives_resolveAlias_of_resolved (r : s.resolved.lookup name = some id) :
    (resolveAlias lowerPart declarations name).Gives s id s := by
  refine Walk.gives_bind.2 ⟨s, s, rfl, ?_⟩
  dsimp only
  rw [r]
  rfl

/-- A declared name has the handle of its alias. -/
lemma gives_lowerExpr_of_declared (c : declared? declarations name = some declaration)
    (h : (resolveAlias lowerPart declarations name).Gives s id s') :
    (lowerExpr lowerPart declarations (.named name [])).Gives s id s' := by
  unfold lowerExpr
  dsimp only
  rw [c]
  exact h

/-- A declaration whose body is no name ends its own alias chain. -/
lemma chainEnd_eq_body {resolved : List (String × TypeId)}
    (c : declared? declarations name = some declaration) (e : declaration.name = name)
    (b : declaration.type.aliasTarget? declarations = none) :
    chainEnd declarations resolved name = .body [name] declaration := by
  unfold chainEnd followChain
  rw [c]
  simp [b, e]

lemma aliasTarget?_of_structural (k : type.isStructural = true) :
    type.aliasTarget? declarations = none := by
  cases type with
  | named name arguments =>
    cases arguments with
    | nil => cases k
    | cons => rfl
  | _ => rfl

/-- An alias that is no name of another has the handle of its body. -/
lemma gives_resolveAlias_of_body (r : s.resolved.lookup name = none)
    (c : declared? declarations name = some declaration) (e : declaration.name = name)
    (b : declaration.type.aliasTarget? declarations = none)
    (h : (lowerAliasBody lowerPart declaration).Gives s id s') :
    (resolveAlias lowerPart declarations name).Gives s id
      { s' with resolved := (name, id) :: s'.resolved } := by
  refine Walk.gives_bind.2 ⟨s, s, rfl, ?_⟩
  dsimp only
  rw [r, chainEnd_eq_body c e b]
  exact Walk.gives_bind.2 ⟨id, s', h, rfl⟩

/-- A body that has parts gets a handle before these are lowered. -/
lemma gives_lowerAliasBody_of_structural (k : declaration.type.isStructural = true)
    (l : s.depth.depth < s.depth.maxDepth.toNat)
    (h : (lowerStructure lowerPart declaration.type).Gives (s.resolving declaration.name).down
      data s')
    (d : s'.depth = s.down.depth) :
    (lowerAliasBody lowerPart declaration).Gives s s.store.nextId
      { store := (s'.store.define s.store.nextId data).2
        resolved := s'.resolved
        depth := s.depth } := by
  unfold lowerAliasBody
  rw [if_pos k]
  have deep : (LowerWalk.deeper (lowerStructure lowerPart declaration.type)).Gives
      (s.resolving declaration.name) data { s' with depth := s.depth } := gives_deeper l h d
  exact Walk.gives_bind.2 ⟨_, _, rfl, Walk.gives_bind.2 ⟨_, _, rfl, Walk.gives_bind.2 ⟨_, _, rfl,
    Walk.gives_bind.2 ⟨_, _, deep, rfl⟩⟩⟩⟩

/-- A body that has no parts is lowered as it is. -/
lemma gives_lowerAliasBody_of_leaf (k : declaration.type.isStructural = false)
    (h : (lowerPart declaration.type).Gives s id s') :
    (lowerAliasBody lowerPart declaration).Gives s id
      { s' with resolved := (declaration.name, id) :: s'.resolved } := by
  unfold lowerAliasBody
  rw [if_neg (by simp [k])]
  exact Walk.gives_bind.2 ⟨_, _, h, rfl⟩

/-! ## Declarations one after the other -/

/-- Declarations of different names are not refused. -/
lemma checkNames_eq_ok : checkNames declarations = .ok () ↔ (declarations.map (·.name)).Nodup := by
  unfold checkNames
  constructor
  · intro e
    split at e
    case h_1 => cases e
    case h_2 none => exact (firstRepeated?_eq_none.1 none).1
  · intro n
    rw [firstRepeated?_eq_none.2 ⟨n, fun _ _ m => absurd m List.not_mem_nil⟩]

/-- Resolved declarations are passed over. -/
lemma gives_forM_of_resolved {others : List Declaration}
    (r : ∀ declaration ∈ others, ∃ id, s.resolved.lookup declaration.name = some id) :
    (others.forM fun declaration => do
      let _ ← resolveAlias lowerPart declarations declaration.name
      pure () : LowerWalk Unit).Gives s () s := by
  induction others with
  | nil => rfl
  | cons first others ih =>
    obtain ⟨id, e⟩ := r first List.mem_cons_self
    exact Walk.gives_bind.2 ⟨(), s,
      Walk.gives_bind.2 ⟨id, s, gives_resolveAlias_of_resolved e, rfl⟩,
      ih fun declaration m => r declaration (List.mem_cons_of_mem _ m)⟩

/-- Declarations are lowered if the first one is and the others are resolved on the way. -/
theorem lowerDeclarations_of_gives {store : TypeStore} {first : Declaration}
    {rest : List Declaration} (n : ((first :: rest).map (·.name)).Nodup)
    (h : (resolveAlias (lowerRoot (first :: rest)) (first :: rest) first.name).Gives (start store)
      id s)
    (d : s.depth = (start store).depth) (r : s.resolved.lookup first.name = some id)
    (all : ∀ declaration ∈ rest, ∃ id, s.resolved.lookup declaration.name = some id) :
    ∃ ids, lowerDeclarations store (first :: rest) = (.ok ids, s.store) ∧
      ids.lookup first.name = some id := by
  let handles := (first :: rest).filterMap fun declaration =>
    (s.resolved.lookup declaration.name).map fun id => (declaration.name, id)
  have e : handles.lookup first.name = some id := by
    simp [handles, r]
  refine ⟨handles, ?_, e⟩
  have g : (lowerAll (first :: rest)).Gives (start store) handles s :=
    Walk.gives_bind.2 ⟨(), s, Walk.gives_bind.2 ⟨(), s, Walk.gives_bind.2 ⟨id, s, h, rfl⟩,
      gives_forM_of_resolved all⟩, rfl⟩
  have close : s.depth.close = .ok () := by
    rw [d]
    rfl
  unfold Walk.Gives at g
  unfold lowerDeclarations
  rw [checkNames_eq_ok.2 n]
  dsimp only
  rw [g]
  unfold finish
  simp only [close]

end Lowering

end TypeSchema
