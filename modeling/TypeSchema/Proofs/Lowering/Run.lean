import TypeSchema.Proofs.Lowering.Inversion
import TypeSchema.Proofs.Lowering.Kept

/-!
# Runs of a lowering

`Lowers` says what the lowering of an expression that succeeds does: it takes the handle of a
keyword, a literal or a resolved name, follows an alias chain to a resolved alias or to a body,
which it lowers, or lowers the parts of the expression and puts their handles together. The levels
that are entered and left on the way are left out. Facts about lowerings are proved by induction on
it.
-/

namespace TypeSchema

/-- The state after all names of a chain are resolved to one handle. -/
def LowerState.withChain (s : LowerState) (chain : List String) (id : TypeId) : LowerState :=
  { s with resolved := chain.map (fun name => (name, id)) ++ s.resolved }

namespace Lowering

/-- The lowering of an expression from one state gives a handle and leaves another state. -/
inductive Lowers (declarations : List Declaration) :
    TypeExpr → LowerState → TypeId → LowerState → Prop
  | keyword {word : Keyword} {s : LowerState} :
    Lowers declarations (.keyword word) s word.typeId s
  | literal {value : Literal} {s : LowerState} :
    Lowers declarations (.literal value) s (s.store.literal value).1
      { s with store := (s.store.literal value).2 }
  | known {name : String} {s : LowerState} {id : TypeId} :
    s.resolved.lookup name = some id →
    Lowers declarations (.named name []) s id s
  | linked {name : String} {s : LowerState} {chain : List String} {id : TypeId} :
    s.resolved.lookup name = none →
    chainEnd declarations s.resolved name = .resolved chain id →
    Lowers declarations (.named name []) s id (s.withChain chain id)
  /-- The body at the end of the chain has no parts. -/
  | plain {name : String} {s : LowerState} {chain : List String} {declaration : Declaration}
      {id : TypeId} {t : LowerState} :
    s.resolved.lookup name = none →
    chainEnd declarations s.resolved name = .body chain declaration →
    declaration.type.isStructural = false →
    Lowers declarations declaration.type s id t →
    Lowers declarations (.named name []) s id
      ((t.withChain [declaration.name] id).withChain chain id)
  /-- The body at the end of the chain has parts, which are lowered under its handle. -/
  | body {name : String} {s : LowerState} {chain : List String} {declaration : Declaration}
      {ids : List TypeId} {t : LowerState} {data : TypeData} :
    s.resolved.lookup name = none →
    chainEnd declarations s.resolved name = .body chain declaration →
    declaration.type.isStructural = true →
    Walk.Threads (Lowers declarations) declaration.type.parts (s.resolving declaration.name) ids t →
    t.store.HasShape declaration.type ids data →
    Lowers declarations (.named name []) s s.store.nextId
      ({ t with store := (t.store.define s.store.nextId data).2 }.withChain chain s.store.nextId)
  | parted {type : TypeExpr} {s : LowerState} {ids : List TypeId} {t : LowerState}
      {data : TypeData} :
    type.isStructural = true →
    Walk.Threads (Lowers declarations) type.parts s ids t →
    t.store.HasShape type ids data →
    Lowers declarations type s t.store.nextId { t with store := t.store.place data }

variable {declarations : List Declaration} {lowerPart : TypeExpr → LowerWalk TypeId}
  {type : TypeExpr} {s s' : LowerState} {id : TypeId} {name : String}

/-- Induction on a lowering: what holds of the lowerings of the parts holds of the lowering. -/
@[elab_as_elim]
theorem Lowers.induct
    {motive : ∀ type s id s', Lowers declarations type s id s' → Prop}
    (keyword : ∀ {word : Keyword} {s : LowerState},
      motive (.keyword word) s word.typeId s .keyword)
    (literal : ∀ {value : Literal} {s : LowerState},
      motive (.literal value) s (s.store.literal value).1
        { s with store := (s.store.literal value).2 } .literal)
    (known : ∀ {name : String} {s : LowerState} {id : TypeId}
      (r : s.resolved.lookup name = some id), motive (.named name []) s id s (.known r))
    (linked : ∀ {name : String} {s : LowerState} {chain : List String} {id : TypeId}
      (r : s.resolved.lookup name = none)
      (e : chainEnd declarations s.resolved name = .resolved chain id),
      motive (.named name []) s id (s.withChain chain id) (.linked r e))
    (plain : ∀ {name : String} {s : LowerState} {chain : List String} {declaration : Declaration}
      {id : TypeId} {t : LowerState} (r : s.resolved.lookup name = none)
      (e : chainEnd declarations s.resolved name = .body chain declaration)
      (k : declaration.type.isStructural = false)
      (h : Lowers declarations declaration.type s id t) (_ih : motive declaration.type s id t h),
      motive (.named name []) s id ((t.withChain [declaration.name] id).withChain chain id)
        (.plain r e k h))
    (body : ∀ {name : String} {s : LowerState} {chain : List String} {declaration : Declaration}
      {ids : List TypeId} {t : LowerState} {data : TypeData} (r : s.resolved.lookup name = none)
      (e : chainEnd declarations s.resolved name = .body chain declaration)
      (k : declaration.type.isStructural = true)
      (all : Walk.Threads (Lowers declarations) declaration.type.parts
        (s.resolving declaration.name) ids t)
      (shape : t.store.HasShape declaration.type ids data)
      (_ih : Walk.Threads (fun type s id s' => ∃ h, motive type s id s' h) declaration.type.parts
        (s.resolving declaration.name) ids t),
      motive (.named name []) s s.store.nextId
        ({ t with store := (t.store.define s.store.nextId data).2 }.withChain chain s.store.nextId)
        (.body r e k all shape))
    (parted : ∀ {type : TypeExpr} {s : LowerState} {ids : List TypeId} {t : LowerState}
      {data : TypeData} (k : type.isStructural = true)
      (all : Walk.Threads (Lowers declarations) type.parts s ids t)
      (shape : t.store.HasShape type ids data)
      (_ih : Walk.Threads (fun type s id s' => ∃ h, motive type s id s' h) type.parts s ids t),
      motive type s t.store.nextId { t with store := t.store.place data } (.parted k all shape))
    {type : TypeExpr} {s : LowerState} {id : TypeId} {s' : LowerState}
    (h : Lowers declarations type s id s') : motive type s id s' h := by
  refine @Lowers.rec declarations motive
    (fun types s ids s' _ => Walk.Threads (fun type s id s' => ∃ h, motive type s id s' h)
      types s ids s')
    keyword literal known linked ?_ ?_ ?_ .nil ?_ type s id s' h
  · intro name s chain declaration id t r e k h ih
    exact plain r e k h ih
  · intro name s chain declaration ids t data r e k all shape ih
    exact body r e k all shape ih
  · intro type s ids t data k all shape ih
    exact parted k all shape ih
  · intro type s id s' types ids s'' h _ m all
    exact .cons ⟨h, m⟩ all

/-! ## Successful lowerings -/

/-- Whatever the walk gives for an expression it lowers, on whatever level. -/
def Runs (declarations : List Declaration) (lowerPart : TypeExpr → LowerWalk TypeId) : Prop :=
  ∀ type s id s', (lowerPart type).Gives s id s' →
    ∀ depth, Lowers declarations type { s with depth } id { s' with depth }

lemma threads_of_gives_mapM (h : Runs declarations lowerPart) {types : List TypeExpr}
    {ids : List TypeId} (g : (types.mapM lowerPart).Gives s ids s') (depth : DepthCounter) :
    Walk.Threads (Lowers declarations) types { s with depth } ids { s' with depth } := by
  induction types generalizing s ids with
  | nil =>
    obtain ⟨rfl, rfl⟩ := Walk.gives_mapM_nil.1 g
    exact .nil
  | cons type types ih =>
    obtain ⟨id, ids, s1, first, rest, rfl⟩ := Walk.gives_mapM_cons.1 g
    exact .cons (h type s id s1 first depth) (ih rest)

/-- The alias of a name is lowered as its chain says. -/
lemma lowers_of_gives_resolveAlias (h : Runs declarations lowerPart)
    (g : (resolveAlias lowerPart declarations name).Gives s id s') (depth : DepthCounter) :
    Lowers declarations (.named name []) { s with depth } id { s' with depth } := by
  obtain ⟨_, _, state, g⟩ := Walk.gives_bind.1 g
  obtain ⟨rfl, rfl⟩ := Walk.gives_get.1 state
  dsimp only at g
  cases r : s.resolved.lookup name with
  | some known =>
    rw [r] at g
    obtain ⟨rfl, rfl⟩ := Walk.gives_pure.1 g
    exact .known r
  | none =>
    rw [r] at g
    cases e : chainEnd declarations s.resolved name with
    | undeclared =>
      rw [e] at g
      exact absurd g Walk.not_gives_fail
    | cycle =>
      rw [e] at g
      exact absurd g Walk.not_gives_fail
    | resolved chain known =>
      rw [e] at g
      cases g
      exact .linked r e
    | body chain declaration =>
      rw [e] at g
      obtain ⟨_, t, body, g⟩ := Walk.gives_bind.1 g
      cases g
      cases k : declaration.type.isStructural with
      | true =>
        obtain ⟨rfl, data, t, deep, rfl⟩ := of_gives_lowerAliasBody k body
        obtain ⟨t, _, inside, -, rfl⟩ := of_gives_deeper deep
        obtain ⟨ids, parts, shape⟩ := parts_of_gives_lowerStructure inside
        exact .body (t := { t with depth }) r e k (threads_of_gives_mapM h parts depth) shape
      | false =>
        unfold lowerAliasBody at body
        rw [if_neg (by simp [k])] at body
        obtain ⟨_, t, lowered, body⟩ := Walk.gives_bind.1 body
        cases body
        exact .plain (t := { t with depth }) r e k (h _ _ _ _ lowered depth)

/-- A lowering that gives a handle runs as `Lowers` says. -/
theorem runs_lowerType (room : Nat) : Runs declarations (lowerType declarations room) := by
  induction room with
  | zero =>
    intro type s id s' g
    obtain ⟨t, _, inside, -⟩ := of_gives_deeper g
    exact absurd inside Walk.not_gives_fail
  | succ room ih =>
    intro type s id s' g depth
    obtain ⟨t, _, inside, -, rfl⟩ := of_gives_deeper g
    have structural : type.isStructural = true →
        Lowers declarations type { s with depth } id { t with depth } := by
      intro k
      obtain ⟨data, u, lowered, rfl, rfl⟩ := of_gives_lowerExpr k inside
      obtain ⟨ids, parts, shape⟩ := parts_of_gives_lowerStructure lowered
      exact .parted (t := { u with depth }) k (threads_of_gives_mapM ih parts depth) shape
    cases type with
    | keyword =>
      obtain ⟨rfl, rfl⟩ := Walk.gives_pure.1 inside
      exact .keyword
    | literal value =>
      cases inside
      exact .literal
    | named name arguments =>
      cases arguments with
      | cons => exact structural rfl
      | nil =>
        unfold lowerExpr at inside
        dsimp only at inside
        split at inside
        case h_1 => exact lowers_of_gives_resolveAlias ih inside depth
        case h_2 => exact absurd inside Walk.not_gives_fail
    | _ => exact structural rfl

/-- What is lowered on whatever level is lowered on the one that it starts and ends on. -/
lemma lowers_of_level {walk : LowerWalk TypeId} {Q : WalkStop LowerError → Prop}
    (b : walk.Behaves (fun s s' => s'.depth = s.depth) Q) (g : walk.Gives s id s')
    (h : ∀ depth, Lowers declarations type { s with depth } id { s' with depth }) :
    Lowers declarations type s id s' := by
  have e : s'.depth = s.depth := b.of_gives g
  have same : { s' with depth := s.depth } = s' := by rw [← e]
  have lowers := h s.depth
  rwa [same] at lowers

/-- An expression is lowered on the level that it starts on. -/
theorem lowers_of_gives {room : Nat} (g : (lowerType declarations room type).Gives s id s') :
    Lowers declarations type s id s' :=
  lowers_of_level (kept_depth.lowerType room type) g (runs_lowerType room type s id s' g)

/-- So is a name. -/
lemma lowers_of_gives_name {room : Nat}
    (g : (resolveAlias (lowerType declarations room) declarations name).Gives s id s') :
    Lowers declarations (.named name []) s id s' :=
  lowers_of_level (kept_depth.resolveAlias (kept_depth.lowerType room) name) g
    (lowers_of_gives_resolveAlias (runs_lowerType room) g)

/-- Names are lowered one after the other. -/
lemma threads_of_gives_forM {others : List Declaration}
    (g : (others.forM fun declaration => do
      let _ ← resolveAlias (lowerRoot declarations) declarations declaration.name
      pure () : LowerWalk Unit).Gives s () s') :
    ∃ ids, Walk.Threads (Lowers declarations) (others.map (.named ·.name [])) s ids s' := by
  induction others generalizing s with
  | nil =>
    cases g
    exact ⟨[], .nil⟩
  | cons first others ih =>
    obtain ⟨_, t, g, rest⟩ := Walk.gives_bind.1 g
    obtain ⟨id, t, lowered, g⟩ := Walk.gives_bind.1 g
    cases g
    obtain ⟨ids, all⟩ := ih rest
    exact ⟨id :: ids, .cons (lowers_of_gives_name lowered) all⟩

end Lowering

end TypeSchema
