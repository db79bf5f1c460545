import TypeSchema.Proofs.Lowering.Structure

/-!
# What every lowering keeps

A lowering changes its state by the operations of a store, by resolving names and by going down a
level and up again, whether it succeeds or stops. So what these steps keep, every lowering keeps.
Only handles that it has reserved itself are named or defined, so that a store grows.
The depth is one such thing: a lowering ends on the level that it starts on, and never leaves one
that it has not entered.
-/

namespace TypeSchema.Lowering

/-- A relation of states that every step of a lowering keeps, and a kind of stops that it may end
in. -/
structure Kept (E : LowerState → LowerState → Prop) (Q : WalkStop LowerError → Prop) : Prop where
  refl : ∀ s, E s s
  trans : ∀ s t u, E s t → E t u → E s u
  alloc : ∀ s data, E s { s with store := (s.store.alloc data).2 }
  literal : ∀ s value, E s { s with store := (s.store.literal value).2 }
  /-- A handle that was reserved on the way is defined. -/
  define : ∀ s t id data, s.store.types.size ≤ id.index → E s t →
    E s { t with store := (t.store.define id data).2 }
  /-- So it is named. -/
  setAliasName : ∀ s t id name, s.store.types.size ≤ id.index → E s t →
    E s { t with store := t.store.setAliasName id name }
  resolve : ∀ s entries, E s { s with resolved := entries ++ s.resolved }
  /-- The level that is entered is left again. -/
  up : ∀ s t depth, E s.down t → t.depth.leave = .ok depth → E s { t with depth }
  /-- It may be that it cannot be left. -/
  misused : ∀ s t misuse, E s.down t → t.depth.leave = .error misuse → E s t ∧ Q (.misused misuse)
  failed : ∀ reason, Q (.failed reason)

section

variable {E : LowerState → LowerState → Prop} {Q : WalkStop LowerError → Prop}
  {lowerPart : TypeExpr → LowerWalk TypeId} {declarations : List Declaration}

/-- A body with parts is lowered under a handle that is reserved, named and resolved before. -/
lemma run_lowerAliasBody {declaration : Declaration} {s : LowerState}
    (structural : declaration.type.isStructural = true) :
    (Lowering.lowerAliasBody lowerPart declaration).run s = (do
      let data ← LowerWalk.deeper (Lowering.lowerStructure lowerPart declaration.type)
      let _ ← LowerWalk.onStore (·.define s.store.nextId data)
      return s.store.nextId : LowerWalk TypeId).run (s.resolving declaration.name) := by
  unfold Lowering.lowerAliasBody
  rw [if_pos structural]
  rfl

namespace Kept

lemma deeper (k : Kept E Q) {α : Type} {walk : LowerWalk α} (h : walk.Behaves E Q) :
    (LowerWalk.deeper walk).Behaves E Q := by
  intro s
  rw [run_deeper]
  obtain ⟨inside, stops⟩ := h s.down
  split
  case isTrue =>
    exact ⟨k.refl s, fun stop e => by cases e; exact k.failed _⟩
  case isFalse =>
    cases e : (walk.run s.down).2.depth.leave with
    | ok depth => exact ⟨k.up s _ depth inside e, stops⟩
    | error misuse =>
      obtain ⟨kept, q⟩ := k.misused s _ misuse inside e
      exact ⟨kept, fun stop e => by cases e; exact q⟩

lemma onStore {α : Type} {operation : TypeStore → α × TypeStore}
    (h : ∀ s : LowerState, E s { s with store := (operation s.store).2 }) :
    (LowerWalk.onStore operation).Behaves E Q :=
  fun s => ⟨h s, fun _ e => by cases e⟩

/-- Putting handles together changes nothing. -/
lemma assemble (k : Kept E Q) {type : TypeExpr} {ids : List TypeId} :
    (Lowering.assemble type ids).Behaves E Q := by
  refine (Walk.behaves_get k.refl).bind k.trans fun s => ?_
  split
  · exact Walk.behaves_pure k.refl
  · exact Walk.behaves_fail k.refl (k.failed _)

lemma lowerStructure (k : Kept E Q) (h : ∀ type, (lowerPart type).Behaves E Q) (type : TypeExpr) :
    (Lowering.lowerStructure lowerPart type).Behaves E Q := by
  rw [lowerStructure_eq]
  split
  · exact Walk.behaves_fail k.refl (k.failed _)
  · exact (Walk.Behaves.mapM k.refl k.trans h).bind k.trans fun ids => k.assemble

/-- A handle that is reserved and defined at once. -/
lemma place (k : Kept E Q) (data : TypeData) : (do
    let id ← LowerWalk.onStore (·.reserve)
    let _ ← LowerWalk.onStore (·.define id data)
    return id : LowerWalk TypeId).Behaves E Q := fun s =>
  ⟨k.define s _ s.store.nextId data (Nat.le_refl _) (k.alloc s .pending), fun _ e => by cases e⟩

/-- A handle that is reserved and named, and that its name is resolved to. -/
lemma resolving (k : Kept E Q) (s : LowerState) (name : String) : E s (s.resolving name) := by
  have named := k.setAliasName s _ s.store.nextId name (Nat.le_refl _) (k.alloc s .pending)
  exact k.trans _ _ _ named (k.resolve _ [(name, s.store.nextId)])

lemma lowerAliasBody (k : Kept E Q) (h : ∀ type, (lowerPart type).Behaves E Q)
    (declaration : Declaration) : (Lowering.lowerAliasBody lowerPart declaration).Behaves E Q := by
  cases structural : declaration.type.isStructural with
  | true =>
    intro s
    rw [run_lowerAliasBody structural, Walk.run_bind]
    obtain ⟨inside, stops⟩ := k.deeper (k.lowerStructure h declaration.type)
      (s.resolving declaration.name)
    have first := k.trans _ _ _ (k.resolving s declaration.name) inside
    cases e : (LowerWalk.deeper (Lowering.lowerStructure lowerPart declaration.type)).run
        (s.resolving declaration.name) with
    | mk result t =>
      rw [e] at first stops
      cases result with
      | error stop => exact ⟨first, fun _ e => by cases e; exact stops stop rfl⟩
      | ok data =>
        -- The handle that is defined was reserved on the way.
        exact ⟨k.define s t s.store.nextId data (Nat.le_refl _) first, fun _ e => by cases e⟩
  | false =>
    unfold Lowering.lowerAliasBody
    rw [if_neg (by simp [structural])]
    apply (h declaration.type).bind k.trans
    intro id
    exact (Walk.behaves_modify fun s => k.resolve s [(declaration.name, id)]).bind k.trans
      fun _ => Walk.behaves_pure k.refl

lemma finishChain (k : Kept E Q) (chain : List String) (id : TypeId) :
    (Lowering.finishChain chain id).Behaves E Q :=
  (Walk.behaves_modify fun s => k.resolve s _).bind k.trans fun _ => Walk.behaves_pure k.refl

lemma resolveAlias (k : Kept E Q) (h : ∀ type, (lowerPart type).Behaves E Q) (name : String) :
    (Lowering.resolveAlias lowerPart declarations name).Behaves E Q := by
  refine (Walk.behaves_get k.refl).bind k.trans fun s => ?_
  dsimp only
  split
  case h_1 => exact Walk.behaves_pure k.refl
  case h_2 =>
    cases chainEnd declarations s.resolved name with
    | undeclared => exact Walk.behaves_fail k.refl (k.failed _)
    | cycle => exact Walk.behaves_fail k.refl (k.failed _)
    | resolved chain id => exact k.finishChain chain id
    | body chain declaration =>
      exact (k.lowerAliasBody h declaration).bind k.trans fun id => k.finishChain chain id

lemma lowerExpr (k : Kept E Q) (h : ∀ type, (lowerPart type).Behaves E Q) (type : TypeExpr) :
    (Lowering.lowerExpr lowerPart declarations type).Behaves E Q := by
  cases type with
  | keyword => exact Walk.behaves_pure k.refl
  | literal value => exact onStore fun s => k.literal s value
  | named name arguments =>
    cases arguments with
    | cons => exact (k.lowerStructure h _).bind k.trans k.place
    | nil =>
      unfold Lowering.lowerExpr
      dsimp only
      split
      case h_1 => exact k.resolveAlias h name
      case h_2 => exact Walk.behaves_fail k.refl (k.failed _)
  | _ => exact (k.lowerStructure h _).bind k.trans k.place

/-- Every lowering keeps what its steps keep. -/
theorem lowerType (k : Kept E Q) (room : Nat) (type : TypeExpr) :
    (Lowering.lowerType declarations room type).Behaves E Q := by
  induction room generalizing type with
  | zero => exact k.deeper (Walk.behaves_fail k.refl (k.failed _))
  | succ room ih => exact k.deeper (k.lowerExpr ih type)

lemma lowerAll (k : Kept E Q) (declarations : List Declaration) :
    (Lowering.lowerAll declarations).Behaves E Q := by
  have each : (declarations.forM fun declaration => do
      let _ ← Lowering.resolveAlias (lowerRoot declarations) declarations declaration.name
      pure () : LowerWalk Unit).Behaves E Q :=
    Walk.Behaves.forM k.refl k.trans fun declaration =>
      (k.resolveAlias (k.lowerType maxRoom) declaration.name).bind k.trans fun _ =>
        Walk.behaves_pure k.refl
  exact each.bind k.trans fun _ =>
    (Walk.behaves_get k.refl).bind k.trans fun _ => Walk.behaves_pure k.refl

/-- So do lowerings one after the other. -/
lemma runEach (k : Kept E Q) (declarations : List Declaration) (types : List TypeExpr)
    (s : LowerState) : E s (Walk.runEach (types.map (lowerRoot declarations)) s).2 := by
  refine Walk.Behaves.runEach k.refl k.trans (Q := Q) fun walk m => ?_
  obtain ⟨type, -, rfl⟩ := List.mem_map.1 m
  exact k.lowerType maxRoom type

end Kept

/-- Every lowering ends at the depth it starts at, and leaves only levels that it has entered. -/
theorem kept_depth : Kept (fun s s' => s'.depth = s.depth) (∃ reason, · = .failed reason) where
  refl _ := rfl
  trans _ _ _ h h' := h'.trans h
  alloc _ _ := rfl
  literal _ _ := rfl
  define _ _ _ _ _ h := h
  setAliasName _ _ _ _ _ h := h
  resolve _ _ := rfl
  up s t depth h e := by
    rw [h] at e
    cases e
    rfl
  misused s t misuse h e := by
    rw [h] at e
    cases e
  failed reason := ⟨reason, rfl⟩

/-- Names that are resolved stay so. -/
theorem kept_resolved : Kept (fun s s' => ∀ name, s.resolved.lookup name ≠ none →
    s'.resolved.lookup name ≠ none) fun _ => True where
  refl _ _ r := r
  trans _ _ _ h h' name r := h' name (h name r)
  alloc _ _ _ r := r
  literal _ _ _ r := r
  define _ _ _ _ _ h := h
  setAliasName _ _ _ _ _ h := h
  resolve s entries name r := by
    rw [List.lookup_append]
    simp [r]
  up _ _ _ h _ := h
  misused _ _ _ h _ := ⟨h, trivial⟩
  failed _ := trivial

/-- What each operation of a store keeps of it, every lowering keeps. -/
lemma kept_store {P : TypeStore → TypeStore → Prop} (refl : ∀ store, P store store)
    (trans : ∀ s t u, P s t → P t u → P s u) (alloc : ∀ store data, P store (store.alloc data).2)
    (literal : ∀ store value, P store (store.literal value).2)
    (define : ∀ store id data, P store (store.define id data).2)
    (setAliasName : ∀ store id name, P store (store.setAliasName id name)) :
    Kept (fun s s' => P s.store s'.store) fun _ => True where
  refl s := refl s.store
  trans _ _ _ := trans _ _ _
  alloc s := alloc s.store
  literal s := literal s.store
  define _ t id data _ h := trans _ _ _ h (define t.store id data)
  setAliasName _ t id name _ h := trans _ _ _ h (setAliasName t.store id name)
  resolve s _ := refl s.store
  up _ _ _ h _ := h
  misused _ _ _ h _ := ⟨h, trivial⟩
  failed _ := trivial

/-- A store grows, as only handles that are new are named or defined. -/
theorem kept_grows : Kept (fun s s' => s.store.Grows s'.store) fun _ => True where
  refl s := .refl s.store
  trans _ _ _ := .trans
  alloc _ _ := TypeStore.grows_alloc
  literal s value := by
    show s.store.Grows (s.store.literal value).2
    rcases s.store.literal_cases value with e | e
    · rw [e]
      exact .refl s.store
    · rw [e]
      exact TypeStore.grows_intern value
  define s t id data l g := by
    show s.store.Grows (t.store.define id data).2
    by_cases e : t.store.lookup id = some .pending
    · exact g.define e l data
    · rw [TypeStore.define_of_not_pending e]
      exact g
  setAliasName s t id name l g := g.setAliasName l
  resolve s _ := .refl s.store
  up _ _ _ h _ := h
  misused _ _ _ h _ := ⟨h, trivial⟩
  failed _ := trivial

/-! ## Lowering declarations -/

/-- What is kept of the store a lowering of declarations keeps. -/
lemma Kept.lowerDeclarations {P : TypeStore → TypeStore → Prop} {Q : WalkStop LowerError → Prop}
    (k : Kept (fun s s' => P s.store s'.store) Q) (store : TypeStore)
    (declarations : List Declaration) :
    P store (TypeSchema.lowerDeclarations store declarations).2 := by
  have all : P store ((Lowering.lowerAll declarations).run (start store)).2.store :=
    (k.lowerAll declarations (start store)).1
  unfold TypeSchema.lowerDeclarations
  split
  case h_1 => exact k.refl (start store)
  case h_2 =>
    unfold finish
    split
    case h_1 => exact all
    case h_2 => exact all

/-- Declarations of different names are lowered one after the other, and the lowering ends at depth
zero whether it succeeds or stops. -/
theorem lowerDeclarations_of_nodup {store : TypeStore} (n : (declarations.map (·.name)).Nodup) :
    lowerDeclarations store declarations =
      (((Lowering.lowerAll declarations).run (start store)).1,
        ((Lowering.lowerAll declarations).run (start store)).2.store) := by
  have depth : ((Lowering.lowerAll declarations).run (start store)).2.depth = (start store).depth :=
    (kept_depth.lowerAll declarations (start store)).1
  unfold lowerDeclarations
  rw [checkNames_eq_ok.2 n]
  dsimp only
  unfold finish
  rw [depth]
  rfl

end

end TypeSchema.Lowering
