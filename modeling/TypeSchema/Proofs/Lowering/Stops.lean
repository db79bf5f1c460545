import TypeSchema.Proofs.Lowering.Structure

/-!
# Why a lowering stops

A lowering stops on a level that it may not enter, at a name that is not declared, at an alias chain
that does not end, at an expression that is refused for its form, or at a record whose key type is
none. What is said here of a walk that lowers the parts of expressions holds of the lowering of an
expression from these parts.
-/

namespace TypeSchema.Lowering

variable {lowerPart : TypeExpr → LowerWalk TypeId} {declarations : List Declaration}
  {I J : LowerState → Prop} {Q : WalkStop LowerError → Prop} {type : TypeExpr} {name : String}

/-- A walk one level deeper stops at the limit, or as the walk stops there. -/
lemma stopsOnly_deeper {α : Type} {walk : LowerWalk α} (h : walk.StopsOnly J Q)
    (down : ∀ s, I s → J s.down)
    (limit : ∀ s, I s → s.depth.maxDepth.toNat ≤ s.depth.depth → Q (.failed .depthLimitExceeded))
    (misused : ∀ misuse, Q (.misused misuse)) : (LowerWalk.deeper walk).StopsOnly I Q := by
  intro s i stop s' e
  rw [run_deeper] at e
  split at e
  case isTrue l =>
    cases e
    exact limit s i l
  case isFalse =>
    cases leave : (walk.run s.down).2.depth.leave with
    | ok depth =>
      rw [leave] at e
      obtain ⟨e, -⟩ := Prod.mk.inj e
      exact h _ (down s i) stop _ (Prod.ext e rfl)
    | error misuse =>
      rw [leave] at e
      cases e
      exact misused misuse

/-- An expression is refused for its form, or stops as its parts do, or they do not fit. -/
theorem stopsOnly_lowerStructure (fault : ∀ error, type.fault? = some error → Q (.failed error))
    (parts : ∀ part ∈ type.parts, (lowerPart part).StopsOnly I Q)
    (keep : ∀ part ∈ type.parts, ∀ s id s', I s → (lowerPart part).Gives s id s' → I s')
    (fit : ∀ s ids s', I s → (type.parts.mapM lowerPart).Gives s ids s' →
      type.assemble? s'.store ids = none → Q (.failed type.misfit)) :
    (lowerStructure lowerPart type).StopsOnly I Q := by
  rw [lowerStructure_eq]
  split
  case h_1 error e => exact Walk.stopsOnly_fail (fault error e)
  case h_2 =>
    have lowered : (type.parts.mapM lowerPart).StopsOnly I Q := .mapM parts keep
    -- Whether the handles fit is told in the state that the parts leave.
    refine lowered.bind (K := fun ids t => ∃ s, I s ∧ (type.parts.mapM lowerPart).Gives s ids t)
      (fun s ids t i g => ⟨s, i, g⟩) fun ids => Walk.stopsOnly_get_bind fun t => ?_
    split
    case h_1 => exact Walk.stopsOnly_pure
    case h_2 misfit =>
      rintro _ ⟨rfl, s, i, g⟩
      exact Walk.stopsOnly_fail (I := fun _ => True) (fit s ids _ i g misfit) _ trivial

/-- A body with parts stops as they do, under its handle. -/
lemma stopsOnly_lowerAliasBody {declaration : Declaration}
    (plain : declaration.type.isStructural = false → (lowerPart declaration.type).StopsOnly I Q)
    (parted : declaration.type.isStructural = true →
      (LowerWalk.deeper (lowerStructure lowerPart declaration.type)).StopsOnly J Q)
    (resolving : declaration.type.isStructural = true →
      ∀ s, I s → J (s.resolving declaration.name)) :
    (lowerAliasBody lowerPart declaration).StopsOnly I Q := by
  unfold lowerAliasBody
  split
  case isTrue k =>
    intro s i
    have reserved : (do
        let data ← LowerWalk.deeper (lowerStructure lowerPart declaration.type)
        let _ ← LowerWalk.onStore (·.define s.store.nextId data)
        return s.store.nextId : LowerWalk TypeId).StopsOnly J Q :=
      (parted k).bind_of_gives fun data s => ⟨_, _, rfl⟩
    exact reserved (s.resolving declaration.name) (resolving k s i)
  case isFalse k =>
    exact (plain (by simpa using k)).bind_of_gives fun id s => ⟨_, _, rfl⟩

/-- A name that is not resolved stops where its chain does not end, or as the body at its end
does. -/
lemma stopsOnly_resolveAlias
    (undeclared : ∀ s, I s → s.resolved.lookup name = none →
      ∀ other, chainEnd declarations s.resolved name = .undeclared other →
        Q (.failed (.unknownType other)))
    (cycle : ∀ s, I s → s.resolved.lookup name = none →
      ∀ other, chainEnd declarations s.resolved name = .cycle other →
        Q (.failed (.aliasCycle other)))
    (body : ∀ chain declaration, (lowerAliasBody lowerPart declaration).StopsOnly
      (fun s => I s ∧ s.resolved.lookup name = none ∧
        chainEnd declarations s.resolved name = .body chain declaration) Q) :
    (resolveAlias lowerPart declarations name).StopsOnly I Q := by
  refine Walk.stopsOnly_get_bind fun t => ?_
  dsimp only
  split
  case h_1 => exact Walk.stopsOnly_pure
  case h_2 r =>
    cases c : chainEnd declarations t.resolved name with
    | undeclared other =>
      rintro s ⟨rfl, i⟩
      exact Walk.stopsOnly_fail (I := fun _ => True) (undeclared s i r other c) s trivial
    | cycle other =>
      rintro s ⟨rfl, i⟩
      exact Walk.stopsOnly_fail (I := fun _ => True) (cycle s i r other c) s trivial
    | resolved chain id => exact Walk.stopsOnly_of_gives fun s => ⟨_, _, rfl⟩
    | body chain declaration =>
      have finished : (lowerAliasBody lowerPart declaration >>= finishChain chain).StopsOnly
          (fun s => I s ∧ s.resolved.lookup name = none ∧
            chainEnd declarations s.resolved name = .body chain declaration) Q :=
        (body chain declaration).bind_of_gives fun id s => ⟨_, _, rfl⟩
      refine finished.weaken ?_
      rintro s ⟨rfl, i⟩
      exact ⟨i, r, c⟩

/-- An expression stops as its parts do, or as its name does. -/
lemma stopsOnly_lowerExpr
    (parted : type.isStructural = true → (lowerStructure lowerPart type).StopsOnly I Q)
    (undeclared : ∀ name, type = .named name [] → declared? declarations name = none →
      Q (.failed (.unknownType name)))
    (named : ∀ name, type = .named name [] →
      (resolveAlias lowerPart declarations name).StopsOnly I Q) :
    (lowerExpr lowerPart declarations type).StopsOnly I Q := by
  have structural : type.isStructural = true →
      (lowerExpr lowerPart declarations type).StopsOnly I Q := by
    intro k
    rw [lowerExpr_of_structural k]
    exact (parted k).bind_of_gives fun data s => ⟨_, _, rfl⟩
  cases type with
  | keyword => exact Walk.stopsOnly_pure
  | literal => exact Walk.stopsOnly_of_gives fun s => ⟨_, _, rfl⟩
  | named name arguments =>
    cases arguments with
    | cons => exact structural rfl
    | nil =>
      unfold lowerExpr
      dsimp only
      split
      case h_1 => exact named name rfl
      case h_2 e => exact Walk.stopsOnly_fail (undeclared name rfl e)
  | _ => exact structural rfl

/-- The lowering of all declarations stops where that of one of their names does. -/
lemma stopsOnly_lowerAll
    (each : ∀ declaration ∈ declarations,
      (resolveAlias (lowerRoot declarations) declarations declaration.name).StopsOnly I Q)
    (keep : ∀ declaration ∈ declarations, ∀ s id s', I s →
      (resolveAlias (lowerRoot declarations) declarations declaration.name).Gives s id s' → I s') :
    (lowerAll declarations).StopsOnly I Q := by
  have all : (declarations.forM fun declaration => do
      let _ ← resolveAlias (lowerRoot declarations) declarations declaration.name
      pure () : LowerWalk Unit).StopsOnly I Q := by
    refine .forM (fun declaration m => ?_) fun declaration m s s' i g => ?_
    · exact (each declaration m).bind_of_gives fun _ s => ⟨_, _, rfl⟩
    · obtain ⟨id, t, g, e⟩ := Walk.gives_bind.1 g
      cases e
      exact keep declaration m s id s' i g
  exact all.bind_of_gives fun _ s => ⟨_, _, rfl⟩

end TypeSchema.Lowering
