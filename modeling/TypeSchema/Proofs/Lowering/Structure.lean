import TypeSchema.Proofs.Lists
import TypeSchema.Proofs.Lowering.Parts

/-!
# Structures as their parts

Whatever its form, an expression is refused for its form alone, or its parts are lowered in order
and their handles put together. Only the key type of a record can keep them from fitting.
-/

namespace TypeSchema

/-- The number of arguments that a name takes. -/
def TypeExpr.arity? (name : String) : Option Nat :=
  if name = "Record" then some 2 else if name = "Array" then some 1 else none

/-- Why an expression is refused before its parts are lowered. -/
def TypeExpr.fault? : TypeExpr → Option LowerError
  | named name arguments =>
    match arity? name with
    | some count =>
      if arguments.length = count then none
      else some (.typeArgumentCount name count arguments.length)
    | none => some (.unknownType name)
  | type@(keyword _) | type@(literal _) => some (.unknownType type.print)
  | _ => none

/-- What an expression stands for when its parts have the given handles, unless it is a record whose
key type is none. -/
def TypeExpr.assemble? (store : TypeStore) : TypeExpr → List TypeId → Option TypeData
  | named name _, ids =>
    if name = "Record" then store.recordData? (ids.headD default) (ids.tail.headD default)
    else some (.array (ids.headD default))
  | type, ids => some (type.layout ids)

/-- Why the parts of an expression do not fit: the first one is no key type. -/
def TypeExpr.misfit (type : TypeExpr) : LowerError :=
  .unsupportedRecordKey (type.parts.headD default).print

/-- Names with arguments that are not refused are those of records and arrays. -/
lemma TypeExpr.named_of_fault?_eq_none {name : String} {arguments : List TypeExpr}
    (f : (named name arguments).fault? = none) :
    (name = "Record" ∧ ∃ key value, arguments = [key, value]) ∨
      name = "Array" ∧ ∃ element, arguments = [element] := by
  unfold fault? arity? at f
  by_cases record : name = "Record"
  · refine .inl ⟨record, List.length_eq_two.1 ?_⟩
    by_contra n
    simp [record, n] at f
  · by_cases array : name = "Array"
    · refine .inr ⟨array, List.length_eq_one_iff.1 ?_⟩
      by_contra n
      simp [array, n] at f
    · simp [record, array] at f

namespace Lowering

variable {lowerPart : TypeExpr → LowerWalk TypeId} {type : TypeExpr}

/-- The handles of an expression's parts, put together. -/
def assemble (type : TypeExpr) (ids : List TypeId) : LowerWalk TypeData := do
  match type.assemble? (← Walk.get).store ids with
  | some data => return data
  | none => Walk.fail type.misfit

/-- Every expression is lowered by its parts, unless it is refused for its form. -/
theorem lowerStructure_eq :
    lowerStructure lowerPart type =
      match type.fault? with
      | some error => Walk.fail error
      | none => type.parts.mapM lowerPart >>= assemble type := by
  cases type with
  | keyword => rfl
  | literal => rfl
  | object members =>
    show members.mapM (lowerProperty lowerPart) >>=
      (fun infos => pure (TypeData.object infos [])) = _
    rw [show members.mapM (lowerProperty lowerPart) = _ from Walk.mapM_eq_zipWith fun _ => rfl,
      bind_assoc]
    rfl
  | composite connective members => rfl
  | array element =>
    show _ = [element].mapM lowerPart >>= assemble _
    rw [List.mapM_cons, List.mapM_nil, bind_assoc]
    rfl
  | tuple members =>
    show members.mapM (lowerElement lowerPart) >>=
      (fun elements => pure (TypeData.tuple elements)) = _
    rw [show members.mapM (lowerElement lowerPart) = _ from Walk.mapM_eq_zipWith fun _ => rfl,
      bind_assoc]
    rfl
  | named name arguments =>
    unfold lowerStructure lowerGeneric TypeExpr.fault? TypeExpr.arity?
    by_cases r : name = "Record"
    · subst r
      match arguments with
      | [key, value] =>
        show _ = [key, value].mapM lowerPart >>= assemble _
        simp only [List.mapM_cons, List.mapM_nil, bind_assoc, pure_bind]
        rfl
      | [] => rfl
      | [_] => rfl
      | _ :: _ :: _ :: _ => simp
    · by_cases a : name = "Array"
      · subst a
        match arguments with
        | [element] =>
          show _ = [element].mapM lowerPart >>= assemble _
          simp only [List.mapM_cons, List.mapM_nil, bind_assoc, pure_bind]
          rfl
        | [] => rfl
        | _ :: _ :: _ => simp
      · simp only [if_neg r, if_neg a]
  | function parameters returns =>
    show (do
        let infos ← parameters.mapM (lowerParameter lowerPart)
        let returns ← lowerPart returns
        pure (.callable [⟨infos, returns⟩])) =
      (parameters.map (·.type) ++ [returns]).mapM lowerPart >>= assemble _
    rw [show parameters.mapM (lowerParameter lowerPart) = _ from Walk.mapM_eq_zipWith fun _ => rfl,
      List.mapM_append]
    simp only [List.mapM_cons, List.mapM_nil, bind_assoc, pure_bind]
    -- The handle of the returned type is the last one, behind those of the parameters.
    apply Walk.bind_congr_of_gives
    intro s ids s' h
    have l : ids.length = parameters.length := by simpa using h.mapM_length
    refine congrArg (lowerPart returns >>= ·) (funext fun id => ?_)
    unfold assemble
    show _ = (pure (.callable [⟨parameters.zipWith _ (ids ++ [id]),
      (ids ++ [id]).getLastD default⟩]) : LowerWalk TypeData)
    rw [zipWith_append_right l]
    simp

/-- An expression is lowered if its form is not refused, its parts are lowered and their handles
fit. -/
theorem gives_lowerStructure_iff {s s' : LowerState} {data : TypeData} :
    (lowerStructure lowerPart type).Gives s data s' ↔
      type.fault? = none ∧ ∃ ids, (type.parts.mapM lowerPart).Gives s ids s' ∧
        type.assemble? s'.store ids = some data := by
  rw [lowerStructure_eq]
  cases f : type.fault? with
  | some error =>
    constructor
    · intro h
      exact absurd h Walk.not_gives_fail
    · rintro ⟨f, -⟩
      cases f
  | none =>
    constructor
    · intro h
      obtain ⟨ids, t, parts, h⟩ := Walk.gives_bind.1 h
      obtain ⟨_, _, g, h⟩ := Walk.gives_bind.1 h
      obtain ⟨rfl, rfl⟩ := Walk.gives_get.1 g
      cases e : type.assemble? t.store ids with
      | none =>
        rw [e] at h
        exact absurd h Walk.not_gives_fail
      | some found =>
        rw [e] at h
        obtain ⟨rfl, rfl⟩ := Walk.gives_pure.1 h
        exact ⟨rfl, ids, parts, e⟩
    · rintro ⟨-, ids, parts, e⟩
      refine Walk.gives_bind.2 ⟨ids, s', parts, Walk.gives_bind.2 ⟨s', s', rfl, ?_⟩⟩
      rw [e]
      exact Walk.gives_pure.2 ⟨rfl, rfl⟩

/-- An expression that has parts is lowered by lowering them. -/
theorem gives_lowerStructure {s s' : LowerState} {ids : List TypeId} (k : type.isStructural = true)
    (h : (type.parts.mapM lowerPart).Gives s ids s') (fits : type.Fits s'.store ids) :
    (lowerStructure lowerPart type).Gives s (type.layout ids) s' := by
  have fault : type.fault? = none := by
    cases type with
    | keyword => cases k
    | literal => cases k
    | named =>
      obtain ⟨rfl, l, -⟩ := fits
      simp [TypeExpr.fault?, TypeExpr.arity?, l]
    | _ => rfl
  have fit : type.assemble? s'.store ids = some (type.layout ids) := by
    cases type with
    | named =>
      obtain ⟨rfl, -, keys⟩ := fits
      show s'.store.recordData? (ids.headD default) (ids.tail.headD default) = _
      unfold TypeStore.recordData?
      rw [keys]
      rfl
    | _ => rfl
  exact gives_lowerStructure_iff.2 ⟨fault, ids, h, fit⟩

end Lowering

end TypeSchema
