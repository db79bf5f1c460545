import TypeSchema.Proofs.Import.Consistent
import TypeSchema.Proofs.Looser

/-!
# Imports under looser limits

An import whose guard allows more, or has been tried less often, than that of another import gives
the same node or stops for the same reason, unless the other import stops because of a limit. It may
also be `lenient` for the depth limits to differ, and for functions to be imported by their first
signature where they were refused; then only an import that succeeds is followed.
-/

namespace TypeSchema

variable {lenient : Prop}

/-- The other state remembers the same, with a looser guard. -/
structure ImportState.Looser (lenient : Prop) (s s' : ImportState) : Prop where
  guard : s.guard.Looser lenient s'.guard
  current : ∀ id, s'.currentIdentifier? id = s.currentIdentifier? id
  named : s'.named = s.named
  usedIdentifiers : s'.usedIdentifiers = s.usedIdentifiers
  anonymousCount : s'.anonymousCount = s.anonymousCount

/-- An import that stopped here stopped because of a limit, or may be refused what another one is
not. -/
def ImportState.Excused (lenient : Prop) (s : ImportState) : Prop := lenient ∨ s.guard.Spent

/-- The other options name types alike, and refuse functions alike, unless it is `lenient` to accept
those that were refused. -/
structure ImportOptions.Looser (lenient : Prop) (options options' : ImportOptions) : Prop where
  anonymousPrefix : options'.anonymousPrefix = options.anonymousPrefix
  policy : options'.signaturePolicy = options.signaturePolicy ∨
    lenient ∧ options'.signaturePolicy = .firstDeclared

namespace ImportState.Looser

variable {s s' : ImportState} (h : s.Looser lenient s') (id : TypeId)

include h

lemma withGuard {guard guard' : WalkGuard TypeId} (g : guard.Looser lenient guard') :
    ({ s with guard } : ImportState).Looser lenient { s' with guard := guard' } :=
  ⟨g, h.current, h.named, h.usedIdentifiers, h.anonymousCount⟩

lemma setProgress (identifier : Option String) :
    (s.setProgress id identifier).Looser lenient (s'.setProgress id identifier) := by
  refine ⟨h.guard, ?_, h.named, h.usedIdentifiers, h.anonymousCount⟩
  intro j
  simp only [currentIdentifier?_setProgress, h.current]

lemma left {guard guard' : WalkGuard TypeId} (g : guard.Looser lenient guard') :
    (s.left guard id).Looser lenient (s'.left guard' id) := by
  refine ⟨g, ?_, h.named, h.usedIdentifiers, h.anonymousCount⟩
  intro j
  simp only [currentIdentifier?_left, h.current]

lemma use (identifier : String) : (s.use identifier).Looser lenient (s'.use identifier) :=
  ⟨h.guard, h.current, h.named, congrArg (identifier :: ·) h.usedIdentifiers, h.anonymousCount⟩

/-- A name is claimed as the same identifier. -/
lemma claim (name : String) :
    (s'.claim name).1 = (s.claim name).1 ∧ (s.claim name).2.Looser lenient (s'.claim name).2 := by
  have e : (s'.claim name).1 = (s.claim name).1 := by
    unfold ImportState.claim
    rw [h.usedIdentifiers]
    split <;> rfl
  refine ⟨e, ?_⟩
  rw [claim_state, claim_state, e]
  exact h.use _

/-- A numbered prefix is claimed as the same identifier. -/
lemma claimAnonymous (start : String) :
    (s'.claimAnonymous start).1 = (s.claimAnonymous start).1 ∧
      (s.claimAnonymous start).2.Looser lenient (s'.claimAnonymous start).2 := by
  unfold ImportState.claimAnonymous
  rw [h.usedIdentifiers, h.anonymousCount]
  exact ⟨rfl, h.guard, h.current, h.named, congrArg (_ :: ·) h.usedIdentifiers, rfl⟩

end ImportState.Looser

/-- From a state that allows more, the second walk leads to the same outcome as the first one. -/
def ImportWalk.Follows (lenient : Prop) {α : Type} (walk walk' : ImportWalk α) : Prop :=
  Walk.Follows (ImportState.Looser lenient) (ImportState.Excused lenient) walk walk'

/-- What construction gives does not depend on limits. -/
lemma ImportWalk.constructed_follows {α : Type} {result : Except ConstructionError α} :
    ImportWalk.Follows lenient (ImportWalk.constructed result) (ImportWalk.constructed result) := by
  cases result with
  | ok => exact Walk.follows_pure
  | error => exact Walk.follows_fail

namespace Importer

/-- The same import under other options. -/
def withOptions (importer : Importer) (options : ImportOptions) : Importer :=
  { importer with options }

section

variable {importer : Importer} {options : ImportOptions}

@[simp] lemma withOptions_checker : (importer.withOptions options).checker = importer.checker := rfl

@[simp] lemma withOptions_options : (importer.withOptions options).options = options := rfl

end

variable {importer : Importer} {options' : ImportOptions}
  (looser : importer.options.Looser lenient options') {id : TypeId} {s s' : ImportState}

/-- A leaf is made of a type in every state, or in none. -/
lemma importLeaf_follows {leaf : ImportWalk Schema}
    (e : importer.importLeaf? id (importer.checker.flags id) = some leaf) :
    ImportWalk.Follows lenient leaf leaf := by
  rcases importLeaf_cases e with ⟨node, rfl⟩ | rfl
  · exact Walk.follows_pure
  · exact Walk.follows_fail

include looser

/-- A type is referred to by the same identifier. -/
lemma refer_looser (id : TypeId) (h : s.Looser lenient s') :
    ((importer.withOptions options').refer id s').1 = (importer.refer id s).1 ∧
      (importer.refer id s).2.Looser lenient
        ((importer.withOptions options').refer id s').2 := by
  have name : (importer.withOptions options').aliasName? id =
      importer.aliasName? id := rfl
  unfold refer
  rw [h.current id, name]
  cases s.currentIdentifier? id with
  | some identifier => exact ⟨rfl, h⟩
  | none =>
    cases importer.aliasName? id with
    | some name =>
      obtain ⟨same, claimed⟩ := h.claim name
      dsimp only
      rw [same]
      exact ⟨rfl, claimed.setProgress _ _⟩
    | none =>
      obtain ⟨same, claimed⟩ := h.claimAnonymous importer.options.anonymousPrefix
      dsimp only
      rw [withOptions_options, looser.anonymousPrefix, same]
      exact ⟨rfl, claimed.setProgress _ _⟩

lemma identifierFor_follows :
    ImportWalk.Follows lenient (importer.identifierFor id)
      ((importer.withOptions options').identifierFor id) := by
  intro s s' h
  obtain ⟨same, left⟩ := refer_looser looser id h
  have e : (importer.identifierFor id).run s =
      (.ok (importer.refer id s).1, (importer.refer id s).2) := gives_identifierFor.2 rfl
  have e' : ((importer.withOptions options').identifierFor id).run s' =
      (.ok ((importer.withOptions options').refer id s').1,
        ((importer.withOptions options').refer id s').2) := gives_identifierFor.2 rfl
  rw [e, e', same]
  exact .inl ⟨rfl, left⟩

omit looser in
/-- A type is completed under the same identifier. -/
lemma conclude_looser (importer : Importer) (options' : ImportOptions) (isNested : Bool)
    (id : TypeId) (identifier : Option String) (h : s.Looser lenient s') :
    ((importer.withOptions options').conclude isNested id identifier s').1 =
        (importer.conclude isNested id identifier s).1 ∧
      (importer.conclude isNested id identifier s).2.Looser lenient
        ((importer.withOptions options').conclude isNested id identifier
          s').2 := by
  have name : (importer.withOptions options').aliasName? id =
      importer.aliasName? id := rfl
  unfold conclude
  rw [name]
  split
  · exact ⟨rfl, h⟩
  · split
    · split
      · obtain ⟨same, claimed⟩ := h.claim _
        exact ⟨congrArg some same, claimed⟩
      · exact ⟨rfl, h⟩
    · exact ⟨rfl, h⟩

omit looser in
lemma complete_follows {identifier : Option String} {node : Schema} :
    ImportWalk.Follows lenient (complete id identifier node) (complete id identifier node) := by
  cases identifier with
  | none => exact Walk.follows_pure
  | some identifier =>
    refine Walk.Follows.bind (Walk.follows_modify ?_) fun _ => Walk.follows_pure
    intro s s' h
    exact ⟨h.guard, h.current, congrArg (_ :: ·) h.named, h.usedIdentifiers, h.anonymousCount⟩

/-- A function type takes the same steps under looser options, or was refused. -/
lemma functionSteps_looser {signatures : List CallSignature} :
    (importer.withOptions options').functionSteps id signatures =
        importer.functionSteps id signatures ∨
      lenient ∧ importer.functionSteps id signatures = [importer.refusal id] := by
  cases signatures with
  | nil => exact .inl rfl
  | cons signature overloads =>
    rcases looser.policy with same | ⟨l, first⟩
    · left
      simp only [functionSteps, withOptions_options, same]
      rfl
    · by_cases refused : (!overloads.isEmpty &&
        importer.options.signaturePolicy == .rejectOverloads) = true
      · exact .inr ⟨l, if_pos refused⟩
      · left
        simp only [functionSteps, if_neg refused, withOptions_options, first]
        exact if_neg (by simp)

/-- A rule takes the same steps under looser options, or the type was refused. -/
lemma steps_looser (id : TypeId) :
    (importer.withOptions options').steps id = importer.steps id ∨
      lenient ∧ importer.steps id = [importer.refusal id] := by
  unfold steps
  rw [withOptions_checker]
  cases importer.checker.ruleFor? id with
  | none => exact .inl rfl
  | some rule =>
    cases rule with
    | function => exact functionSteps_looser looser
    | _ => exact .inl rfl

/-- The structure of a type is followed if its parts are. -/
lemma importStructure_follows {importPart importPart' : TypeId → ImportWalk Schema}
    (n : importer.importLeaf? id (importer.checker.flags id) = none)
    (parts : ∀ id, ImportWalk.Follows lenient (importPart id) (importPart' id)) :
    ImportWalk.Follows lenient
      (importer.importStructure importPart id (importer.checker.flags id))
      ((importer.withOptions options').importStructure importPart' id
        (importer.checker.flags id)) := by
  have other : (importer.withOptions options').importStructure importPart' id
      (importer.checker.flags id) = _ := importStructure_eq n
  rw [importStructure_eq n, other]
  rcases steps_looser looser id with same | ⟨l, refused⟩
  · rw [same]
    refine Walk.Follows.bind (.mapM fun step _ => ?_) fun _ => Walk.follows_pure
    cases step with
    | part id => exact parts id
    | stop error => exact Walk.follows_fail
  · -- A type that the first import refuses may be accepted.
    rw [refused]
    exact Walk.follows_of_fail fun _ => .inl l

omit looser in
/-- A type that is entered is left and completed alike. -/
lemma importEntered_follows {body body' : ImportWalk Schema}
    (h : ImportWalk.Follows lenient body body') {isNested : Bool} :
    ImportWalk.Follows lenient (importer.importEntered body isNested id)
      ((importer.withOptions options').importEntered body' isNested id) := by
  intro s s' r
  have within := h _ _ (r.setProgress id none)
  rw [run_importEntered, run_importEntered]
  cases e : body.run (s.setProgress id none) with
  | mk result inside =>
    cases e' : body'.run (s'.setProgress id none) with
    | mk result' inside' =>
      rw [e, e'] at within
      dsimp only at within ⊢
      rcases within with ⟨rfl, within⟩ | ⟨x, stop, rfl⟩
      · obtain ⟨next, next', l, l', g⟩ | ⟨misuse, l, l'⟩ := within.guard.leave id
        · rw [l, l']
          have left := within.left id g
          cases result' with
          | error stop => exact .inl ⟨rfl, left⟩
          | ok built =>
            dsimp only
            rw [within.current id]
            obtain ⟨same, concluded⟩ :=
              conclude_looser importer options' isNested id (inside.currentIdentifier? id) left
            rw [same]
            exact complete_follows _ _ concluded
        · rw [l, l']
          exact .inl ⟨rfl, within⟩
      · -- What stopped because of a limit is still left.
        cases l : inside.guard.leave id with
        | error misuse => exact .inr ⟨x, _, rfl⟩
        | ok guard => exact .inr ⟨x.imp_right fun spent => spent.leave l, stop, rfl⟩

/-- A type is followed if its parts are. -/
lemma importWith_follows {importPart? importPart?' : Option (TypeId → ImportWalk Schema)}
    (parts : ∀ importPart ∈ importPart?, ∃ importPart' ∈ importPart?',
      ∀ id, ImportWalk.Follows lenient (importPart id) (importPart' id))
    (bare : importPart? = none → lenient ∨ importPart?' = none) :
    ImportWalk.Follows lenient (importer.importWith importPart? id)
      ((importer.withOptions options').importWith importPart?' id) := by
  cases n : importer.importLeaf? id (importer.checker.flags id) with
  | some leaf =>
    have other : (importer.withOptions options').importWith importPart?' id = leaf :=
      importWith_of_leaf n
    rw [importWith_of_leaf n, other]
    exact importLeaf_follows n
  | none =>
    intro s s' h
    have other : ((importer.withOptions options').importWith importPart?' id).run s' = _ :=
      run_importWith n
    have named : s'.named.lookup id = s.named.lookup id := congrArg (·.lookup id) h.named
    rw [run_importWith n, other, named]
    cases s.named.lookup id with
    | some identifier => exact ImportWalk.constructed_follows s s' h
    | none =>
      have entered := h.guard.enter id
      generalize s.guard.enter id = attempt at entered
      generalize s'.guard.enter id = attempt' at entered
      obtain ⟨answer, guard⟩ := attempt
      obtain ⟨answer', guard'⟩ := attempt'
      have exceeded : ∀ t, ((importer.limitExceeded id : ImportWalk Schema).run t) =
          (.error (.failed (.depthLimitExceeded (importer.checker.typeText id))), t) := fun _ => rfl
      rcases entered with ⟨same, g⟩ | ⟨limit, x⟩
      · obtain rfl : answer' = answer := same
        dsimp only at g
        have counted := h.withGuard g
        cases answer' with
        | entered =>
          cases importPart? with
          | none =>
            rcases bare rfl with l | rfl
            · exact .inr ⟨.inl l, _, rfl⟩
            · exact .inl ⟨rfl, counted⟩
          | some importPart =>
            obtain ⟨importPart', rfl, follows⟩ := parts importPart rfl
            -- Whether a type is nested is told by the depth, which is the same.
            have depth : guard'.depth = guard.depth := g.depth
            dsimp only
            rw [depth]
            exact importEntered_follows (importStructure_follows looser n follows) _ _ counted
        | cycle =>
          refine Walk.Follows.bind (identifierFor_follows looser) (fun _ => ?_) _ _ counted
          exact ImportWalk.constructed_follows
        | depthExceeded => exact .inl ⟨rfl, counted⟩
        | iterationExceeded => exact .inl ⟨rfl, counted⟩
      · rcases limit with rfl | rfl
        · exact .inr ⟨x, _, rfl⟩
        · exact .inr ⟨x, _, rfl⟩

/-- An import is followed where there is as much room or more. -/
theorem importType_follows {room room' : Nat} (more : room ≤ room')
    (same : lenient ∨ room' = room) :
    ImportWalk.Follows lenient (importer.importType room id)
      ((importer.withOptions options').importType room' id) := by
  induction room generalizing room' id with
  | zero =>
    rw [importType_eq, importType_eq]
    refine importWith_follows looser (fun _ m => by cases m) fun _ => ?_
    exact same.imp_right fun e => by rw [e]; rfl
  | succ room ih =>
    obtain ⟨rest, rfl⟩ : ∃ rest, room' = rest + 1 := ⟨room' - 1, by omega⟩
    refine importWith_follows looser ?_ fun e => by cases e
    rintro _ ⟨rfl⟩
    refine ⟨_, rfl, fun id => ?_⟩
    exact ih (Nat.le_of_succ_le_succ more) (same.imp_right Nat.succ.inj)

omit looser in
/-- An import that succeeds gives the same node under looser options. -/
theorem fromType_looser {root : TypeId} {node : Schema}
    (looser : importer.options.Looser True options')
    (depth : importer.options.maxDepth ≤ options'.maxDepth)
    (work : importer.options.maxIterations ≤ options'.maxIterations)
    (h : importer.fromType root = .ok node) :
    (importer.withOptions options').fromType root = .ok node := by
  have depth := UInt32.le_iff_toNat_le.1 depth
  have work := UInt32.le_iff_toNat_le.1 work
  have start : ImportState.Looser True importer.start (importer.withOptions options').start :=
    ⟨⟨rfl, rfl, Nat.le_refl _, work, depth, .inl trivial⟩, fun _ => rfl, rfl, rfl, rfl⟩
  obtain ⟨s, g, references⟩ := gives_of_fromType h
  obtain ⟨s', g', left⟩ :=
    Walk.Follows.gives (importType_follows looser depth (.inl trivial)) start g
  refine fromType_of_gives g' ?_ references
  exact left.guard.visiting.trans ((imports_of_gives g).consistent consistent_start).2.visiting

end Importer

end TypeSchema
