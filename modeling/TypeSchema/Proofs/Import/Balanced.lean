import TypeSchema.Proofs.Guard
import TypeSchema.Proofs.Import.Consistent

/-!
# Imports leave what they enter

An import enters every type that it is inside of and leaves it again, whether it succeeds or stops.
So the guard holds the same keys after an import as before it, and the type that is left is always
one that is entered. For this the room of the import has to reach as far as the depth limit of the
guard does, so that no type is entered where no room is left.
-/

namespace TypeSchema

namespace ImportState

/-- The guards of two states hold the same keys. -/
def SameKeys (s s' : ImportState) : Prop := s.guard.SameKeys s'.guard

/-- The guard enters no more types than there is room for. -/
def HasRoom (room : Nat) (s : ImportState) : Prop :=
  s.guard.limits.maxDepth.toNat ≤ s.guard.depth + room

variable {s s' : ImportState} {room : Nat} {id : TypeId}

lemma SameKeys.hasRoom (h : s.SameKeys s') (r : s.HasRoom room) : s'.HasRoom room := by
  unfold HasRoom
  rw [h.limits, h.depth]
  exact r

/-- There is room for a type that is entered. -/
lemma HasRoom.exists_succ {guard : WalkGuard TypeId} (r : s.HasRoom room)
    (e : s.guard.enter id = (.entered, guard)) : ∃ rest, room = rest + 1 ∧
      HasRoom rest ({ s with guard }.setProgress id none) := by
  obtain ⟨-, -, below, rfl⟩ := WalkGuard.enter_eq_entered.1 e
  unfold HasRoom at r
  refine ⟨room - 1, by omega, ?_⟩
  show s.guard.limits.maxDepth.toNat ≤ s.guard.depth + 1 + (room - 1)
  omega

/-- Claiming an identifier leaves the guard alone. -/
lemma Claims.guard {identifier : String} (c : s.Claims identifier s') : s'.guard = s.guard := by
  obtain ⟨-, count, rfl⟩ := c
  rfl

end ImportState

/-- Where there is room enough, the import leaves the keys of the guard as they are, and stops only
for a reason of its own. -/
def ImportWalk.Balanced (room : Nat) {α : Type} (walk : ImportWalk α) : Prop :=
  walk.BehavesFrom (·.HasRoom room) ImportState.SameKeys (∃ reason, · = .failed reason)

namespace ImportWalk.Balanced

variable {room : Nat} {α β : Type} {walk : ImportWalk α}

lemma refl (s : ImportState) : s.SameKeys s := .refl s.guard

lemma trans (s t u : ImportState) (h : s.SameKeys t) (h' : t.SameKeys u) : s.SameKeys u :=
  WalkGuard.SameKeys.trans h h'

lemma keep (s t : ImportState) (r : s.HasRoom room) (h : s.SameKeys t) : t.HasRoom room :=
  h.hasRoom r

lemma pure {a : α} : Balanced room (Pure.pure a : ImportWalk α) :=
  (Walk.behaves_pure refl).behavesFrom

lemma fail {reason : ImportError} : Balanced room (Walk.fail reason : ImportWalk α) :=
  (Walk.behaves_fail refl ⟨reason, rfl⟩).behavesFrom

lemma constructed {result : Except ConstructionError α} :
    Balanced room (ImportWalk.constructed result) := by
  cases result with
  | ok => exact .pure
  | error => exact .fail

lemma bind {next : α → ImportWalk β} (h : walk.Balanced room) (h' : ∀ a, (next a).Balanced room) :
    Balanced room (walk >>= next : ImportWalk β) := Walk.BehavesFrom.bind trans keep h h'

lemma mapM {step : α → ImportWalk β} {as : List α} (h : ∀ a, (step a).Balanced room) :
    Balanced room (as.mapM step : ImportWalk (List β)) := Walk.BehavesFrom.mapM refl trans keep h

/-- So it is when the state has changed otherwise before. -/
lemma after (h : walk.Balanced room) {s t : ImportState} (r : s.HasRoom room)
    (same : s.SameKeys t) :
    s.SameKeys (walk.run t).2 ∧
      ∀ stop, (walk.run t).1 = .error stop → ∃ reason, stop = .failed reason := by
  obtain ⟨kept, stops⟩ := h t (same.hasRoom r)
  exact ⟨trans _ _ _ same kept, stops⟩

end ImportWalk.Balanced

namespace Importer

variable {importer : Importer} {room : Nat} {id : TypeId}

lemma balanced_importLeaf {leaf : ImportWalk Schema}
    (e : importer.importLeaf? id (importer.checker.flags id) = some leaf) :
    leaf.Balanced room := by
  rcases importLeaf_cases e with ⟨node, rfl⟩ | rfl
  · exact .pure
  · exact .fail

/-- What a type is referred to by leaves the guard alone. -/
lemma guard_refer {s : ImportState} : (importer.refer id s).2.guard = s.guard := by
  rcases refer_cases importer id s with ⟨-, e⟩ | ⟨-, t, c, e⟩
  · rw [e]
  · rw [e]
    exact c.guard

/-- What a type is completed under leaves the guard alone. -/
lemma guard_conclude {isNested : Bool} {identifier : Option String} {s : ImportState} :
    (importer.conclude isNested id identifier s).2.guard = s.guard := by
  unfold conclude
  split
  · rfl
  · split
    · split
      · exact ImportState.claims_claim.guard
      · rfl
    · rfl

lemma balanced_identifierFor : (importer.identifierFor id).Balanced room := by
  intro s _
  have g : (importer.identifierFor id).run s = _ := gives_identifierFor.2 rfl
  rw [g]
  refine ⟨?_, fun _ e => by cases e⟩
  show s.guard.SameKeys (importer.refer id s).2.guard
  rw [guard_refer]
  exact .refl s.guard

/-- The structure of a type is imported as its parts are. -/
lemma balanced_importStructure {importPart : TypeId → ImportWalk Schema}
    (n : importer.importLeaf? id (importer.checker.flags id) = none)
    (h : ∀ id, (importPart id).Balanced room) :
    (importer.importStructure importPart id (importer.checker.flags id)).Balanced room := by
  rw [importStructure_eq n]
  refine ImportWalk.Balanced.bind (.mapM fun step => ?_) fun nodes => .pure
  cases step with
  | part id => exact h id
  | stop error => exact .fail

/-- A type that was entered is left again, whether its structure is imported or not. -/
lemma run_importEntered_balanced {body : ImportWalk Schema} {isNested : Bool} {s : ImportState}
    {guard : WalkGuard TypeId} (h : body.Balanced room)
    (r : ImportState.HasRoom room ({ s with guard }.setProgress id none))
    (e : s.guard.enter id = (.entered, guard)) :
    s.SameKeys ((importer.importEntered body isNested id).run { s with guard }).2 ∧
      ∀ stop, ((importer.importEntered body isNested id).run { s with guard }).1 = .error stop →
        ∃ reason, stop = .failed reason := by
  obtain ⟨inside, stops⟩ := h _ r
  obtain ⟨outer, l, same⟩ := WalkGuard.exists_leave_of_entered e inside
  refine importEntered_outcome ?misused ?stopped ?completed
  case misused =>
    intro result t misuse b l'
    rw [b] at l
    cases l.symm.trans l'
  case stopped =>
    intro stop t guard' b l'
    rw [b] at l stops
    cases l.symm.trans l'
    exact ⟨same, stops⟩
  case completed =>
    intro built t guard' identifier u b l' concluded
    rw [b] at l
    cases l.symm.trans l'
    obtain rfl := congrArg Prod.snd concluded
    refine ⟨?_, fun _ e => by cases e⟩
    unfold ImportState.SameKeys
    rw [ImportState.complete_guard, guard_conclude]
    exact same

/-- A type is entered only where there is a walk for its parts. -/
lemma balanced_importWith {importPart? : Option (TypeId → ImportWalk Schema)}
    (h : ∀ rest, room = rest + 1 → ∃ importPart, importPart? = some importPart ∧
      ∀ id, (importPart id).Balanced rest) :
    (importer.importWith importPart? id).Balanced room := by
  intro s r
  refine importWith_outcome ?leaf ?named ?entered ?cycle ?limited
  case leaf => exact fun walk n => balanced_importLeaf n s r
  case named => exact fun n identifier c => ImportWalk.Balanced.constructed s r
  case entered =>
    intro n c guard e importPart p
    obtain ⟨rest, rfl, r'⟩ := r.exists_succ e
    obtain ⟨_, rfl, parts⟩ := h rest rfl
    cases p
    exact run_importEntered_balanced (balanced_importStructure n parts) r' e
  case cycle =>
    intro n c guard e
    have same := WalkGuard.sameKeys_of_enter e (by simp)
    exact (balanced_identifierFor.bind fun _ => .constructed).after r same
  case limited =>
    intro n c answer guard e limit
    have refused : answer ≠ .entered := by
      rintro rfl
      obtain ⟨rest, rfl, -⟩ := r.exists_succ e
      obtain ⟨_, rfl, -⟩ := h rest rfl
      simp at limit
    exact ImportWalk.Balanced.fail.after r (WalkGuard.sameKeys_of_enter e refused)

/-- Importing a type leaves the keys of the guard as they are. -/
theorem balanced_importType : (importer.importType room id).Balanced room := by
  induction room generalizing id with
  | zero => exact balanced_importWith fun rest e => by cases e
  | succ room ih =>
    apply balanced_importWith
    rintro rest e
    obtain rfl := Nat.succ.inj e
    exact ⟨importer.importType room, rfl, fun id => ih⟩

lemma balanced_importRoot :
    (importer.importRoot id).Balanced importer.options.maxDepth.toNat := balanced_importType

lemma balanced_importChecked :
    (importer.importChecked id).Balanced importer.options.maxDepth.toNat := by
  apply balanced_importRoot.bind
  intro node
  refine ImportWalk.Balanced.bind ?_ fun _ => .pure
  cases checkReferences node with
  | ok => exact .pure
  | error => exact .fail

/-- An import starts with the whole depth limit as its room. -/
lemma hasRoom_start : importer.start.HasRoom importer.options.maxDepth.toNat := by
  show importer.options.maxDepth.toNat ≤ 0 + importer.options.maxDepth.toNat
  omega

end Importer

end TypeSchema
