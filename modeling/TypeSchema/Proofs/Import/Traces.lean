import TypeSchema.Graph.Queries
import TypeSchema.Graph.Store
import TypeSchema.Proofs.Import.Balanced
import TypeSchema.Proofs.Import.Looser

/-!
# What a failed import leaves behind

An import that stops has left every type that it entered, and none is in progress. What it leaves
behind are the identifiers it has claimed, and the types it has completed under them: later imports
refer to these types, though no tree was handed out that names them. A failed import that has
claimed no identifier changes no other import, as long as the work it has spent is not missed.
-/

namespace TypeSchema

namespace ImportState

/-- Only a type that the walk is inside of has an identifier without being completed, and the
attempts are those that can be counted. -/
structure Sound (s : ImportState) : Prop where
  entered : ∀ id identifier, s.currentIdentifier? id = some identifier → id ∈ s.guard.visiting
  counted : s.guard.iterations < UInt32.size

/-- Two states give the same identifiers to types, and to those that are named next. -/
structure SameNames (s t : ImportState) : Prop where
  current : ∀ id, t.currentIdentifier? id = s.currentIdentifier? id
  named : t.named = s.named
  anonymousCount : t.anonymousCount = s.anonymousCount

/-- What an import makes of a state, whether it succeeds or stops: it leaves what it enters, and
unless it claims an identifier it names no type. -/
structure Leaves (s t : ImportState) : Prop where
  keys : s.SameKeys t
  named : s.named <:+ t.named
  used : s.usedIdentifiers <:+ t.usedIdentifiers
  sound : s.Sound → t.Sound
  iterations : s.Sound → s.guard.iterations ≤ t.guard.iterations
  quiet : s.Sound → t.usedIdentifiers = s.usedIdentifiers → s.SameNames t

variable {s t u : ImportState} {id : TypeId}

lemma SameNames.refl (s : ImportState) : s.SameNames s := ⟨fun _ => rfl, rfl, rfl⟩

lemma SameNames.trans (h : s.SameNames t) (h' : t.SameNames u) : s.SameNames u :=
  ⟨fun id => (h'.current id).trans (h.current id), h'.named.trans h.named,
    h'.anonymousCount.trans h.anonymousCount⟩

/-- An attempt is counted. -/
lemma Sound.iterations_of_enter (i : s.Sound) {answer : GuardAnswer} {guard : WalkGuard TypeId}
    (e : s.guard.enter id = (answer, guard)) :
    s.guard.iterations ≤ guard.iterations ∧ guard.iterations < UInt32.size := by
  have counted := i.counted
  have next : guard.iterations = min (s.guard.iterations + 1) (UInt32.size - 1) :=
    WalkGuard.iterations_of_enter e
  omega

/-- The state inside of a type that was entered is sound. -/
lemma Sound.begin (i : s.Sound) {guard : WalkGuard TypeId}
    (e : s.guard.enter id = (.entered, guard)) : (s.begin guard id).Sound := by
  refine ⟨fun j k c => ?_, (i.iterations_of_enter e).2⟩
  rw [Importer.visiting_begin e]
  unfold ImportState.begin at c
  rw [currentIdentifier?_setProgress] at c
  split at c
  case isTrue => cases c
  case isFalse => exact List.mem_cons_of_mem _ (i.entered j k c)

namespace Leaves

lemma refl (s : ImportState) : s.Leaves s :=
  ⟨.refl _, List.suffix_rfl, List.suffix_rfl, id, fun _ => Nat.le_refl _, fun _ _ => .refl s⟩

lemma trans (s t u : ImportState) (h : s.Leaves t) (h' : t.Leaves u) : s.Leaves u := by
  refine ⟨h.keys.trans h'.keys, h.named.trans h'.named, h.used.trans h'.used,
    fun i => h'.sound (h.sound i),
    fun i => Nat.le_trans (h.iterations i) (h'.iterations (h.sound i)), fun i e => ?_⟩
  -- What is used between two states that use the same is the same too.
  have between : t.usedIdentifiers = s.usedIdentifiers := by
    refine (h.used.eq_of_length_le ?_).symm
    rw [← e]
    exact h'.used.length_le
  exact (h.quiet i between).trans (h'.quiet (h.sound i) (e.trans between.symm))

lemma hasRoom {room : Nat} (s t : ImportState) (r : s.HasRoom room) (h : s.Leaves t) :
    t.HasRoom room := h.keys.hasRoom r

/-- An attempt that enters nothing is counted alone. -/
lemma counted {answer : GuardAnswer} {guard : WalkGuard TypeId}
    (e : s.guard.enter id = (answer, guard)) (n : answer ≠ .entered) :
    s.Leaves { s with guard } := by
  have keys := WalkGuard.sameKeys_of_enter e n
  refine ⟨keys, List.suffix_rfl, List.suffix_rfl, fun i => ⟨fun j k c => ?_, ?_⟩,
    fun i => (i.iterations_of_enter e).1, fun _ _ => ⟨fun _ => rfl, rfl, rfl⟩⟩
  · show j ∈ guard.visiting
    rw [keys.visiting]
    exact i.entered j k c
  · exact (i.iterations_of_enter e).2

/-- A state that uses one more identifier names types as it likes. -/
lemma of_claims {identifier : String} (guard : t.guard = s.guard) (named : s.named <:+ t.named)
    (used : t.usedIdentifiers = identifier :: s.usedIdentifiers)
    (entered : s.Sound →
      ∀ id identifier, t.currentIdentifier? id = some identifier → id ∈ s.guard.visiting) :
    s.Leaves t := by
  refine ⟨?_, named, used ▸ List.suffix_cons _ _, fun i => ⟨?_, ?_⟩, fun _ => ?_, fun _ e => ?_⟩
  · unfold SameKeys
    rw [guard]
    exact .refl _
  · rw [guard]
    exact entered i
  · rw [guard]
    exact i.counted
  · exact guard ▸ Nat.le_refl _
  · exact absurd (used.symm.trans e) (List.cons_ne_self _ _)

/-- A type that the walk is inside of is referred to. -/
lemma refer {importer : Importer} (m : id ∈ s.guard.visiting) :
    s.Leaves (importer.refer id s).2 := by
  rcases Importer.refer_cases importer id s with ⟨-, e⟩ | ⟨-, t, c, e⟩
  · rw [e]
    exact refl s
  · obtain ⟨-, count, rfl⟩ := c
    rw [e]
    refine of_claims rfl List.suffix_rfl rfl fun i j k c => ?_
    rw [currentIdentifier?_setProgress] at c
    split at c
    case isTrue f => exact f ▸ m
    case isFalse => exact i.entered j k c

section

variable {guard outer : WalkGuard TypeId} {inside : ImportState}
  (e : s.guard.enter id = (.entered, guard)) (within : (s.begin guard id).Leaves inside)
  (same : s.guard.SameKeys outer) (l : inside.guard.leave id = .ok outer)

include e within same l

/-- A type that was entered is left as if it had not been, but for what its parts leave. -/
lemma left : s.Leaves (inside.left outer id) := by
  obtain ⟨-, new, -, -⟩ := WalkGuard.enter_eq_entered.1 e
  have iterations : outer.iterations = inside.guard.iterations := by
    obtain ⟨-, rfl⟩ := WalkGuard.leave_eq_ok.1 l
    rfl
  refine ⟨same, within.named, within.used, fun i => ⟨fun j k c => ?_, ?_⟩, fun i => ?_,
    fun i u => ?_⟩
  · rw [currentIdentifier?_left] at c
    split at c
    case isTrue => cases c
    case isFalse f =>
      have m := (within.sound (i.begin e)).entered j k c
      rw [within.keys.visiting, Importer.visiting_begin e] at m
      show j ∈ outer.visiting
      rw [same.visiting]
      exact (List.mem_cons.1 m).resolve_left f
  · show outer.iterations < _
    rw [iterations]
    exact (within.sound (i.begin e)).counted
  · show _ ≤ outer.iterations
    rw [iterations]
    exact Nat.le_trans (i.iterations_of_enter e).1 (within.iterations (i.begin e))
  · have names := within.quiet (i.begin e) u
    refine ⟨fun j => ?_, names.named, names.anonymousCount⟩
    rw [currentIdentifier?_left]
    split
    case isTrue f =>
      subst f
      cases c : s.currentIdentifier? j with
      | none => rfl
      | some k => exact absurd (i.entered j k c) new
    case isFalse f =>
      rw [names.current]
      unfold ImportState.begin
      rw [currentIdentifier?_setProgress, if_neg f]
      rfl

/-- A type that was left is completed under an identifier only if one was claimed. -/
lemma completed {importer : Importer} {isNested : Bool} {identifier : Option String}
    (o : importer.conclude isNested id (inside.currentIdentifier? id) (inside.left outer id) =
      (identifier, t)) : s.Leaves (t.complete id identifier) := by
  have left := left e within same l
  unfold Importer.conclude at o
  cases c : inside.currentIdentifier? id with
  | some current =>
    -- The type was referred to inside of itself, and has claimed its identifier then.
    rw [c] at o
    cases o
    refine ⟨left.keys, left.named.trans (List.suffix_cons _ _), left.used,
      fun i => ⟨(left.sound i).entered, (left.sound i).counted⟩, left.iterations, fun i u => ?_⟩
    have names := (within.quiet (i.begin e) u).current id
    rw [c] at names
    unfold ImportState.begin at names
    rw [currentIdentifier?_setProgress, if_pos rfl] at names
    cases names
  | none =>
    rw [c] at o
    dsimp only at o
    split at o
    case isFalse =>
      cases o
      exact left
    case isTrue =>
      split at o
      case h_1 name _ =>
        cases o
        rw [claim_state]
        exact trans _ _ _ left (of_claims rfl (List.suffix_cons _ _) rfl fun i => i.entered)
      case h_2 =>
        cases o
        exact left

end

end Leaves

end ImportState

namespace Importer

open ImportState

variable {importer : Importer} {room : Nat} {id : TypeId} {α : Type}

/-- Where there is room enough, whatever the import ends with, it leaves a state as `Leaves`
says. -/
def Tidy (room : Nat) (walk : ImportWalk α) : Prop :=
  walk.BehavesFrom (·.HasRoom room) Leaves fun _ => True

lemma tidy_pure {a : α} : Tidy room (pure a) := (Walk.behaves_pure Leaves.refl).behavesFrom

lemma tidy_fail {error : ImportError} : Tidy room (Walk.fail error : ImportWalk α) :=
  (Walk.behaves_fail Leaves.refl trivial).behavesFrom

lemma leaves_constructed {result : Except ConstructionError α} :
    (ImportWalk.constructed result).Behaves Leaves fun _ => True := by
  cases result with
  | ok => exact Walk.behaves_pure Leaves.refl
  | error => exact Walk.behaves_fail Leaves.refl trivial

lemma tidy_importLeaf {leaf : ImportWalk Schema}
    (e : importer.importLeaf? id (importer.checker.flags id) = some leaf) : Tidy room leaf := by
  rcases importLeaf_cases e with ⟨node, rfl⟩ | rfl
  · exact tidy_pure
  · exact tidy_fail

/-- A reference is made to a type that the walk is inside of. -/
lemma leaves_cycle :
    (do ImportWalk.constructed (Schema.referenceTo (← importer.identifierFor id)) :
      ImportWalk Schema).BehavesFrom (id ∈ ·.guard.visiting) Leaves fun _ => True := by
  refine Walk.BehavesFrom.bind Leaves.trans (fun s t m l => l.keys.visiting ▸ m) ?_
    fun identifier => leaves_constructed.behavesFrom
  intro s m
  have g : (importer.identifierFor id).run s =
      (.ok (importer.refer id s).1, (importer.refer id s).2) := gives_identifierFor.2 rfl
  rw [g]
  exact ⟨.refer m, fun _ _ => trivial⟩

/-- The structure of a type is imported as its parts are. -/
lemma tidy_importStructure {importPart : TypeId → ImportWalk Schema}
    (n : importer.importLeaf? id (importer.checker.flags id) = none)
    (h : ∀ id, Tidy room (importPart id)) :
    Tidy room (importer.importStructure importPart id (importer.checker.flags id)) := by
  rw [importStructure_eq n]
  refine Walk.BehavesFrom.bind Leaves.trans Leaves.hasRoom
    (.mapM Leaves.refl Leaves.trans Leaves.hasRoom fun step => ?_) fun nodes => tidy_pure
  cases step with
  | part id => exact h id
  | stop error => exact tidy_fail

/-- A type that was entered is left again, whether its structure is imported or not. -/
lemma leaves_importEntered {body : ImportWalk Schema} {isNested : Bool} {s : ImportState}
    {guard : WalkGuard TypeId} (h : Tidy room body) (r : HasRoom room (s.begin guard id))
    (e : s.guard.enter id = (.entered, guard)) :
    s.Leaves ((importer.importEntered body isNested id).run { s with guard }).2 := by
  have within := (h _ r).1
  obtain ⟨outer, l, same⟩ := WalkGuard.exists_leave_of_entered e within.keys
  refine importEntered_outcome ?misused ?stopped ?completed
  case misused =>
    intro result inside misuse b l'
    rw [show body.run (s.begin guard id) = _ from b] at l
    cases l.symm.trans l'
  case stopped =>
    intro stop inside guard' b l'
    rw [show body.run (s.begin guard id) = _ from b] at within l
    cases l.symm.trans l'
    exact .left e within same l
  case completed =>
    intro built inside guard' identifier t b l' concluded
    rw [show body.run (s.begin guard id) = _ from b] at within l
    cases l.symm.trans l'
    exact .completed e within same l concluded

/-- A type is entered only where there is a walk for its parts. -/
lemma tidy_importWith {importPart? : Option (TypeId → ImportWalk Schema)}
    (h : ∀ rest, room = rest + 1 → ∃ importPart, importPart? = some importPart ∧
      ∀ id, Tidy rest (importPart id)) : Tidy room (importer.importWith importPart? id) := by
  intro s r
  refine ⟨?_, fun _ _ => trivial⟩
  refine importWith_outcome ?leaf ?named ?entered ?cycle ?limited
  case leaf => exact fun walk n => (tidy_importLeaf n s r).1
  case named => exact fun n identifier c => (leaves_constructed s).1
  case entered =>
    intro n c guard e importPart p
    obtain ⟨rest, rfl, r'⟩ := r.exists_succ e
    obtain ⟨_, rfl, parts⟩ := h rest rfl
    cases p
    exact leaves_importEntered (tidy_importStructure n parts) r' e
  case cycle =>
    intro n c guard e
    have counted := Leaves.counted e (by simp)
    have m : id ∈ guard.visiting := by
      rw [counted.keys.visiting]
      exact (WalkGuard.enter_eq_cycle.1 e).2.1
    exact .trans _ _ _ counted (leaves_cycle _ m).1
  case limited =>
    intro n c answer guard e limit
    have refused : answer ≠ .entered := by
      rintro rfl
      obtain ⟨rest, rfl, -⟩ := r.exists_succ e
      obtain ⟨_, rfl, -⟩ := h rest rfl
      simp at limit
    exact .counted e refused

/-- Importing a type leaves the state as it was found, but for identifiers. -/
theorem tidy_importType : Tidy room (importer.importType room id) := by
  induction room generalizing id with
  | zero => exact tidy_importWith fun rest e => by cases e
  | succ room ih =>
    apply tidy_importWith
    rintro rest e
    obtain rfl := Nat.succ.inj e
    exact ⟨importer.importType room, rfl, fun id => ih⟩

/-- So do imports one after the other. -/
lemma leaves_importEach {ids : List TypeId} :
    importer.start.Leaves (importer.importEach ids).2 := by
  refine (Walk.BehavesFrom.runEach (Q := fun _ => True) Leaves.refl Leaves.trans Leaves.hasRoom ?_
    hasRoom_start).1
  intro walk m
  obtain ⟨id, -, rfl⟩ := List.mem_map.1 m
  exact tidy_importType

/-- An import starts in a sound state. -/
lemma sound_start : importer.start.Sound := by
  refine ⟨fun id identifier c => ?_, ?_⟩
  · cases c
  · show 0 < UInt32.size
    decide

/-! ## Imports after a failed one -/

lemma importRoot_follows :
    ImportWalk.Follows False (importer.importRoot id) (importer.importRoot id) := by
  have same : importer.options.Looser False importer.options := ⟨rfl, .inl rfl⟩
  exact importType_follows same (Nat.le_refl _) (.inr rfl)

lemma importChecked_follows :
    ImportWalk.Follows False (importer.importChecked id) (importer.importChecked id) := by
  refine Walk.Follows.bind importRoot_follows fun node => ?_
  exact Walk.Follows.bind Walk.follows_ofExcept fun _ => Walk.follows_pure

/-- A state in which no identifier was claimed since allows as much as it does now, or more. -/
lemma looser_of_leaves {s t : ImportState} (l : s.Leaves t) (i : s.Sound)
    (u : t.usedIdentifiers = s.usedIdentifiers) : t.Looser False s := by
  have names := l.quiet i u
  exact ⟨.of_sameKeys l.keys (l.iterations i), fun id => (names.current id).symm, names.named.symm,
    u.symm, names.anonymousCount.symm⟩

/-- Work that is spent stays spent. -/
lemma spent_of_leaves {s t : ImportState} (l : s.Leaves t) (i : s.Sound) (x : s.guard.Spent) :
    t.guard.Spent := by
  have more := l.iterations i
  unfold WalkGuard.Spent at x ⊢
  rw [l.keys.limits]
  omega

/-- Imports in a state that allows more have the same outcomes, unless the work is spent. -/
lemma runEach_looser {ids : List TypeId} {s t : ImportState} (looser : t.Looser False s)
    (i : t.Sound) (r : t.HasRoom importer.options.maxDepth.toNat)
    (n : ¬ (Walk.runEach (ids.map importer.importRoot) t).2.guard.Spent) :
    (Walk.runEach (ids.map importer.importRoot) s).1 =
        (Walk.runEach (ids.map importer.importRoot) t).1 ∧
      (Walk.runEach (ids.map importer.importRoot) t).2.Looser False
        (Walk.runEach (ids.map importer.importRoot) s).2 := by
  have each : ∀ walk ∈ ids.map importer.importRoot, ImportWalk.Follows False walk walk ∧
      Tidy importer.options.maxDepth.toNat walk := by
    intro walk m
    obtain ⟨id, -, rfl⟩ := List.mem_map.1 m
    exact ⟨importRoot_follows, tidy_importType⟩
  refine Walk.Follows.runEach (I := fun s => s.HasRoom importer.options.maxDepth.toNat ∧ s.Sound)
    (fun walk m => (each walk m).1) (fun walk m s i => (each walk m).2 s i.1) Leaves.refl
    Leaves.trans ?_ ?_ ⟨r, i⟩ looser ?_
  · exact fun s t i l => ⟨Leaves.hasRoom s t i.1 l, l.sound i.2⟩
  · exact fun s t i l x => x.imp_right (spent_of_leaves l i.2)
  · exact fun x => n (x.resolve_left id)

/-- Imports after others start in the state that these leave. -/
lemma importEach_append {before after : List TypeId} :
    importer.importEach (before ++ after) =
      ((importer.importEach before).1 ++
          (Walk.runEach (after.map importer.importRoot) (importer.importEach before).2).1,
        (Walk.runEach (after.map importer.importRoot) (importer.importEach before).2).2) := by
  unfold importEach
  rw [List.map_append, Walk.runEach_append]

/-- An import that stops leaves no type entered or in progress, and takes back no identifier. If it
claimed none, then all other imports have the outcomes that they have without it, and so has a last
one whose references are checked, as long as the work is not spent. -/
theorem outcomes_without_failed {before : List TypeId} {bad : TypeId}
    {stop : WalkStop ImportError}
    (fails : ((importer.importRoot bad).run (importer.importEach before).2).1 = .error stop) :
    let s := (importer.importEach before).2
    let t := ((importer.importRoot bad).run s).2
    (t.guard.Idle ∧ (∀ id, t.currentIdentifier? id = none) ∧ s.named <:+ t.named ∧
      s.usedIdentifiers <:+ t.usedIdentifiers) ∧
    (t.usedIdentifiers = s.usedIdentifiers →
      ∀ after, ¬ (importer.importEach (before ++ bad :: after)).2.guard.Spent →
        (importer.importEach (before ++ after)).1 =
          (importer.importEach (before ++ bad :: after)).1.eraseIdx before.length ∧
        ∀ last, ¬ ((importer.importChecked last).run
            (importer.importEach (before ++ bad :: after)).2).2.guard.Spent →
          importer.importLast (before ++ after) last =
            importer.importLast (before ++ bad :: after) last) := by
  intro s t
  have earlier : importer.start.Leaves s := leaves_importEach
  have sound : s.Sound := earlier.sound sound_start
  have room := Leaves.hasRoom _ _ hasRoom_start earlier
  have leaves : s.Leaves t := (tidy_importType s room).1
  have idle : t.guard.Idle := (earlier.keys.trans leaves.keys).idle WalkGuard.idle_new
  refine ⟨⟨idle, fun id => ?_, leaves.named, leaves.used⟩, fun unclaimed after enough => ?_⟩
  · cases c : t.currentIdentifier? id with
    | none => rfl
    | some identifier =>
      have m := (leaves.sound sound).entered id identifier c
      rw [idle.visiting] at m
      cases m
  · have failed : importer.importEach (before ++ bad :: after) =
        ((importer.importEach before).1 ++
            .error stop :: (Walk.runEach (after.map importer.importRoot) t).1,
          (Walk.runEach (after.map importer.importRoot) t).2) := by
      rw [importEach_append, ← fails]
      rfl
    have length : (importer.importEach before).1.length = before.length := by
      unfold importEach
      rw [Walk.length_runEach, List.length_map]
    rw [failed] at enough ⊢
    obtain ⟨same, left⟩ := runEach_looser (looser_of_leaves leaves sound unclaimed)
      (leaves.sound sound) (Leaves.hasRoom _ _ room leaves) enough
    refine ⟨?_, fun last enough => ?_⟩
    · rw [importEach_append, List.eraseIdx_append_of_length_le (Nat.le_of_eq length), length,
        Nat.sub_self]
      exact congrArg (_ ++ ·) same
    · unfold importLast finish
      rw [failed, importEach_append]
      rcases importChecked_follows _ _ left with ⟨outcome, left⟩ | ⟨x, -⟩
      · rw [left.guard.close, outcome]
      · exact absurd (x.resolve_left id) enough

/-- A store with a named object type, and with a tuple that has no schema. -/
def refusedTuple : TypeStore :=
  let (named, store) := TypeStore.new.object []
  let store := store.setAliasName named "Named"
  (store.tuple [⟨.string, false, false⟩, ⟨.never, false, false⟩]).2

/-- An importer of the store that may try to enter ten types in all. -/
def refusedImporter : Importer :=
  ⟨refusedTuple.checker, "types.ts", { maxDepth := 2, maxIterations := 10 }⟩

/-- The tuple can be left out between the imports of the object. -/
theorem outcomes_without_refusedTuple :
    (refusedImporter.importEach ([⟨13⟩] ++ [⟨13⟩])).1 =
        (refusedImporter.importEach ([⟨13⟩] ++ ⟨14⟩ :: [⟨13⟩])).1.eraseIdx 1 ∧
      refusedImporter.importLast ([⟨13⟩] ++ [⟨13⟩]) ⟨13⟩ =
        refusedImporter.importLast ([⟨13⟩] ++ ⟨14⟩ :: [⟨13⟩]) ⟨13⟩ := by
  have fails : ((refusedImporter.importRoot ⟨14⟩).run (refusedImporter.importEach [⟨13⟩]).2).1 =
      .error (.failed (.unsupportedType "never" "types.ts")) := by rfl
  have enough : ¬ (refusedImporter.importEach ([⟨13⟩] ++ ⟨14⟩ :: [⟨13⟩])).2.guard.Spent := by
    unfold WalkGuard.Spent
    decide +kernel
  have enoughLast : ¬ ((refusedImporter.importChecked ⟨13⟩).run
      (refusedImporter.importEach ([⟨13⟩] ++ ⟨14⟩ :: [⟨13⟩])).2).2.guard.Spent := by
    unfold WalkGuard.Spent
    decide +kernel
  obtain ⟨others, last⟩ := (outcomes_without_failed fails).2 (by rfl) [⟨13⟩] enough
  exact ⟨others, last ⟨13⟩ enoughLast⟩

/-- If the tuple holds the object instead of `string`, it claims the name of the object before it is
refused, and the object is referred to by that name from then on. -/
example :
    let (named, store) := TypeStore.new.object []
    let store := store.setAliasName named "Named"
    let (tuple, store) := store.tuple [⟨named, false, false⟩, ⟨.never, false, false⟩]
    let importer : Importer := ⟨store.checker, "types.ts", {}⟩
    importer.importLast [] named = .ok (.object [] {}) ∧
      importer.importLast [tuple] named = .error (.failed (.recursionIntegrity "Named")) := by
  exact ⟨by rfl, by rfl⟩

end Importer

end TypeSchema
