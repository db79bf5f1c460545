import TypeSchema.Proofs.Import.Balanced
import TypeSchema.Proofs.Import.Grounded

/-!
# What an import accepts

A type is blocked if its rule stops, whatever its parts are imported as. Unless a limit is reached,
an import succeeds exactly if no type that it reaches is blocked, and stops for the reason for which
one of them is: a type that is not visited again was dealt with before, or is still being dealt
with, and the names that are given to types are never empty.
-/

namespace TypeSchema

namespace ImportState

variable {s t : ImportState}

/-- The candidate that is taken is numbered. -/
lemma exists_of_firstFree {used : List String} {candidate : Nat → String} {tries number : Nat} :
    ∃ k, (firstFree used candidate tries number).1 = candidate k := by
  induction tries generalizing number with
  | zero => exact ⟨number, rfl⟩
  | succ tries ih =>
    unfold firstFree
    split
    · exact ih
    · exact ⟨number, rfl⟩

/-- A numbered name is not empty. -/
lemma append_toString_ne {start : String} {k : Nat} : start ++ toString k ≠ "" := by
  intro e
  have digits : start.toList ++ Nat.toDigits 10 k = [] := by
    rw [← Nat.toList_repr, ← String.toList_append]
    exact congrArg String.toList e
  exact Nat.toDigits_ne_nil (List.append_eq_nil_iff.1 digits).2

lemma claim_ne {name : String} (n : name ≠ "") : (s.claim name).1 ≠ "" := by
  unfold claim
  split
  · obtain ⟨k, e⟩ := @exists_of_firstFree s.usedIdentifiers (fun number => name ++ toString number)
      s.usedIdentifiers.length 2
    show (firstFree _ _ _ _).1 ≠ ""
    rw [e]
    exact append_toString_ne
  · exact n

lemma claimAnonymous_ne {start : String} : (s.claimAnonymous start).1 ≠ "" := by
  obtain ⟨k, e⟩ := @exists_of_firstFree s.usedIdentifiers (fun number => start ++ toString number)
    s.usedIdentifiers.length (s.anonymousCount + 1)
  show (firstFree _ _ _ _).1 ≠ ""
  rw [e]
  exact append_toString_ne

end ImportState

namespace Importer

open ImportState

variable {importer : Importer} {id root part : TypeId} {s s' : ImportState} {node : Schema}
  {error : ImportError}

/-- The rule of the type stops for a reason of its own. -/
def Blocks (importer : Importer) (id : TypeId) (error : ImportError) : Prop :=
  importer.importLeaf? id (importer.checker.flags id) = some (Walk.fail error) ∨
    importer.importLeaf? id (importer.checker.flags id) = none ∧ .stop error ∈ importer.steps id

/-- A type that is a leaf is not blocked. -/
lemma LeafNode.not_blocks (l : importer.LeafNode id node) : ¬ importer.Blocks id error := by
  rintro (f | ⟨n, -⟩)
  · obtain ⟨leaf, e, g⟩ := l.gives
    obtain rfl := Option.some.inj (e.symm.trans f)
    exact Walk.not_gives_fail (g importer.start)
  · exact l.importLeaf?_ne_none n

/-- A type whose steps import types is not blocked. -/
lemma not_blocks_of_steps {ids : List TypeId}
    (n : importer.importLeaf? id (importer.checker.flags id) = none)
    (p : importer.steps id = ids.map .part) : ¬ importer.Blocks id error := by
  rintro (f | ⟨-, m⟩)
  · cases n.symm.trans f
  · rw [p] at m
    obtain ⟨part, -, e⟩ := List.mem_map.1 m
    cases e

/-! ## Success -/

/-- The types are dealt with: none is blocked, and their parts are dealt with or entered. -/
structure Clears (importer : Importer) (s : ImportState) (clear : TypeId → Prop) : Prop where
  named : ∀ id identifier, (id, identifier) ∈ s.named → clear id
  unblocked : ∀ id, clear id → ∀ error, ¬ importer.Blocks id error
  closed : ∀ id, clear id → ∀ part, importer.Edge id part → clear part ∨ part ∈ s.guard.visiting

/-- Parts that are dealt with one after the other are dealt with in the end. -/
lemma clears_of_threads {P : TypeId → ImportState → Schema → ImportState → Prop}
    {ids : List TypeId} {nodes : List Schema} (h : Walk.Threads P ids s nodes s')
    (step : ∀ id t node t', P id t node t' → t.Consistent → (t'.Consistent ∧ t.Extends t') ∧
      ∀ clear, importer.Clears t clear → ∃ clear' : TypeId → Prop, (∀ j, clear j → clear' j) ∧
        importer.Clears t' clear' ∧ (clear' id ∨ id ∈ t.guard.visiting))
    (c : s.Consistent) {clear : TypeId → Prop} (k : importer.Clears s clear) :
    ∃ clear' : TypeId → Prop, (∀ j, clear j → clear' j) ∧ importer.Clears s' clear' ∧
      ∀ id ∈ ids, clear' id ∨ id ∈ s.guard.visiting := by
  induction h generalizing clear with
  | nil => exact ⟨clear, fun _ h => h, k, fun _ m => absurd m List.not_mem_nil⟩
  | cons r _ ih =>
    obtain ⟨⟨c1, x⟩, first⟩ := step _ _ _ _ r c
    obtain ⟨clear1, more1, k1, here⟩ := first clear k
    obtain ⟨clear2, more2, k2, rest⟩ := ih c1 k1
    rw [x.visiting] at rest
    refine ⟨clear2, fun j h => more2 j (more1 j h), k2, ?_⟩
    rintro id (_ | ⟨_, m⟩)
    · exact here.imp_left (more2 _)
    · exact rest id m

/-- An import that succeeds has dealt with the type, or is still inside of it. -/
theorem Imports.clears (h : importer.Imports id s node s') (c : s.Consistent)
    {clear : TypeId → Prop} (k : importer.Clears s clear) :
    ∃ clear' : TypeId → Prop, (∀ j, clear j → clear' j) ∧ importer.Clears s' clear' ∧
      (clear' id ∨ id ∈ s.guard.visiting) := by
  induction h using Imports.induct generalizing clear with
  | @leaf id s node l =>
    refine ⟨fun j => j = id ∨ clear j, fun _ => .inr, ⟨fun j i m => .inr (k.named j i m), ?_, ?_⟩,
      .inl (.inl rfl)⟩
    · rintro j (rfl | h)
      · exact fun _ => l.not_blocks
      · exact k.unblocked j h
    · rintro j (rfl | h) part e
      · exact absurd e l.not_edge
      · exact (k.closed j h part e).imp_left .inr
  | named _ e _ => exact ⟨clear, fun _ h => h, k, .inl (k.named _ _ (mem_of_lookup e))⟩
  | @cycle id s guard _ _ e _ =>
    obtain ⟨-, m, rfl⟩ := WalkGuard.enter_eq_cycle.1 e
    refine ⟨clear, fun _ h => h, ⟨?_, k.unblocked, ?_⟩, .inr m⟩
    · rw [refer_named]
      exact k.named
    · rw [guard_refer]
      exact k.closed
  | @entered id s guard ids nodes inside guard' identifier s1 n u e p all l o ih =>
    have cb := c.begin u e
    have begins : importer.Clears (s.begin guard id) clear := by
      refine ⟨k.named, k.unblocked, fun j h part e' => (k.closed j h part e').imp_right fun m => ?_⟩
      rw [visiting_begin e]
      exact List.mem_cons_of_mem _ m
    obtain ⟨clear', more, ki, parts⟩ := clears_of_threads ih
      (fun _ _ _ _ ⟨h, q⟩ c => ⟨h.consistent c, fun clear k => q c k⟩) cb begins
    obtain ⟨ci, x⟩ := threads_consistent all cb
    have entered := x.visiting.trans (visiting_begin e)
    obtain ⟨-, g, named, -⟩ := complete_of_conclude ci entered l o
    -- The type is left with its parts dealt with, so that it is dealt with itself.
    have left : (s1.complete id identifier).guard.visiting = s.guard.visiting := by
      obtain ⟨-, rfl⟩ := WalkGuard.leave_eq_ok.1 l
      rw [g]
      show inside.guard.visiting.erase id = _
      rw [entered, List.erase_cons_head]
    have still : ∀ part, clear' part ∨ part ∈ inside.guard.visiting →
        (part = id ∨ clear' part) ∨ part ∈ (s1.complete id identifier).guard.visiting := by
      rw [left, entered]
      rintro part (h | h)
      · exact .inl (.inr h)
      · exact (List.mem_cons.1 h).imp_left .inl
    refine ⟨fun j => j = id ∨ clear' j, fun j h => .inr (more j h), ⟨?_, ?_, ?_⟩, .inl (.inl rfl)⟩
    · intro j i m
      rw [named] at m
      rcases List.mem_append.1 m with m | m
      · obtain ⟨_, -, f⟩ := Option.map_eq_some_iff.1 (Option.mem_toList.1 m)
        cases f
        exact .inl rfl
      · exact .inr (ki.named j i m)
    · rintro j (rfl | h)
      · exact fun _ => not_blocks_of_steps n p
      · exact ki.unblocked j h
    · rintro j (rfl | h) part f
      · refine still part ?_
        unfold Edge at f
        rw [p] at f
        obtain ⟨part', m, f⟩ := List.mem_map.1 f
        cases f
        rw [entered, ← visiting_begin e]
        exact parts part m
      · exact still part (ki.closed j h part f)

/-- An import of a root that succeeds reaches no blocked type. -/
lemma not_blocks_of_gives (h : (importer.importRoot root).Gives importer.start node s') {j : TypeId}
    (r : importer.Reaches root j) : ¬ importer.Blocks j error := by
  have none : importer.Clears importer.start fun _ => False :=
    ⟨fun _ _ m => absurd m List.not_mem_nil, fun _ h => h.elim, fun _ h => h.elim⟩
  obtain ⟨clear, -, k, here⟩ := (imports_of_gives h).clears consistent_start none
  have outside : s'.guard.visiting = [] := by
    rw [((imports_of_gives h).consistent consistent_start).2.visiting]
    rfl
  have reached : ∀ j, importer.Reaches root j → clear j := by
    intro j r
    induction r with
    | refl => exact here.resolve_right List.not_mem_nil
    | tail _ edge ih =>
      have next := k.closed _ ih _ edge
      rw [outside] at next
      exact next.resolve_right List.not_mem_nil
  exact k.unblocked j (reached j r) error

/-! ## Failure -/

/-- The import of the type stops at a limit, or for the reason for which a type that it reaches is
blocked. -/
def Blamed (importer : Importer) (id : TypeId) : WalkStop ImportError → Prop
  | .failed error => (∃ text, error = .depthLimitExceeded text) ∨
      ∃ bad, importer.Reaches id bad ∧ importer.Blocks bad error
  | .misused _ => True

/-- What the import of a part is blamed for, that of the type is. -/
lemma Blamed.of_edge (e : importer.Edge id part) {stop : WalkStop ImportError}
    (b : importer.Blamed part stop) : importer.Blamed id stop := by
  cases stop with
  | misused => trivial
  | failed error => exact b.imp_right fun ⟨bad, r, blocks⟩ => ⟨bad, .head e r, blocks⟩

/-- The state is consistent, and uses no empty identifier. -/
structure Proper (s : ImportState) : Prop where
  consistent : s.Consistent
  used : "" ∉ s.usedIdentifiers

lemma not_mem_claim {name : String} (n : "" ∉ s.usedIdentifiers) (ne : name ≠ "") :
    "" ∉ (s.claim name).2.usedIdentifiers := by
  rw [claim_state]
  exact fun m => (List.mem_cons.1 m).elim (fun e => claim_ne ne e.symm) n

lemma aliasName?_ne {name : String} (h : importer.aliasName? id = some name) : name ≠ "" := by
  simpa using (Option.filter_eq_some_iff.1 h).2

lemma Proper.counted {guard : WalkGuard TypeId} (i : Proper s)
    (e : s.guard.enter id = (.cycle, guard)) : Proper { s with guard } := by
  obtain ⟨-, -, rfl⟩ := WalkGuard.enter_eq_cycle.1 e
  exact ⟨i.consistent.count _, i.used⟩

/-- A type is referred to by a name that is not empty. -/
lemma Proper.refer (i : Proper s) (importer : Importer) (id : TypeId) :
    (importer.refer id s).1 ≠ "" ∧ "" ∉ (importer.refer id s).2.usedIdentifiers := by
  unfold Importer.refer
  cases e : s.currentIdentifier? id with
  | some identifier =>
    refine ⟨?_, i.used⟩
    rintro rfl
    exact i.used (i.consistent.used id _ (.inr e))
  | none =>
    cases a : importer.aliasName? id with
    | some name => exact ⟨claim_ne (aliasName?_ne a), not_mem_claim i.used (aliasName?_ne a)⟩
    | none =>
      have ne : (s.claimAnonymous importer.options.anonymousPrefix).1 ≠ "" := claimAnonymous_ne
      exact ⟨ne, fun m => (List.mem_cons.1 m).elim (fun e => ne e.symm) i.used⟩

/-- A type is completed under a name that is not empty. -/
lemma not_mem_conclude {isNested : Bool} {identifier : Option String}
    (n : "" ∉ s.usedIdentifiers) :
    "" ∉ (importer.conclude isNested id identifier s).2.usedIdentifiers := by
  unfold conclude
  split
  · exact n
  · split
    · split
      · exact not_mem_claim n (aliasName?_ne ‹_›)
      · exact n
    · exact n

/-- An import that succeeds leaves a proper state. -/
lemma Imports.proper (h : importer.Imports id s node s') (i : Proper s) : Proper s' := by
  refine ⟨(h.consistent i.consistent).1, ?_⟩
  induction h using Imports.induct with
  | leaf _ => exact i.used
  | named _ _ _ => exact i.used
  | cycle _ _ e _ => exact ((i.counted e).refer _ _).2
  | @entered id s guard ids nodes inside guard' identifier s1 _ u e _ _ _ o ih =>
    have last : (importer.conclude (1 < guard.depth) id (inside.currentIdentifier? id)
        (inside.left guard' id)).2 = s1 := congrArg Prod.snd o
    have inside := (ih.preserves (I := Proper) (E := fun _ _ => True) (fun _ => trivial)
      (fun _ _ _ _ _ => trivial) (fun _ _ _ _ ⟨h, q⟩ i => ⟨⟨(h.consistent i.consistent).1, q i⟩,
        trivial⟩) ⟨i.consistent.begin u e, i.used⟩).1
    rw [complete_usedIdentifiers, ← last]
    exact not_mem_conclude inside.used

/-- The structure of a type stops where it is blocked, or where one of its parts stops. -/
lemma stopsOnly_importStructure {importPart : TypeId → ImportWalk Schema}
    (n : importer.importLeaf? id (importer.checker.flags id) = none)
    (gives : ∀ part s node s', Proper s → (importPart part).Gives s node s' → Proper s')
    (parts : ∀ part, (importPart part).StopsOnly Proper (importer.Blamed part)) :
    (importer.importStructure importPart id (importer.checker.flags id)).StopsOnly Proper
      (importer.Blamed id) := by
  rw [importStructure_eq n]
  refine Walk.StopsOnly.bind_of_gives (.mapM (fun step m => ?_) fun step _ s node s' i g => ?_)
    fun _ _ => ⟨_, _, rfl⟩
  · cases step with
    | part part => exact fun s i stop s' e => (parts part s i stop s' e).of_edge m
    | stop error => exact Walk.stopsOnly_fail (.inr ⟨id, .refl, .inr ⟨n, m⟩⟩)
  · cases step with
    | part part => exact gives part s node s' i g
    | stop error => exact absurd g Walk.not_gives_fail

/-- A type that was entered stops where its structure does. -/
lemma stopsOnly_importEntered {body : ImportWalk Schema} {isNested : Bool} {I : ImportState → Prop}
    (h : body.StopsOnly (fun s => ∃ t, I t ∧ s = t.setProgress id none) (importer.Blamed id)) :
    (importer.importEntered body isNested id).StopsOnly I (importer.Blamed id) := by
  intro s i stop s' e
  rcases stop_of_importEntered e with ⟨inside, r⟩ | ⟨misuse, rfl⟩
  · exact h _ ⟨s, i, rfl⟩ _ _ r
  · trivial

/-- A type stops where it is blocked or one of its parts stops, or at a limit. -/
lemma stopsOnly_importWith {importPart? : Option (TypeId → ImportWalk Schema)}
    (gives : ∀ importPart ∈ importPart?, ∀ part s node s', Proper s →
      (importPart part).Gives s node s' → Proper s')
    (parts : ∀ importPart ∈ importPart?, ∀ part,
      (importPart part).StopsOnly Proper (importer.Blamed part)) :
    (importer.importWith importPart? id).StopsOnly Proper (importer.Blamed id) := by
  intro s i stop s'
  refine importWith_outcome ?leaf ?named ?entered ?cycle ?limited
  case leaf =>
    intro walk n
    rcases importLeaf_cases n with ⟨node, rfl⟩ | rfl
    · exact Walk.stopsOnly_pure s i stop s'
    · exact Walk.stopsOnly_fail (.inr ⟨id, .refl, .inl n⟩) s i stop s'
  case named =>
    intro n identifier c e
    have ne : identifier ≠ "" := by
      rintro rfl
      exact i.used (i.consistent.used id _ (.inl (mem_of_lookup c)))
    have g := (@gives_referenceTo identifier s s _).2 ⟨ne, rfl, rfl⟩
    cases g.symm.trans e
  case entered =>
    intro n c guard a importPart p
    have structured := stopsOnly_importStructure n (gives importPart p) (parts importPart p)
    refine stopsOnly_importEntered (I := (· = { s with guard })) (structured.weaken ?_) _ rfl _ _
    rintro t ⟨t, rfl, rfl⟩
    exact ⟨i.consistent.begin c a, i.used⟩
  case cycle =>
    intro n c guard a e
    have ne := ((i.counted a).refer importer id).1
    have g : (do ImportWalk.constructed (Schema.referenceTo (← importer.identifierFor id)) :
        ImportWalk Schema).Gives { s with guard } _ _ :=
      Walk.gives_bind.2 ⟨_, _, gives_identifierFor.2 rfl, gives_referenceTo.2 ⟨ne, rfl, rfl⟩⟩
    cases g.symm.trans e
  case limited =>
    intro n c answer guard a limit e
    cases e
    exact .inl ⟨_, rfl⟩

/-- An import stops where a type that it reaches is blocked, or at a limit. -/
theorem stopsOnly_importType {room : Nat} :
    (importer.importType room id).StopsOnly Proper (importer.Blamed id) := by
  induction room generalizing id with
  | zero =>
    rw [importType_eq]
    exact stopsOnly_importWith (fun _ m => by cases m) fun _ m => by cases m
  | succ room ih =>
    rw [importType_eq]
    refine stopsOnly_importWith ?_ ?_
    · rintro _ ⟨rfl⟩ part s node s' i g
      exact (imports_of_gives g).proper i
    · rintro _ ⟨rfl⟩ part
      exact ih

/-- An import of a root that reaches no limit succeeds if no type that the root reaches is blocked,
and otherwise stops for the reason for which one of them is. -/
theorem importRoot_cases (limited : ∀ text, ((importer.importRoot root).run importer.start).1 ≠
      .error (.failed (.depthLimitExceeded text))) :
    ((∃ node, ((importer.importRoot root).run importer.start).1 = .ok node) ∧
        ∀ j error, importer.Reaches root j → ¬ importer.Blocks j error) ∨
      ∃ bad error, importer.Reaches root bad ∧ importer.Blocks bad error ∧
        ((importer.importRoot root).run importer.start).1 = .error (.failed error) := by
  cases e : (importer.importRoot root).run importer.start with
  | mk outcome s =>
    rw [e] at limited
    cases outcome with
    | ok node => exact .inl ⟨⟨node, rfl⟩, fun j error r => not_blocks_of_gives e r⟩
    | error stop =>
      have proper : Proper importer.start := ⟨consistent_start, List.not_mem_nil⟩
      have blamed := stopsOnly_importType _ proper _ _ e
      obtain ⟨reason, rfl⟩ := (balanced_importRoot _ hasRoom_start).2 stop (congrArg Prod.fst e)
      rcases blamed with ⟨text, rfl⟩ | ⟨bad, r, blocks⟩
      · exact absurd rfl (limited text)
      · exact .inr ⟨bad, reason, r, blocks, rfl⟩

end Importer

end TypeSchema
