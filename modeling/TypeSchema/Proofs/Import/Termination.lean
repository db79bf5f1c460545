import TypeSchema.Proofs.Import.Balanced

/-!
# Imports end within their budget

`Runs` is the recursion of an import as it stands, without any bound on how deep it goes: a type
that is entered is imported from its parts, which run in their turn, and a stop is passed on at
once. An import ends if and only if it has such a run. With the run goes its trace, which has one
state for every call of the guard, the one that the call leaves the import in.

That every import has a run rests on the depth limit. That its trace is short rests on the count of
the guard: it grows with each call, and the first call that finds it spent is the last one.
-/

namespace TypeSchema

/-- What an import of a type, or of several, comes to: a result or a stop, and a state. -/
abbrev ImportOutcome (α : Type) := Except (WalkStop ImportError) α × ImportState

/-- The walk that comes to an outcome whatever state it starts in. -/
def ImportOutcome.walk {α : Type} (out : ImportOutcome α) : ImportWalk α := fun _ => out

/-- The steps of a rule are taken in order until one of them stops; `R` says what a type that is to
be imported comes to. -/
inductive StepsRun (R : TypeId → ImportState → List ImportState → ImportOutcome Schema → Prop) :
    List ImportStep → ImportState → List ImportState → ImportOutcome (List Schema) → Prop
  | nil {s} : StepsRun R [] s [] (.ok [], s)
  | refusal {error steps s} : StepsRun R (.stop error :: steps) s [] (.error (.failed error), s)
  | stopped {id steps s trace stop s'} :
    R id s trace (.error stop, s') →
    StepsRun R (.part id :: steps) s trace (.error stop, s')
  | cons {id steps s trace node s' trace' nodes s''} :
    R id s trace (.ok node, s') →
    StepsRun R steps s' trace' (nodes, s'') →
    StepsRun R (.part id :: steps) s (trace ++ trace') (nodes.map (node :: ·), s'')

lemma StepsRun.imp {R R' : TypeId → ImportState → List ImportState → ImportOutcome Schema → Prop}
    (imp : ∀ id s trace out, R id s trace out → R' id s trace out) {steps : List ImportStep}
    {s : ImportState} {trace : List ImportState} {out : ImportOutcome (List Schema)}
    (h : StepsRun R steps s trace out) : StepsRun R' steps s trace out := by
  induction h with
  | nil => exact .nil
  | refusal => exact .refusal
  | stopped h => exact .stopped (imp _ _ _ _ h)
  | cons h _ ih => exact .cons (imp _ _ _ _ h) ih

namespace Importer

variable (importer : Importer)

/-- An import of a type in a state comes to an outcome, and its calls of the guard leave the states
of a trace. -/
inductive Runs : TypeId → ImportState → List ImportState → ImportOutcome Schema → Prop
  | leaf {id s leaf} :
    importer.importLeaf? id (importer.checker.flags id) = some leaf →
    Runs id s [] (leaf.run s)
  | named {id s identifier} :
    importer.importLeaf? id (importer.checker.flags id) = none →
    s.named.lookup id = some identifier →
    Runs id s [] ((ImportWalk.constructed (Schema.referenceTo identifier)).run s)
  | cycle {id s guard} :
    importer.importLeaf? id (importer.checker.flags id) = none →
    s.named.lookup id = none →
    s.guard.enter id = (.cycle, guard) →
    Runs id s [{ s with guard }]
      ((do ImportWalk.constructed (Schema.referenceTo (← importer.identifierFor id)) :
        ImportWalk Schema).run { s with guard })
  | refused {id s answer guard} :
    importer.importLeaf? id (importer.checker.flags id) = none →
    s.named.lookup id = none →
    s.guard.enter id = (answer, guard) →
    answer = .depthExceeded ∨ answer = .iterationExceeded →
    Runs id s [{ s with guard }] ((importer.limitExceeded id).run { s with guard })
  | entered {id s guard trace nodes inside} :
    importer.importLeaf? id (importer.checker.flags id) = none →
    s.named.lookup id = none →
    s.guard.enter id = (.entered, guard) →
    StepsRun Runs (importer.steps id) (s.begin guard id) trace (nodes, inside) →
    Runs id s (s.begin guard id :: trace)
      ((importer.importEntered (ImportOutcome.walk (nodes.map (importer.build id), inside))
        (decide (1 < guard.depth)) id).run { s with guard })

variable {importer} {id : TypeId} {s : ImportState} {trace : List ImportState}
  {out : ImportOutcome Schema} {room : Nat}

/-- Induction on a run: what holds of the runs of the parts holds of the run. -/
@[elab_as_elim]
theorem Runs.induct {motive : ∀ id s trace out, importer.Runs id s trace out → Prop}
    (leaf : ∀ {id s} {leaf : ImportWalk Schema}
      (l : importer.importLeaf? id (importer.checker.flags id) = some leaf),
      motive id s _ _ (.leaf l))
    (named : ∀ {id} {s : ImportState} {identifier : String}
      (n : importer.importLeaf? id (importer.checker.flags id) = none)
      (c : s.named.lookup id = some identifier), motive id s _ _ (.named n c))
    (cycle : ∀ {id} {s : ImportState} {guard : WalkGuard TypeId}
      (n : importer.importLeaf? id (importer.checker.flags id) = none)
      (c : s.named.lookup id = none) (e : s.guard.enter id = (.cycle, guard)),
      motive id s _ _ (.cycle n c e))
    (refused : ∀ {id} {s : ImportState} {answer : GuardAnswer} {guard : WalkGuard TypeId}
      (n : importer.importLeaf? id (importer.checker.flags id) = none)
      (c : s.named.lookup id = none) (e : s.guard.enter id = (answer, guard))
      (a : answer = .depthExceeded ∨ answer = .iterationExceeded),
      motive id s _ _ (.refused n c e a))
    (entered : ∀ {id} {s : ImportState} {guard : WalkGuard TypeId} {trace : List ImportState}
      {nodes : Except (WalkStop ImportError) (List Schema)} {inside : ImportState}
      (n : importer.importLeaf? id (importer.checker.flags id) = none)
      (c : s.named.lookup id = none) (e : s.guard.enter id = (.entered, guard))
      (all : StepsRun importer.Runs (importer.steps id) (s.begin guard id) trace (nodes, inside))
      (_ih : StepsRun (fun id s trace out => ∃ h, motive id s trace out h)
        (importer.steps id) (s.begin guard id) trace (nodes, inside)),
      motive id s _ _ (.entered n c e all))
    (h : importer.Runs id s trace out) : motive id s trace out h := by
  refine @Runs.rec importer motive
    (fun steps s trace out _ => StepsRun (fun id s trace out => ∃ h, motive id s trace out h)
      steps s trace out)
    leaf named cycle refused ?_ .nil .refusal ?_ ?_ id s trace out h
  · exact fun n c e all ih => entered n c e all ih
  · exact fun h m => .stopped ⟨h, m⟩
  · exact fun h _ m all => .cons ⟨h, m⟩ all

/-! ### Runs and imports -/

/-- The walk that takes steps one after the other. -/
def takeSteps (importer : Importer) (room : Nat) (steps : List ImportStep) :
    ImportWalk (List Schema) := steps.mapM (ImportStep.take (importer.importType room))

/-- What is done with a type that was entered depends on its structure by what that comes to. -/
lemma run_importEntered_congr {body body' : ImportWalk Schema} {isNested : Bool}
    (e : body.run (s.setProgress id none) = body'.run (s.setProgress id none)) :
    (importer.importEntered body isNested id).run s =
      (importer.importEntered body' isNested id).run s := by
  rw [run_importEntered, run_importEntered, e]

/-- A type that may be entered is imported from what its steps come to. -/
lemma run_importType_of_entered {guard : WalkGuard TypeId}
    {nodes : Except (WalkStop ImportError) (List Schema)} {inside : ImportState}
    (n : importer.importLeaf? id (importer.checker.flags id) = none)
    (c : s.named.lookup id = none) (e : s.guard.enter id = (.entered, guard))
    (all : (importer.takeSteps room (importer.steps id)).run (s.begin guard id) = (nodes, inside)) :
    (importer.importType (room + 1) id).run s =
      (importer.importEntered (ImportOutcome.walk (nodes.map (importer.build id), inside))
        (decide (1 < guard.depth)) id).run { s with guard } := by
  rw [importType_eq, run_importWith n, c, e]
  apply run_importEntered_congr
  rw [importStructure_eq n]
  show (importer.takeSteps room (importer.steps id) >>= _).run (s.begin guard id) = _
  rw [Walk.run_bind, all]
  cases nodes <;> rfl

/-- A step that imports a type goes before the others. -/
lemma run_takeSteps_part {steps : List ImportStep} :
    (importer.takeSteps room (.part id :: steps)).run s =
      match (importer.importType room id).run s with
      | (.error stop, s') => (.error stop, s')
      | (.ok node, s') =>
        (((importer.takeSteps room steps).run s').1.map (node :: ·),
          ((importer.takeSteps room steps).run s').2) := by
  unfold takeSteps
  rw [List.mapM_cons, Walk.run_bind, ImportStep.take]
  cases (importer.importType room id).run s with
  | mk node s' =>
    cases node with
    | error stop => rfl
    | ok node =>
      dsimp only
      rw [Walk.run_bind]
      cases (steps.mapM (ImportStep.take (importer.importType room))).run s' with
      | mk nodes s'' => cases nodes <;> rfl

/-- An import leaves as much room as it finds. -/
lemma hasRoom_of_run {result : Except (WalkStop ImportError) Schema} {s' : ImportState}
    (r : s.HasRoom room) (e : (importer.importType room id).run s = (result, s')) :
    s'.HasRoom room := by
  have same : s.SameKeys ((importer.importType room id).run s).2 := (balanced_importType s r).1
  rw [e] at same
  exact same.hasRoom r

/-- Where the room reaches as far as the depth limit, steps run as the import takes them if the
types in them do. -/
lemma run_takeSteps {steps : List ImportStep} {outs : ImportOutcome (List Schema)}
    (h : StepsRun (fun id s _ out => s.HasRoom room → (importer.importType room id).run s = out)
      steps s trace outs) (r : s.HasRoom room) : (importer.takeSteps room steps).run s = outs := by
  induction h with
  | nil => rfl
  | refusal => rfl
  | stopped h => rw [run_takeSteps_part, h r]
  | cons h _ ih =>
    have e := h r
    rw [run_takeSteps_part, e]
    dsimp only
    rw [ih (hasRoom_of_run r e)]

/-- Where the room reaches as far as the depth limit, a run comes to what the import comes to. -/
theorem Runs.eq_run (h : importer.Runs id s trace out) (r : s.HasRoom room) :
    (importer.importType room id).run s = out := by
  induction h using Runs.induct generalizing room with
  | leaf l => rw [importType_eq, importWith_of_leaf l]
  | named n c => rw [importType_eq, run_importWith n, c]
  | cycle n c e => rw [importType_eq, run_importWith n, c, e]
  | refused n c e a =>
    rw [importType_eq, run_importWith n, c, e]
    rcases a with rfl | rfl <;> rfl
  | entered n c e _ ih =>
    obtain ⟨rest, rfl, r'⟩ := r.exists_succ e
    have all := ih.imp fun id s trace out ⟨_, h⟩ => (h : s.HasRoom rest → _)
    exact run_importType_of_entered n c e (run_takeSteps all r')

/-- Steps have a run if every import with this room has one. -/
lemma exists_stepsRun (each : ∀ id s, s.HasRoom room →
      ∃ trace, importer.Runs id s trace ((importer.importType room id).run s))
    (steps : List ImportStep) (r : s.HasRoom room) :
    ∃ trace, StepsRun importer.Runs steps s trace ((importer.takeSteps room steps).run s) := by
  induction steps generalizing s with
  | nil => exact ⟨[], .nil⟩
  | cons step steps ih =>
    cases step with
    | stop error => exact ⟨[], .refusal⟩
    | part id =>
      obtain ⟨trace, h⟩ := each id s r
      rw [run_takeSteps_part]
      cases e : (importer.importType room id).run s with
      | mk result s' =>
        rw [e] at h
        cases result with
        | error stop => exact ⟨trace, .stopped h⟩
        | ok node =>
          obtain ⟨trace', all⟩ := ih (hasRoom_of_run r e)
          exact ⟨trace ++ trace', .cons h all⟩

/-- Where the room reaches as far as the depth limit, every import has a run. -/
theorem exists_runs (r : s.HasRoom room) :
    ∃ trace, importer.Runs id s trace ((importer.importType room id).run s) := by
  induction room using Nat.strongRecOn generalizing id s with
  | ind room ih =>
    cases n : importer.importLeaf? id (importer.checker.flags id) with
    | some leaf =>
      rw [importType_eq, importWith_of_leaf n]
      exact ⟨[], .leaf n⟩
    | none =>
      cases c : s.named.lookup id with
      | some identifier =>
        rw [importType_eq, run_importWith n, c]
        exact ⟨[], .named n c⟩
      | none =>
        cases e : s.guard.enter id with
        | mk answer guard =>
          cases answer with
          | entered =>
            obtain ⟨rest, rfl, r'⟩ := r.exists_succ e
            obtain ⟨trace, all⟩ := exists_stepsRun
              (fun id s r => ih rest (Nat.lt_succ_self rest) r) (importer.steps id) r'
            rw [run_importType_of_entered n c e rfl]
            exact ⟨_, .entered n c e all⟩
          | cycle =>
            rw [importType_eq, run_importWith n, c, e]
            exact ⟨_, .cycle n c e⟩
          | depthExceeded =>
            rw [importType_eq, run_importWith n, c, e]
            exact ⟨_, .refused n c e (.inl rfl)⟩
          | iterationExceeded =>
            rw [importType_eq, run_importWith n, c, e]
            exact ⟨_, .refused n c e (.inr rfl)⟩

end Importer

/-! ### What is in progress -/

namespace ImportState

/-- The types in progress are those the guard holds, and not more than the depth limit allows. -/
structure Orderly (limits : WalkLimits) (s : ImportState) : Prop where
  bounds : s.guard.limits = limits
  progress : (s.inProgress.map (·.1)).Perm s.guard.visiting
  nodup : s.guard.visiting.Nodup
  depth : s.guard.depth = s.guard.visiting.length
  within : s.guard.depth ≤ limits.maxDepth.toNat

namespace Orderly

variable {limits : WalkLimits} {s t : ImportState} {id : TypeId} {guard : WalkGuard TypeId}

lemma length_le (o : s.Orderly limits) : s.inProgress.length ≤ limits.maxDepth.toNat := by
  have length := o.progress.length_eq
  rw [List.length_map] at length
  rw [length, ← o.depth]
  exact o.within

/-- Only the guard and the types in progress matter. -/
lemma congr (o : s.Orderly limits) (g : t.guard = s.guard) (p : t.inProgress = s.inProgress) :
    t.Orderly limits := by
  refine ⟨?_, ?_, ?_, ?_, ?_⟩
  · rw [g]
    exact o.bounds
  · rw [g, p]
    exact o.progress
  · rw [g]
    exact o.nodup
  · rw [g]
    exact o.depth
  · rw [g]
    exact o.within

/-- Without one of them, the types in progress are those the guard holds without it. -/
lemma withoutProgress (o : s.Orderly limits) (id : TypeId) :
    ((s.withoutProgress id).map (·.1)).Perm (s.guard.visiting.erase id) := by
  rw [o.nodup.erase_eq_filter]
  have keys : (s.withoutProgress id).map (·.1) = (s.inProgress.map (·.1)).filter (· != id) := by
    rw [List.filter_map]
    unfold ImportState.withoutProgress
    congr 2
    funext entry
    by_cases e : entry.1 = id <;> simp [e]
  rw [keys]
  exact o.progress.filter _

/-- A call of the guard that enters nothing changes nothing. -/
lemma counted (o : s.Orderly limits) {answer : GuardAnswer}
    (e : s.guard.enter id = (answer, guard)) (n : answer ≠ .entered) :
    Orderly limits { s with guard } := by
  have same := WalkGuard.sameKeys_of_enter e n
  refine ⟨same.limits.trans o.bounds, ?_, ?_, ?_, ?_⟩
  · show (s.inProgress.map (·.1)).Perm guard.visiting
    rw [same.visiting]
    exact o.progress
  · show guard.visiting.Nodup
    rw [same.visiting]
    exact o.nodup
  · show guard.depth = guard.visiting.length
    rw [same.visiting, same.depth]
    exact o.depth
  · show guard.depth ≤ _
    rw [same.depth]
    exact o.within

/-- A type that is entered is in progress. -/
lemma begin (o : s.Orderly limits) (e : s.guard.enter id = (.entered, guard)) :
    (s.begin guard id).Orderly limits := by
  obtain ⟨-, new, below, rfl⟩ := WalkGuard.enter_eq_entered.1 e
  rw [o.bounds] at below
  refine ⟨o.bounds, ?_, List.nodup_cons.2 ⟨new, o.nodup⟩, congrArg (· + 1) o.depth, below⟩
  have others := o.withoutProgress id
  rw [List.erase_of_not_mem new] at others
  exact others.cons id

/-- A type that is left is not in progress any more. -/
lemma left (o : s.Orderly limits) (l : s.guard.leave id = .ok guard) :
    (s.left guard id).Orderly limits := by
  obtain ⟨m, rfl⟩ := WalkGuard.leave_eq_ok.1 l
  refine ⟨o.bounds, o.withoutProgress id, o.nodup.erase id, ?_, ?_⟩
  · show s.guard.depth - 1 = (s.guard.visiting.erase id).length
    rw [List.length_erase_of_mem m, o.depth]
  · exact Nat.le_trans (Nat.sub_le _ _) o.within

/-- A type in progress that is referred to stays in progress. -/
lemma refer (o : s.Orderly limits) (importer : Importer) (m : id ∈ s.guard.visiting) :
    (importer.refer id s).2.Orderly limits := by
  rcases Importer.refer_cases importer id s with ⟨-, e⟩ | ⟨-, t, c, e⟩
  · rw [e]
    exact o
  · obtain ⟨-, count, rfl⟩ := c
    rw [e]
    refine ⟨o.bounds, ?_, o.nodup, o.depth, o.within⟩
    exact ((o.withoutProgress id).cons id).trans (List.perm_cons_erase m).symm

end Orderly

end ImportState

namespace Importer

/-! ### Bounds of a run -/

variable {importer : Importer} {limits : WalkLimits} {id : TypeId} {s : ImportState}
  {trace : List ImportState} {α : Type}

/-- Making a node changes nothing. -/
lemma state_constructed {result : Except ConstructionError α} :
    ((ImportWalk.constructed result).run s).2 = s := by
  cases result <;> rfl

/-- A leaf rule changes nothing. -/
lemma state_importLeaf {leaf : ImportWalk Schema}
    (l : importer.importLeaf? id (importer.checker.flags id) = some leaf) :
    (leaf.run s).2 = s := by
  rcases importLeaf_cases l with ⟨node, rfl⟩ | rfl <;> rfl

/-- A type that the walk is inside of is referred to. -/
lemma state_cycle :
    ((do ImportWalk.constructed (Schema.referenceTo (← importer.identifierFor id)) :
      ImportWalk Schema).run s).2 = (importer.refer id s).2 := by
  rw [Walk.run_bind]
  have g : (importer.identifierFor id).run s =
      (.ok (importer.refer id s).1, (importer.refer id s).2) := gives_identifierFor.2 rfl
  rw [g]
  exact state_constructed

/-- Completing a type leaves alone what is in progress. -/
lemma inProgress_complete {identifier : Option String} :
    (s.complete id identifier).inProgress = s.inProgress := by
  cases identifier <;> rfl

/-- So does the choice of what it is completed under. -/
lemma inProgress_conclude {isNested : Bool} {identifier : Option String} :
    (importer.conclude isNested id identifier s).2.inProgress = s.inProgress := by
  unfold conclude
  split
  · rfl
  · split
    · split
      · rw [ImportState.claim_state]
        rfl
      · rfl
    · rfl

/-- A type that was entered is left, and nothing else is done to the guard or to what is in
progress. The outcome is a result only if the structure has one. -/
lemma importEntered_cases (result : Except (WalkStop ImportError) Schema) (inside : ImportState)
    (isNested : Bool) {out : ImportOutcome Schema}
    (e : (importer.importEntered (ImportOutcome.walk (result, inside)) isNested id).run s = out) :
    (out.2 = inside ∨ ∃ guard, inside.guard.leave id = .ok guard ∧
      out.2.guard = (inside.left guard id).guard ∧
      out.2.inProgress = (inside.left guard id).inProgress) ∧
      ∀ node, out.1 = .ok node → ∃ built, result = .ok built := by
  revert e
  refine importEntered_outcome ?misused ?stopped ?completed
  case misused =>
    rintro _ _ misuse b - rfl
    cases b
    exact ⟨.inl rfl, fun _ e => by cases e⟩
  case stopped =>
    rintro stop _ guard b l rfl
    cases b
    exact ⟨.inr ⟨guard, l, rfl, rfl⟩, fun _ e => by cases e⟩
  case completed =>
    rintro built _ guard identifier t b l concluded rfl
    cases b
    obtain rfl := congrArg Prod.snd concluded
    refine ⟨.inr ⟨guard, l, ?_, ?_⟩, fun _ _ => ⟨built, rfl⟩⟩
    · rw [ImportState.complete_guard, guard_conclude]
    · rw [inProgress_complete, inProgress_conclude]

/-- The states of a trace have no more types in progress than the depth limit allows. -/
structure Kept (limits : WalkLimits) (trace : List ImportState) (out : ImportOutcome α) :
    Prop where
  orderly : out.2.Orderly limits
  trace : ∀ t ∈ trace, t.Orderly limits

lemma kept_steps {steps : List ImportStep} {out : ImportOutcome (List Schema)}
    (h : StepsRun (fun _ s trace out => s.Orderly limits → Kept limits trace out) steps s trace out)
    (o : s.Orderly limits) : Kept limits trace out := by
  induction h with
  | nil => exact ⟨o, fun _ m => absurd m List.not_mem_nil⟩
  | refusal => exact ⟨o, fun _ m => absurd m List.not_mem_nil⟩
  | stopped h => exact ⟨(h o).orderly, (h o).trace⟩
  | cons h _ ih =>
    have first := h o
    have rest := ih first.orderly
    exact ⟨rest.orderly, fun t m => (List.mem_append.1 m).elim (first.trace t) (rest.trace t)⟩

/-- An import never has more types in progress than the depth limit allows. -/
theorem Runs.kept {out : ImportOutcome Schema} (h : importer.Runs id s trace out)
    (o : s.Orderly limits) : Kept limits trace out := by
  induction h using Runs.induct with
  | leaf l => exact ⟨o.congr (by rw [state_importLeaf l]) (by rw [state_importLeaf l]),
      fun _ m => absurd m List.not_mem_nil⟩
  | named n c => exact ⟨o.congr (by rw [state_constructed]) (by rw [state_constructed]),
      fun _ m => absurd m List.not_mem_nil⟩
  | @cycle id s guard n c e =>
    have counted := o.counted e (by simp)
    refine ⟨?_, List.forall_mem_singleton.2 counted⟩
    rw [state_cycle]
    apply counted.refer
    rw [(WalkGuard.sameKeys_of_enter e (by simp)).visiting]
    exact (WalkGuard.enter_eq_cycle.1 e).2.1
  | refused n c e a =>
    have counted := o.counted e (by rcases a with rfl | rfl <;> simp)
    exact ⟨counted, List.forall_mem_singleton.2 counted⟩
  | entered n c e _ ih =>
    have inside := kept_steps (ih.imp fun _ _ _ _ ⟨_, h⟩ => h) (o.begin e)
    refine ⟨?_, List.forall_mem_cons.2 ⟨o.begin e, inside.trace⟩⟩
    rcases (importEntered_cases _ _ _ rfl).1 with same | ⟨guard, l, g, p⟩
    · rw [same]
      exact inside.orderly
    · exact (inside.orderly.left l).congr g p

/-- Leaving a type takes no attempt. -/
lemma iterations_importEntered (result : Except (WalkStop ImportError) Schema)
    (inside : ImportState) (isNested : Bool) {out : ImportOutcome Schema}
    (e : (importer.importEntered (ImportOutcome.walk (result, inside)) isNested id).run s = out) :
    out.2.guard.iterations = inside.guard.iterations := by
  rcases (importEntered_cases result inside isNested e).1 with same | ⟨guard, l, g, -⟩
  · rw [same]
  · obtain ⟨-, rfl⟩ := WalkGuard.leave_eq_ok.1 l
    rw [g]
    rfl

/-- Every call of the guard is counted, and the first one that finds the work spent ends the
import. -/
structure Counted (limits : WalkLimits) (s : ImportState) (trace : List ImportState)
    (out : ImportOutcome α) : Prop where
  count : out.2.guard.iterations = s.guard.iterations + trace.length
  spent : out.2.guard.iterations ≤ limits.maxIterations.toNat + 1
  unspent : ∀ a, out.1 = .ok a → out.2.guard.iterations ≤ limits.maxIterations.toNat

lemma counted_steps {steps : List ImportStep} {out : ImportOutcome (List Schema)}
    (h : StepsRun (fun id s trace out => importer.Runs id s trace out ∧ (s.Orderly limits →
      s.guard.iterations ≤ limits.maxIterations.toNat → Counted limits s trace out))
      steps s trace out)
    (o : s.Orderly limits) (u : s.guard.iterations ≤ limits.maxIterations.toNat) :
    Counted limits s trace out := by
  induction h with
  | nil => exact ⟨rfl, Nat.le_succ_of_le u, fun _ _ => u⟩
  | refusal => exact ⟨rfl, Nat.le_succ_of_le u, fun _ _ => u⟩
  | stopped h =>
    have first := h.2 o u
    exact ⟨first.count, first.spent, fun _ e => by cases e⟩
  | @cons id steps s trace node s' trace' nodes s'' h _ ih =>
    have first := h.2 o u
    have unspent := first.unspent node rfl
    have rest := ih (h.1.kept o).orderly unspent
    refine ⟨?_, rest.spent, fun all e => ?_⟩
    · have h1 : s'.guard.iterations = s.guard.iterations + trace.length := first.count
      have h2 : s''.guard.iterations = s'.guard.iterations + trace'.length := rest.count
      rw [List.length_append]
      show s''.guard.iterations = _
      omega
    · cases nodes with
      | error stop => cases e
      | ok nodes => exact rest.unspent nodes rfl

/-- If the greatest number of attempts is below the one at which the count stays, an import makes
one more at most, and that one stops it. -/
theorem Runs.counted {out : ImportOutcome Schema} (h : importer.Runs id s trace out)
    (o : s.Orderly limits) (u : s.guard.iterations ≤ limits.maxIterations.toNat)
    (small : limits.maxIterations.toNat < UInt32.size - 1) : Counted limits s trace out := by
  have next : ∀ s : ImportState, s.guard.iterations ≤ limits.maxIterations.toNat →
      s.guard.nextIteration = s.guard.iterations + 1 := by
    intro s u
    unfold WalkGuard.nextIteration
    omega
  induction h using Runs.induct with
  | leaf l =>
    refine ⟨?_, ?_, fun _ _ => ?_⟩ <;> rw [state_importLeaf l]
    · rfl
    · exact Nat.le_succ_of_le u
    · exact u
  | named n c =>
    refine ⟨?_, ?_, fun _ _ => ?_⟩ <;> rw [state_constructed]
    · rfl
    · exact Nat.le_succ_of_le u
    · exact u
  | @cycle id s guard n c e =>
    obtain ⟨unspent, -, rfl⟩ := WalkGuard.enter_eq_cycle.1 e
    rw [o.bounds] at unspent
    refine ⟨?_, ?_, fun _ _ => ?_⟩ <;> rw [state_cycle, guard_refer]
    · exact next s u
    · exact Nat.le_succ_of_le unspent
    · exact unspent
  | @refused id s answer guard n c e a =>
    have count := WalkGuard.iterations_of_enter e
    rw [next s u] at count
    refine ⟨count, ?_, fun _ e => by cases e⟩
    show guard.iterations ≤ _
    omega
  | @entered id s guard trace nodes inside n c e _ ih =>
    obtain ⟨unspent, -, -, g⟩ := WalkGuard.enter_eq_entered.1 e
    rw [o.bounds] at unspent
    -- The attempt to enter the type comes before those of its parts.
    have begun : (s.begin guard id).guard.iterations = s.guard.iterations + 1 := by
      rw [← next s u, g]
      rfl
    have within := counted_steps (ih.imp fun _ _ _ _ ⟨r, h⟩ => ⟨r, h⟩) (o.begin e)
      (by rw [begun, ← next s u]; exact unspent)
    generalize h : (importer.importEntered (ImportOutcome.walk
      (nodes.map (importer.build id), inside)) (decide (1 < guard.depth)) id).run _ = out
    have same := iterations_importEntered _ inside _ h
    have count : inside.guard.iterations = s.guard.iterations + 1 + trace.length := by
      rw [← begun]
      exact within.count
    refine ⟨?_, same ▸ within.spent, fun node e => ?_⟩
    · rw [List.length_cons]
      omega
    · obtain ⟨built, e⟩ := (importEntered_cases _ inside _ h).2 node e
      cases nodes with
      | error stop => cases e
      | ok nodes => exact same ▸ within.unspent nodes rfl

/-- An import starts with nothing in progress. -/
lemma orderly_start : importer.start.Orderly importer.options.limits :=
  ⟨rfl, .nil, List.nodup_nil, rfl, Nat.zero_le _⟩

/-- Whatever graph the checker describes, an import of a type in a fresh state has a run, and
every run of it comes to what the import comes to. It never has more types in progress than the
depth limit allows, and if the greatest number of attempts is below the greatest 32-bit number, it
calls the guard that often and once more at most. -/
theorem importRoot_terminates (importer : Importer) (id : TypeId) :
    (∃ trace out, importer.Runs id importer.start trace out) ∧
      ∀ trace out, importer.Runs id importer.start trace out →
        (importer.importRoot id).run importer.start = out ∧
        (importer.options.maxIterations.toNat < UInt32.size - 1 →
          trace.length ≤ importer.options.maxIterations.toNat + 1) ∧
        ∀ t ∈ trace, t.inProgress.length ≤ importer.options.maxDepth.toNat := by
  refine ⟨?_, fun trace out h => ⟨h.eq_run hasRoom_start, fun small => ?_, fun t m => ?_⟩⟩
  · obtain ⟨trace, h⟩ : ∃ trace, importer.Runs id importer.start trace _ :=
      exists_runs hasRoom_start
    exact ⟨trace, _, h⟩
  · have counted := h.counted orderly_start (Nat.zero_le _) small
    have count : out.2.guard.iterations = 0 + trace.length := counted.count
    have spent : out.2.guard.iterations ≤ importer.options.maxIterations.toNat + 1 := counted.spent
    omega
  · exact ((h.kept orderly_start).trace t m).length_le

/-- A checker of types without end: each is a pair of the next one and the one before it. -/
def endlessPairs : Checker where
  flags _ := ⟨0⟩
  literalValue? _ := none
  constituents _ := []
  callSignatures _ := []
  tupleElements? id := some [⟨⟨id.index + 1⟩, false, false⟩, ⟨⟨id.index - 1⟩, false, false⟩]
  arrayElement? _ := none
  properties _ := []
  indexSignatures _ := []
  aliasName? _ := none
  typeText _ := "Pair"

/-- The import of a pair ends after at most 100001 calls of the guard, with at most 500 types in
progress at once. -/
theorem endlessPairs_terminates :
    ∃ trace out, Runs ⟨endlessPairs, "pairs.ts", {}⟩ ⟨1⟩ (start ⟨endlessPairs, "pairs.ts", {}⟩)
      trace out ∧ trace.length ≤ 100001 ∧ ∀ t ∈ trace, t.inProgress.length ≤ 500 := by
  obtain ⟨⟨trace, out, h⟩, bounds⟩ := importRoot_terminates ⟨endlessPairs, "pairs.ts", {}⟩ ⟨1⟩
  obtain ⟨-, calls, progress⟩ := bounds trace out h
  exact ⟨trace, out, h, calls (by decide), progress⟩

end Importer

end TypeSchema
