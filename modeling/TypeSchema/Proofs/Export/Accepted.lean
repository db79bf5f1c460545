import TypeSchema.Proofs.Export.Identifiers
import TypeSchema.Proofs.Export.Success

/-!
# What an export accepts

Without declarations an export comes to every node of a tree but the unions that mark optional
members. It stops at the first of these nodes that lies too deep or is a number that is not finite,
and for nothing else: the guard never takes a place for one that it is inside of. So a tree whose
identifiers pass the check is exported exactly if its numbers are finite and it is not too high.
-/

namespace TypeSchema

namespace Schema

/-- The nodes that an export comes to, in order, each with its depth. -/
def levels (depth : Nat) (node : Schema) : List (Nat × Schema) :=
  (depth, node) :: node.parts.attach.flatMap fun part => part.1.1.levels (depth + 1)
termination_by sizeOf node
decreasing_by exact sizeOf_parts part.2

/-- The number of nodes on the longest way from the root to a leaf, where a union that marks an
optional member is not counted. -/
def exportHeight (node : Schema) : Nat :=
  (node.parts.attach.map fun part => part.1.1.exportHeight).foldr max 0 + 1
termination_by sizeOf node
decreasing_by exact sizeOf_parts part.2

/-- Why a literal has no type. -/
def literalFault? : Schema → Option ExportError
  | literal (.number number) _ =>
    if number.isFinite then none else some (.nonFiniteLiteral number)
  | _ => none

/-- Why an export stops at a node of a depth. -/
def fault? (maxDepth : Nat) (placed : Nat × Schema) : Option ExportError :=
  if maxDepth ≤ placed.1 then some .depthLimitExceeded else placed.2.literalFault?

variable {node inner : Schema} {depth bound : Nat}

lemma levels_eq :
    node.levels depth =
      (depth, node) :: node.parts.flatMap fun part => part.1.levels (depth + 1) := by
  have e : node.parts = node.parts.attach.map Subtype.val := (List.attach_map_subtype_val _).symm
  rw [levels]
  conv_rhs => rw [e, List.flatMap_map]

lemma exportHeight_eq :
    node.exportHeight = (node.parts.map fun part => part.1.exportHeight).foldr max 0 + 1 := by
  rw [exportHeight]
  congr 2
  exact List.attach_map_val (f := fun part : Schema × Bool => part.1.exportHeight)

/-- A node is as high as its highest part lets it be. -/
lemma exportHeight_le_iff :
    node.exportHeight ≤ bound + 1 ↔ ∀ part ∈ node.parts, part.1.exportHeight ≤ bound := by
  have general : ∀ heights : List Nat,
      heights.foldr max 0 ≤ bound ↔ ∀ height ∈ heights, height ≤ bound := by
    intro heights
    induction heights with
    | nil => simp
    | cons height heights ih => rw [List.foldr_cons, Nat.max_le, ih, List.forall_mem_cons]
  rw [exportHeight_eq, Nat.add_le_add_iff_right, general, List.forall_mem_map]

lemma exportHeight_pos : 0 < node.exportHeight := by
  rw [exportHeight_eq]
  exact Nat.succ_pos _

/-- The nodes an export comes to are above a depth exactly if the height is. -/
lemma levels_lt_iff :
    (∀ placed ∈ node.levels depth, placed.1 < bound) ↔ depth + node.exportHeight ≤ bound := by
  induction node using partsInduction generalizing depth with
  | step node ih =>
    rw [levels_eq, List.forall_mem_cons, List.forall_mem_flatMap]
    have pos : 0 < node.exportHeight := exportHeight_pos
    constructor
    · rintro ⟨root, parts⟩
      obtain ⟨rest, rfl⟩ := Nat.exists_eq_add_of_lt root
      have height : node.exportHeight ≤ rest + 1 := exportHeight_le_iff.2 fun part m => by
        have := (ih part m).1 (parts part m)
        omega
      omega
    · intro shallow
      refine ⟨by omega, fun part m => (ih part m).2 ?_⟩
      obtain ⟨rest, rfl⟩ := Nat.exists_eq_add_of_le shallow
      have := exportHeight_le_iff.1 (show node.exportHeight ≤ node.exportHeight - 1 + 1 by omega)
        part m
      omega

lemma map_snd_levels (depth : Nat) (node : Schema) :
    (node.levels depth).map (·.2) = node.exported := by
  induction node using partsInduction generalizing depth with
  | step node ih =>
    rw [levels_eq, exported_eq, List.map_cons, List.map_flatMap]
    exact congrArg _ (List.flatMap_congr fun part m => ih part m (depth + 1))

/-- Every literal of a tree is exported. -/
lemma mem_exported_of_literal {value : Literal} {info : NodeInfo}
    (m : literal value info ∈ node.preorder) : literal value info ∈ node.exported := by
  induction node using partsInduction with
  | step node ih =>
    rw [preorder_eq] at m
    cases m with
    | head => exact mem_exported_self
    | tail _ m =>
      obtain ⟨child, mc, m⟩ := List.mem_flatMap.1 m
      obtain ⟨part, mp, kept⟩ := exists_of_forall₂ (forall₂_parts node) child mc
      refine mem_exported_of_part mp (ih part mp ?_)
      rcases kept with rfl | rfl
      · exact m
      · unfold splitOptional
        split
        case h_2 => exact m
        case h_1 e =>
          -- Beside its type a union that is split has only the union itself and `undefined`.
          obtain ⟨_, _, rfl⟩ := optionalType?_eq_some.1 e
          rw [preorder_eq] at m
          simpa [children, preorder] using m

lemma literalFault?_eq_none :
    node.literalFault? = none ↔ ∀ number info, node = .literal (.number number) info →
      number.isFinite = true := by
  unfold literalFault?
  split
  case h_1 number info =>
    constructor
    · intro e number' info' e'
      cases e'
      by_contra infinite
      rw [if_neg infinite] at e
      cases e
    · exact fun finite => if_pos (finite number info rfl)
  case h_2 other =>
    exact ⟨fun _ number info e => absurd e (other number info), fun _ => rfl⟩

lemma finite_iff_literalFault? :
    node.Finite ↔ ∀ inner ∈ node.exported, inner.literalFault? = none := by
  constructor
  · exact fun f inner m => literalFault?_eq_none.2 (f inner (mem_preorder_of_exported m))
  · rintro free inner m number info rfl
    exact literalFault?_eq_none.1 (free _ (mem_exported_of_literal m)) number info rfl

/-- Above the depth limit an export stops at a node itself, or else at the first of its parts that
it stops at. -/
lemma firstFault_eq (shallow : depth < bound) :
    (node.levels depth).findSome? (fault? bound) =
      node.literalFault?.or (node.parts.findSome? fun part =>
        (part.1.levels (depth + 1)).findSome? (fault? bound)) := by
  rw [levels_eq, List.findSome?_cons, fault?, if_neg (Nat.not_le_of_lt shallow), findSome?_flatMap]
  cases node.literalFault? <;> rfl

/-- An export stops nowhere exactly if the numbers are finite and the tree is not too high. -/
lemma firstFault_eq_none :
    (node.levels 0).findSome? (fault? bound) = none ↔
      node.Finite ∧ node.exportHeight ≤ bound := by
  rw [List.findSome?_eq_none_iff, finite_iff_literalFault?, ← map_snd_levels 0,
    List.forall_mem_map]
  have shallow : (∀ placed ∈ node.levels 0, placed.1 < bound) ↔ 0 + node.exportHeight ≤ bound :=
    levels_lt_iff
  rw [Nat.zero_add] at shallow
  rw [← shallow]
  constructor
  · intro free
    have both : ∀ placed ∈ node.levels 0, placed.2.literalFault? = none ∧ placed.1 < bound := by
      intro placed m
      have f := free placed m
      unfold fault? at f
      split at f
      case isTrue => cases f
      case isFalse high => exact ⟨f, Nat.lt_of_not_le high⟩
    exact ⟨fun placed m => (both placed m).1, fun placed m => (both placed m).2⟩
  · rintro ⟨finite, high⟩ placed m
    unfold fault?
    rw [if_neg (Nat.not_le_of_lt (high placed m))]
    exact finite placed m

/-- An export stops for the depth of a tree that is too high, or for a number that is not finite. -/
lemma firstFault_cases {error : ExportError}
    (first : (node.levels 0).findSome? (fault? bound) = some error) :
    error = .depthLimitExceeded ∧ bound < node.exportHeight ∨
      ∃ number info, literal (.number number) info ∈ node.preorder ∧ number.isFinite = false ∧
        error = .nonFiniteLiteral number := by
  obtain ⟨⟨depth, inner⟩, m, f⟩ := List.exists_of_findSome?_eq_some first
  unfold fault? at f
  split at f
  case isTrue deep =>
    refine .inl ⟨(Option.some.inj f).symm, Nat.lt_of_not_le fun shallow => ?_⟩
    have high := levels_lt_iff.2 (show 0 + node.exportHeight ≤ bound by omega) _ m
    exact absurd deep (Nat.not_le_of_lt high)
  case isFalse =>
    unfold literalFault? at f
    split at f
    case h_1 number info e =>
      have infinite : number.isFinite = false := by
        by_contra finite
        rw [if_pos (by simpa using finite)] at f
        cases f
      rw [infinite] at f
      have exported : inner ∈ node.exported := by
        rw [← map_snd_levels 0]
        exact List.mem_map_of_mem (f := (·.2)) m
      exact .inr ⟨number, info, mem_preorder_of_exported (e ▸ exported), infinite,
        (Option.some.inj f).symm⟩
    case h_2 => cases f

end Schema

/-! ## Exports without declarations -/

namespace Exporter

variable {place : Place} {node : Schema} {guard : WalkGuard Place}

/-- A literal is refused for its fault. -/
lemma answers_checkLiteral {I : ExportState → Prop} :
    node.checkLiteral.Answers I node.literalFault? () := by
  cases node with
  | literal value info =>
    cases value with
    | number number =>
      unfold Schema.checkLiteral Schema.literalFault?
      dsimp only
      split
      case isTrue => exact Walk.answers_pure
      case isFalse => exact Walk.answers_fail
    | _ => exact Walk.answers_pure
  | _ => exact Walk.answers_pure

/-- Inside a place that may be entered a walk has the outcome that it has there. -/
lemma answers_within {α : Type} {walk : ExportWalk α} {reason? : Option ExportError} {result : α}
    {height : Nat} (r : guard.ReadyAt place (height + 1))
    (h : walk.Answers (ExportState.Guarded (guard.inside place)) reason? result) :
    (within place walk).Answers (ExportState.Guarded guard) reason? result := by
  rintro s ⟨n, g⟩
  have ready : s.guard.ReadyAt place (height + 1) := by
    rw [g]
    exact r.counted n
  obtain ⟨outcome, n', g'⟩ := h
    { s with guard := { guard.inside place with iterations := s.guard.nextIteration } } ⟨_, rfl⟩
  have leave : (walk.run { s with guard :=
      { guard.inside place with iterations := s.guard.nextIteration } }).2.guard.leave place =
      .ok { guard with iterations := n' } := by
    rw [g']
    refine WalkGuard.leave_eq_ok.2 ⟨List.mem_cons_self, ?_⟩
    simp [WalkGuard.inside]
  have enter : s.guard.enter place =
      (.entered, { guard.inside place with iterations := s.guard.nextIteration }) := by
    rw [ready.enter (Nat.succ_pos _), g]
    rfl
  unfold Walk.run within
  rw [enter]
  dsimp only
  rw [leave]
  exact ⟨outcome, n', rfl⟩

/-- At the depth limit no place is entered. -/
lemma answers_within_deep {α : Type} {walk : ExportWalk α} {result : α}
    (r : guard.ReadyAt place 0) (full : guard.limits.maxDepth.toNat ≤ guard.depth) :
    (within place walk).Answers (ExportState.Guarded guard) (some .depthLimitExceeded) result := by
  rintro s ⟨n, g⟩
  have enter : s.guard.enter place =
      (.depthExceeded, { guard with iterations := s.guard.nextIteration }) := by
    have tireless : ¬ guard.limits.maxIterations.toNat < s.guard.nextIteration := by
      rw [r.tireless]
      exact Nat.not_lt_of_le (Nat.min_le_right _ _)
    have new : place ∉ guard.visiting := fun m => Nat.lt_irrefl _ (r.above place m)
    unfold WalkGuard.enter
    rw [g] at tireless ⊢
    dsimp only
    rw [if_neg tireless, if_neg new, if_pos full]
  unfold Walk.run within
  rw [enter]
  exact ⟨rfl, _, rfl⟩

/-- Without declarations a node is exported as its body, unless the export stops at the first of the
nodes it comes to that cannot be exported. -/
theorem answers_exportNode (options : ExportOptions) (node : Schema) {room : Nat}
    (r : guard.ReadyAt place room) (full : guard.depth + room = guard.limits.maxDepth.toNat) :
    (exportNode ⟨options, false⟩ room place node).Answers (ExportState.Guarded guard)
      ((node.levels guard.depth).findSome? (Schema.fault? guard.limits.maxDepth.toNat))
      (body ⟨options, false⟩ node) := by
  -- The room and the depth of the guard add up to the limit, so no room is left at the limit.
  induction room generalizing place node guard with
  | zero =>
    have deep : guard.limits.maxDepth.toNat ≤ guard.depth := by omega
    rw [Schema.levels_eq, List.findSome?_cons, Schema.fault?, if_pos deep]
    exact answers_within_deep r deep
  | succ room ih =>
    have part : ∀ placed ∈ node.placedParts place,
        (exportPlaced ⟨options, false⟩ (exportNode ⟨options, false⟩ room) placed).Answers
          (ExportState.Guarded (guard.inside place))
          ((placed.2.levels (guard.depth + 1)).findSome?
            (Schema.fault? guard.limits.maxDepth.toNat))
          (body ⟨options, false⟩ placed.2) := by
      intro placed m
      have inside : guard.depth + 1 + room = guard.limits.maxDepth.toNat := by omega
      exact ih placed.2 (r.part m (Nat.lt_succ_self room)) inside
    -- The parts are the same nodes with their places as without.
    have faults := congrArg (List.findSome? fun part : Schema =>
      (part.levels (guard.depth + 1)).findSome? (Schema.fault? guard.limits.maxDepth.toNat))
      (node.placedParts_map place)
    have types := congrArg (List.map (body ⟨options, false⟩)) (node.placedParts_map place)
    rw [List.findSome?_map, List.findSome?_map] at faults
    rw [List.map_map, List.map_map] at types
    have shallow : guard.depth < guard.limits.maxDepth.toNat := by omega
    have fault : (node.levels guard.depth).findSome? _ = _ :=
      (Schema.firstFault_eq shallow).trans (congrArg node.literalFault?.or faults.symm)
    have type : body ⟨options, false⟩ node = _ :=
      body_eq.trans (congrArg (assemble ⟨options, false⟩ node) types.symm)
    rw [fault, type]
    unfold exportNode
    rw [exportStructure_eq]
    exact answers_within r (answers_checkLiteral.bind (Walk.Answers.mapM part).bind_pure)

end Exporter

namespace Schema

variable {options : ExportOptions} {root : Schema}

/-- A tree whose identifiers are not checked is exported as its body, unless the export stops. -/
lemma toTypeExprUnchecked_eq :
    root.toTypeExprUnchecked options =
      Walk.outcome ((root.levels 0).findSome? (fault? options.maxDepth.toNat))
        (Exporter.body ⟨options, false⟩ root) := by
  have ready : (Exporter.start ⟨options, false⟩).guard.ReadyAt .root options.maxDepth.toNat :=
    ⟨fun _ m => absurd m List.not_mem_nil, Nat.le_of_eq (Nat.zero_add _), rfl⟩
  obtain ⟨outcome, n, closed⟩ := Exporter.answers_exportNode options root ready (Nat.zero_add _)
    (Exporter.start ⟨options, false⟩) ⟨0, rfl⟩
  unfold toTypeExprUnchecked Exporter.finish Exporter.exportRoot
  dsimp only
  rw [closed]
  exact outcome

/-- What it takes for a tree to be exported as one type expression. -/
structure Exportable (options : ExportOptions) (root : Schema) : Prop where
  agree : Agree root.preorder
  resolved : ∀ target ∈ root.references, target ∈ root.identifiers
  finite : root.Finite
  shallow : root.exportHeight ≤ options.maxDepth.toNat

/-- A well-formed tree is exported exactly if its nodes of one identifier are the same, its
references name nodes, its numbers are finite and its height is within the depth limit. Otherwise
the export stops for the first of the nodes in pre-order that differs from the first one of its
identifier, or else for the first reference that names no node, or else for the first node it comes
to that lies too deep or is a number that is not finite. -/
theorem toTypeExpr_iff_exportable (w : root.WellFormed) :
    ((∃ type, root.toTypeExpr options = .ok type) ↔ root.Exportable options) ∧
    ∀ stop, root.toTypeExpr options = .error stop →
      (∃ node identifier, FirstClash [] root.preorder node ∧
        node.identifier = some identifier ∧ stop = .failed (.duplicateIdentifier identifier)) ∨
      (Agree root.preorder ∧ ∃ target,
        root.references.find? (· ∉ root.identifiers) = some target ∧
          stop = .failed (.recursionIntegrity target)) ∨
      (Agree root.preorder ∧ (∀ target ∈ root.references, target ∈ root.identifiers) ∧
        ∃ error, (root.levels 0).findSome? (fault? options.maxDepth.toNat) = some error ∧
          stop = .failed error ∧
          (error = .depthLimitExceeded ∧ options.maxDepth.toNat < root.exportHeight ∨
            ∃ number info, .literal (.number number) info ∈ root.preorder ∧
              number.isFinite = false ∧ error = .nonFiniteLiteral number)) := by
  have refused : ∀ {error}, root.checkIdentifiers = .error error →
      root.toTypeExpr options = .error (.failed error) := by
    intro error c
    unfold toTypeExpr
    rw [c]
  have agrees : Agree root.preorder ↔ NoClash [] root.preorder :=
    agree_iff_noClash fun _ m => w.of_mem m
  have passes : root.Exportable options → root.checkIdentifiers = .ok () := fun exportable =>
    checkIdentifiers_eq_ok_iff.2 ⟨agrees.1 exportable.agree, exportable.resolved⟩
  rcases checkIdentifiers_cases root with
    ⟨node, identifier, clash, carried, c⟩ | ⟨free, ⟨target, first, c⟩ | ⟨resolved, c⟩⟩
  · refine ⟨⟨fun ⟨type, e⟩ => ?_, fun exportable => ?_⟩, fun stop e => ?_⟩
    · cases (refused c).symm.trans e
    · cases c.symm.trans (passes exportable)
    · cases (refused c).symm.trans e
      exact .inl ⟨node, identifier, clash, carried, rfl⟩
  · refine ⟨⟨fun ⟨type, e⟩ => ?_, fun exportable => ?_⟩, fun stop e => ?_⟩
    · cases (refused c).symm.trans e
    · cases c.symm.trans (passes exportable)
    · cases (refused c).symm.trans e
      exact .inr (.inl ⟨agrees.2 free, target, first, rfl⟩)
  · have checked : root.toTypeExpr options = root.toTypeExprUnchecked options := by
      unfold toTypeExpr
      rw [c]
    rw [checked, toTypeExprUnchecked_eq]
    cases fault : (root.levels 0).findSome? (fault? options.maxDepth.toNat) with
    | none =>
      obtain ⟨finite, shallow⟩ := firstFault_eq_none.1 fault
      refine ⟨⟨fun _ => ⟨agrees.2 free, resolved, finite, shallow⟩, fun _ => ⟨_, rfl⟩⟩,
        fun stop e => ?_⟩
      cases e
    | some error =>
      refine ⟨⟨fun ⟨type, e⟩ => ?_, fun exportable => ?_⟩, fun stop e => ?_⟩
      · cases e
      · cases fault.symm.trans (firstFault_eq_none.2 ⟨exportable.finite, exportable.shallow⟩)
      · cases e
        exact .inr (.inr ⟨agrees.2 free, resolved, error, rfl, rfl, firstFault_cases fault⟩)

/-- Two properties of one type, the second one optional. -/
def zeros : Schema :=
  .object [("first", .literal (.number .zero) { identifier := some "Zero" }),
    ("last", .composite .union [.reference "Zero" {}, undefinedNode] {})] {}

/-- The union of an optional property does not count, so a depth of two is enough for a tree of
three levels. -/
theorem zeros_exportable :
    zeros.Exportable ⟨"arg", 2⟩ ∧ ¬ zeros.Exportable ⟨"arg", 1⟩ := by
  have exported : zeros.toTypeExpr ⟨"arg", 2⟩ =
      .ok (.object [⟨"first", false, .literal (.number .zero), none⟩,
        ⟨"last", true, .reference "Zero", none⟩]) := by
    rfl
  have stopped : zeros.toTypeExpr ⟨"arg", 1⟩ = .error (.failed .depthLimitExceeded) := by rfl
  refine ⟨(toTypeExpr_iff_exportable (by decide)).1.1 ⟨_, exported⟩, fun exportable => ?_⟩
  obtain ⟨type, e⟩ := (toTypeExpr_iff_exportable (by decide)).1.2 exportable
  cases stopped.symm.trans e

/-- A NaN differs from itself, so a second node of it is refused before its number is. -/
example :
    let node : Schema := .literal (.number .nan) { identifier := some "Nothing" }
    node.toTypeExpr ⟨"arg", 2⟩ = .error (.failed (.nonFiniteLiteral .nan)) ∧
      (Schema.tuple [node, node] {}).toTypeExpr ⟨"arg", 2⟩ =
        .error (.failed (.duplicateIdentifier "Nothing")) := ⟨by rfl, by rfl⟩

end Schema

end TypeSchema
