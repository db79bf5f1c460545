import TypeSchema.Export.Declarations
import TypeSchema.Proofs.Export.Body
import TypeSchema.Proofs.Looser

/-!
# Exports under looser limits

An export with a greater depth limit does the same as another one that succeeds.
-/

namespace TypeSchema

/-- The other state remembers the same, with a guard that allows more. -/
structure ExportState.Looser (s s' : ExportState) : Prop where
  guard : s.guard.Looser True s'.guard
  pending : s'.pending = s.pending
  seen : s'.seen = s.seen

/-- From a state that allows more, the second walk does the same as the first one, if that one
succeeds. -/
def ExportWalk.Follows {α : Type} (walk walk' : ExportWalk α) : Prop :=
  Walk.Follows ExportState.Looser (fun _ => True) walk walk'

/-- The same export with another depth limit. -/
def ExportOptions.withDepth (options : ExportOptions) (maxDepth : UInt32) : ExportOptions :=
  { options with maxDepth }

/-- The same export with another depth limit. -/
def Exporter.withDepth (exporter : Exporter) (maxDepth : UInt32) : Exporter :=
  { exporter with options := exporter.options.withDepth maxDepth }

namespace Exporter

variable {exporter : Exporter} {maxDepth : UInt32} {place : Place} {node : Schema}

/-- A walk inside a place is followed if it is followed without the place. -/
lemma within_follows {α : Type} {walk walk' : ExportWalk α} (h : walk.Follows walk') :
    (within place walk).Follows (within place walk') := by
  intro s s' r
  have entered := r.guard.enter place
  unfold Walk.run within
  generalize s.guard.enter place = attempt at entered
  generalize s'.guard.enter place = attempt' at entered
  obtain ⟨answer, guard⟩ := attempt
  obtain ⟨answer', guard'⟩ := attempt'
  rcases entered with ⟨same, g⟩ | ⟨limit, -⟩
  · obtain rfl : answer' = answer := same
    dsimp only at g
    cases answer' with
    | entered =>
      have inner := h { s with guard } { s' with guard := guard' } ⟨g, r.pending, r.seen⟩
      dsimp only
      cases e : walk.run { s with guard } with
      | mk result inside =>
        cases e' : walk'.run { s' with guard := guard' } with
        | mk result' inside' =>
          rw [e, e'] at inner
          dsimp only at inner ⊢
          rcases inner with ⟨rfl, within⟩ | ⟨-, stop, rfl⟩
          · obtain ⟨next, next', l, l', left⟩ | ⟨misuse, l, l'⟩ := within.guard.leave place
            · rw [l, l']
              exact .inl ⟨rfl, left, within.pending, within.seen⟩
            · rw [l, l']
              exact .inl ⟨rfl, within⟩
          · cases inside.guard.leave place with
            | error misuse => exact .inr ⟨trivial, _, rfl⟩
            | ok guard => exact .inr ⟨trivial, stop, rfl⟩
    | _ => exact .inl ⟨rfl, g, r.pending, r.seen⟩
  · rcases limit with rfl | rfl
    · exact .inr ⟨trivial, _, rfl⟩
    · exact .inr ⟨trivial, _, rfl⟩

/-- A part is followed if what is exported in its place is. -/
lemma exportPlaced_follows {exportPart exportPart' : Place → Schema → ExportWalk TypeExpr}
    (h : ∀ place node, (exportPart place node).Follows (exportPart' place node))
    {part : Place × Schema} :
    (exporter.exportPlaced exportPart part).Follows
      ((exporter.withDepth maxDepth).exportPlaced exportPart' part) := by
  have hoisted : (exporter.withDepth maxDepth).hoisted? part.2 = exporter.hoisted? part.2 := rfl
  unfold exportPlaced
  rw [exportMember_eq, exportMember_eq, hoisted]
  cases exporter.hoisted? part.2 with
  | none => exact h _ _
  | some identifier =>
    refine Walk.Follows.bind (Walk.follows_modify ?_) fun _ => Walk.follows_pure
    intro s s' r
    rw [r.seen]
    split
    · exact r
    · exact ⟨r.guard, congrArg (· ++ _) r.pending, rfl⟩

lemma parameters_withDepth {position : Nat} {members : List (Schema × Bool)}
    {types : List TypeExpr} :
    (exporter.withDepth maxDepth).parameters position members types =
      exporter.parameters position members types := by
  induction members generalizing position types with
  | nil => rfl
  | cons member members ih =>
    cases types with
    | nil => rfl
    | cons type types => exact congrArg (_ :: ·) ih

/-- How type expressions are put together does not depend on the depth limit. -/
lemma assemble_withDepth {types : List TypeExpr} :
    (exporter.withDepth maxDepth).assemble node types = exporter.assemble node types := by
  cases node with
  | function arguments returns =>
    exact congrArg (TypeExpr.function · _) parameters_withDepth
  | _ => rfl

/-- A node is followed where there is as much room or more. -/
theorem exportNode_follows {room room' : Nat} (more : room ≤ room') :
    (exporter.exportNode room place node).Follows
      ((exporter.withDepth maxDepth).exportNode room' place node) := by
  induction room generalizing room' place node with
  | zero =>
    have refused : ∀ walk : ExportWalk TypeExpr,
        ExportWalk.Follows (Walk.fail .depthLimitExceeded) walk :=
      fun walk => Walk.follows_of_fail fun _ => trivial
    cases room' with
    | zero => exact within_follows (refused _)
    | succ room' => exact within_follows (refused _)
  | succ room ih =>
    obtain ⟨rest, rfl⟩ : ∃ rest, room' = rest + 1 := ⟨room' - 1, by omega⟩
    apply within_follows
    simp only [exportStructure_eq, assemble_withDepth]
    have literal : node.checkLiteral.Follows node.checkLiteral := by
      unfold Schema.checkLiteral
      split
      · split
        · exact Walk.follows_pure
        · exact Walk.follows_fail
      · exact Walk.follows_pure
    refine Walk.Follows.bind literal fun _ => Walk.Follows.bind (.mapM fun part _ => ?_) fun _ =>
      Walk.follows_pure
    exact exportPlaced_follows fun place node => ih (Nat.le_of_succ_le_succ more)

variable (more : exporter.options.maxDepth ≤ maxDepth)

include more

lemma exportRoot_follows :
    (exporter.exportRoot place node).Follows
      ((exporter.withDepth maxDepth).exportRoot place node) :=
  exportNode_follows (UInt32.le_iff_toNat_le.1 more)

/-- The queue of an export is followed. -/
lemma exportPending_follows {count : Nat} :
    (Schema.exportPending exporter count).Follows
      (Schema.exportPending (exporter.withDepth maxDepth) count) := by
  induction count with
  | zero => exact Walk.follows_pure
  | succ count ih =>
    refine Walk.follows_get_bind fun s s' r => ?_
    rw [r.pending]
    split
    · exact Walk.follows_pure
    · refine Walk.Follows.bind
        (Walk.follows_modify fun s s' r => ⟨r.guard, rfl, r.seen⟩) fun _ => ?_
      refine Walk.Follows.bind (exportRoot_follows more) fun type => ?_
      exact Walk.Follows.bind ih fun declarations => Walk.follows_pure

/-- The declarations of a tree are followed. -/
lemma exportDeclarations_follows {name : String} :
    (Schema.exportDeclarations exporter name node).Follows
      (Schema.exportDeclarations (exporter.withDepth maxDepth) name node) := by
  have rest : ExportWalk.Follows (do
      let type ← exporter.exportRoot .root node
      let declarations ← Schema.exportPending exporter node.identifiers.length
      return ⟨name, type⟩ :: declarations : ExportWalk (List Declaration)) (do
      let type ← (exporter.withDepth maxDepth).exportRoot .root node
      let declarations ←
        Schema.exportPending (exporter.withDepth maxDepth) node.identifiers.length
      return ⟨name, type⟩ :: declarations) := by
    refine Walk.Follows.bind (exportRoot_follows more) fun type => ?_
    exact Walk.Follows.bind (exportPending_follows more) fun declarations => Walk.follows_pure
  unfold Schema.exportDeclarations
  split
  · refine Walk.Follows.bind (Walk.follows_modify fun s s' r => ?_) fun _ => rest
    exact ⟨r.guard, r.pending, congrArg (_ :: ·) r.seen⟩
  · exact rest

omit more in
/-- An export that succeeds and is given up has the same result with a greater depth limit. -/
lemma finish_withDepth (exporter : Exporter) (more : exporter.options.maxDepth ≤ maxDepth)
    {α : Type} {walk walk' : ExportWalk α} {a : α} (h : walk.Follows walk')
    (f : finish (walk.run exporter.start) = .ok a) :
    finish (walk'.run (exporter.withDepth maxDepth).start) = .ok a := by
  have start : exporter.start.Looser (exporter.withDepth maxDepth).start := by
    refine ⟨⟨rfl, rfl, Nat.le_refl _, Nat.le_refl _, ?_, .inl trivial⟩, rfl, rfl⟩
    exact UInt32.le_iff_toNat_le.1 more
  unfold finish at f ⊢
  split at f
  case h_1 closed =>
    obtain ⟨s', g, left⟩ := h.gives start (Prod.ext f rfl)
    rw [show walk'.run _ = _ from g]
    dsimp only
    rw [left.guard.close, closed]
  case h_2 => cases f

end Exporter

namespace Schema

variable {options : ExportOptions} {maxDepth : UInt32} {node : Schema}
  (more : options.maxDepth ≤ maxDepth)

include more

/-- A type expression does not depend on the depth limit. -/
theorem toTypeExpr_withDepth {type : TypeExpr} (h : node.toTypeExpr options = .ok type) :
    node.toTypeExpr (options.withDepth maxDepth) = .ok type := by
  unfold toTypeExpr toTypeExprUnchecked at h ⊢
  split
  case h_1 checked =>
    rw [checked] at h
    exact Exporter.finish_withDepth ⟨options, false⟩ more
      (Exporter.exportRoot_follows more) h
  case h_2 error checked =>
    rw [checked] at h
    cases h

/-- Declarations do not depend on the depth limit. -/
theorem toDeclarations_withDepth {name : String} {declarations : List Declaration}
    (h : node.toDeclarations options name = .ok declarations) :
    node.toDeclarations (options.withDepth maxDepth) name = .ok declarations := by
  unfold toDeclarations at h ⊢
  split
  case h_1 error checked =>
    rw [checked] at h
    cases h
  case h_2 checked =>
    rw [checked] at h
    exact Exporter.finish_withDepth ⟨options, true⟩ more
      (Exporter.exportDeclarations_follows more) h

end Schema

end TypeSchema
