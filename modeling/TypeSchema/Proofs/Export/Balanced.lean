import TypeSchema.Export.Declarations
import TypeSchema.Proofs.Export.Body

/-!
# Exports leave what they enter

An export enters every place that it is inside of and leaves it again, whether it succeeds or stops.
So the guard holds the same keys after an export as before it, and the place that is left is always
one that is entered.
-/

namespace TypeSchema

/-- The guards of two states hold the same keys. -/
def ExportState.SameKeys (s s' : ExportState) : Prop := s.guard.SameKeys s'.guard

/-- The export leaves the keys of the guard as they are, and stops only for a reason of its own. -/
def ExportWalk.Balanced {α : Type} (walk : ExportWalk α) : Prop :=
  walk.Behaves ExportState.SameKeys (∃ reason, · = .failed reason)

namespace ExportWalk.Balanced

variable {α β : Type} {walk : ExportWalk α}

lemma refl (s : ExportState) : s.SameKeys s := .refl s.guard

lemma trans (s t u : ExportState) (h : s.SameKeys t) (h' : t.SameKeys u) : s.SameKeys u :=
  WalkGuard.SameKeys.trans h h'

lemma pure {a : α} : Balanced (Pure.pure a : ExportWalk α) := Walk.behaves_pure refl

lemma fail {reason : ExportError} : Balanced (Walk.fail reason : ExportWalk α) :=
  Walk.behaves_fail refl ⟨reason, rfl⟩

/-- A change that leaves the guard alone. -/
lemma modify {change : ExportState → ExportState} (h : ∀ s, (change s).guard = s.guard) :
    Balanced (Walk.modify change) := by
  apply Walk.behaves_modify
  intro s
  unfold ExportState.SameKeys
  rw [h]
  exact .refl _

lemma bind {next : α → ExportWalk β} (h : walk.Balanced) (h' : ∀ a, (next a).Balanced) :
    (walk >>= next : ExportWalk β).Balanced := Walk.Behaves.bind trans h h'

lemma mapM {step : α → ExportWalk β} {as : List α} (h : ∀ a, (step a).Balanced) :
    (as.mapM step : ExportWalk (List β)).Balanced := Walk.Behaves.mapM refl trans h

end ExportWalk.Balanced

namespace Exporter

variable {exporter : Exporter} {place : Place}

/-- The place of a walk is left as it was entered. -/
lemma balanced_within {α : Type} {walk : ExportWalk α} (h : walk.Balanced) :
    (within place walk).Balanced := by
  intro s
  refine within_outcome ?refused ?misused ?left
  case refused =>
    intro answer guard e ne
    refine ⟨WalkGuard.sameKeys_of_enter e ne, fun stop f => ?_⟩
    cases f
    exact ⟨_, rfl⟩
  case misused =>
    intro guard result inside misuse e r l
    have within := (h { s with guard }).1
    rw [r] at within
    obtain ⟨outer, l', -⟩ := WalkGuard.exists_leave_of_entered e within
    cases l.symm.trans l'
  case left =>
    intro guard result inside guard' e r l
    obtain ⟨within, stops⟩ := h { s with guard }
    rw [r] at within stops
    obtain ⟨outer, l', same⟩ := WalkGuard.exists_leave_of_entered e within
    cases l.symm.trans l'
    exact ⟨same, stops⟩

lemma balanced_hoist {identifier : String} {node : Schema} :
    (hoist identifier place node).Balanced := by
  apply ExportWalk.Balanced.modify
  intro s
  split <;> rfl

lemma balanced_checkLiteral {node : Schema} : node.checkLiteral.Balanced := by
  unfold Schema.checkLiteral
  split
  · split
    · exact .pure
    · exact .fail
  · exact .pure

/-- Exporting a node leaves the keys of the guard as they are. -/
theorem balanced_exportNode {room : Nat} {node : Schema} :
    (exporter.exportNode room place node).Balanced := by
  induction room generalizing place node with
  | zero => exact balanced_within .fail
  | succ room ih =>
    apply balanced_within
    rw [exportStructure_eq]
    apply balanced_checkLiteral.bind
    intro _
    refine ExportWalk.Balanced.bind (.mapM fun part => ?_) fun types => .pure
    unfold exportPlaced exportMember
    split
    · exact balanced_hoist.bind fun _ => .pure
    · exact ih

end Exporter

namespace Exporter

/-- Exports nodes one after the other in one state. -/
def exportEach (exporter : Exporter) (nodes : List (Place × Schema)) :
    List (Except (WalkStop ExportError) TypeExpr) × ExportState :=
  Walk.runEach (nodes.map fun node => exporter.exportRoot node.1 node.2) exporter.start

end Exporter

namespace Schema

variable {exporter : Exporter} {node : Schema}

lemma balanced_exportPending {count : Nat} : (exportPending exporter count).Balanced := by
  induction count with
  | zero => exact .pure
  | succ count ih =>
    refine Walk.Behaves.bind ExportWalk.Balanced.trans
      (Walk.behaves_get ExportWalk.Balanced.refl) fun s => ?_
    split
    · exact ExportWalk.Balanced.pure
    · refine ExportWalk.Balanced.bind (.modify fun _ => rfl) fun _ => ?_
      apply Exporter.balanced_exportNode.bind
      intro type
      exact ih.bind fun declarations => .pure

/-- Exporting declarations leaves the keys of the guard as they are. -/
theorem balanced_exportDeclarations {name : String} :
    (exportDeclarations exporter name node).Balanced := by
  have rest : (do
      let type ← exporter.exportRoot .root node
      let declarations ← exportPending exporter node.identifiers.length
      return ⟨name, type⟩ :: declarations : ExportWalk (List Declaration)).Balanced := by
    apply Exporter.balanced_exportNode.bind
    intro type
    exact balanced_exportPending.bind fun declarations => .pure
  unfold exportDeclarations
  split
  · exact ExportWalk.Balanced.bind (.modify fun _ => rfl) fun _ => rest
  · exact rest

end Schema

end TypeSchema
