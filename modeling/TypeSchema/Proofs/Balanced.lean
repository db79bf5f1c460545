import TypeSchema.Proofs.Export.Balanced
import TypeSchema.Proofs.Import.Balanced
import TypeSchema.Proofs.Lowering.Kept

/-!
# Guards and counters are never misused

Whatever it is asked and however it ends, an import, an export or a lowering leaves only what it has
entered, and has left all of it when its guard or counter is given up.
-/

namespace TypeSchema

namespace Walk

variable {σ ε α : Type}

/-- The outcome is a result, or a stop for a reason of the walk's own. A misuse of a guard or a
counter stops every walk around it, so none has happened then. -/
def WellUsed (outcome : Except (WalkStop ε) α) : Prop :=
  ∀ misuse, outcome ≠ .error (.misused misuse)

lemma wellUsed_of_stops {outcome : Except (WalkStop ε) α}
    (h : ∀ stop, outcome = .error stop → ∃ reason, stop = .failed reason) : WellUsed outcome := by
  intro misuse e
  obtain ⟨reason, f⟩ := h _ e
  cases f

lemma wellUsed_failed {reason : ε} :
    WellUsed (.error (.failed reason) : Except (WalkStop ε) α) := by
  intro misuse e
  cases e

end Walk

namespace Importer

variable (importer : Importer) (ids : List TypeId) (last : TypeId)

/-- Imports one after the other each leave what they enter. -/
lemma balanced_importEach :
    importer.start.SameKeys (importer.importEach ids).2 ∧
      ∀ outcome ∈ (importer.importEach ids).1, Walk.WellUsed outcome := by
  have roots : ∀ walk ∈ ids.map importer.importRoot,
      ImportWalk.Balanced importer.options.maxDepth.toNat walk := by
    intro walk m
    obtain ⟨id, -, rfl⟩ := List.mem_map.1 m
    exact balanced_importRoot
  obtain ⟨same, stops⟩ := Walk.BehavesFrom.runEach ImportWalk.Balanced.refl
    ImportWalk.Balanced.trans ImportWalk.Balanced.keep roots hasRoom_start
  exact ⟨same, fun outcome m => Walk.wellUsed_of_stops (stops outcome m)⟩

/-- So does a last import, whose references are checked. -/
lemma balanced_importLast :
    ((importer.importChecked last).run (importer.importEach ids).2).2.guard.Idle ∧
      Walk.WellUsed (importer.importLast ids last) := by
  have checked : (importer.importChecked last).Balanced importer.options.maxDepth.toNat :=
    balanced_importChecked
  obtain ⟨same, stops⟩ := checked.after hasRoom_start (balanced_importEach importer ids).1
  have idle := same.idle WalkGuard.idle_new
  refine ⟨idle, ?_⟩
  unfold importLast finish
  rw [idle.close_eq]
  exact Walk.wellUsed_of_stops stops

end Importer

namespace Exporter

/-- Exports one after the other each leave what they enter. -/
lemma balanced_exportEach (exporter : Exporter) (nodes : List (Place × Schema)) :
    exporter.start.SameKeys (exporter.exportEach nodes).2 ∧
      ∀ outcome ∈ (exporter.exportEach nodes).1, Walk.WellUsed outcome := by
  have roots : ∀ walk ∈ nodes.map fun node => exporter.exportRoot node.1 node.2,
      walk.BehavesFrom (fun _ => True) ExportState.SameKeys (∃ reason, · = .failed reason) := by
    intro walk m
    obtain ⟨node, -, rfl⟩ := List.mem_map.1 m
    exact balanced_exportNode.behavesFrom
  obtain ⟨same, stops⟩ := Walk.BehavesFrom.runEach ExportWalk.Balanced.refl
    ExportWalk.Balanced.trans (fun _ _ _ _ => trivial) roots trivial
  exact ⟨same, fun outcome m => Walk.wellUsed_of_stops (stops outcome m)⟩

/-- An export that is given up has left what it entered. -/
lemma wellUsed_finish {exporter : Exporter} {α : Type} {walk : ExportWalk α} (h : walk.Balanced) :
    Walk.WellUsed (finish (walk.run exporter.start)) := by
  obtain ⟨same, stops⟩ := h exporter.start
  unfold finish
  rw [(same.idle WalkGuard.idle_new).close_eq]
  exact Walk.wellUsed_of_stops stops

end Exporter

namespace Schema

variable {options : ExportOptions} {name : String} {node : Schema}

lemma wellUsed_toTypeExprUnchecked : Walk.WellUsed (node.toTypeExprUnchecked options) :=
  Exporter.wellUsed_finish Exporter.balanced_exportNode

lemma wellUsed_toTypeExpr : Walk.WellUsed (node.toTypeExpr options) := by
  unfold toTypeExpr
  split
  · exact wellUsed_toTypeExprUnchecked
  · exact Walk.wellUsed_failed

lemma wellUsed_toDeclarations : Walk.WellUsed (node.toDeclarations options name) := by
  unfold toDeclarations
  split
  · exact Walk.wellUsed_failed
  · exact Exporter.wellUsed_finish balanced_exportDeclarations

end Schema

namespace Lowering

variable (declarations : List Declaration) (types : List TypeExpr) (store : TypeStore)

/-- Lowerings one after the other each end at depth zero. -/
lemma balanced_lowerEach :
    (lowerEach declarations types store).2.depth = (start store).depth ∧
      ∀ outcome ∈ (lowerEach declarations types store).1, Walk.WellUsed outcome := by
  have roots : ∀ walk ∈ types.map (lowerRoot declarations),
      walk.BehavesFrom (fun _ => True) (fun s s' => s'.depth = s.depth)
        (∃ reason, · = .failed reason) := by
    intro walk m
    obtain ⟨type, -, rfl⟩ := List.mem_map.1 m
    exact (kept_depth.lowerType maxRoom type).behavesFrom
  obtain ⟨same, stops⟩ := Walk.BehavesFrom.runEach kept_depth.refl kept_depth.trans
    (fun _ _ _ _ => trivial) roots trivial
  exact ⟨same, fun outcome m => Walk.wellUsed_of_stops (stops outcome m)⟩

/-- So does lowering all declarations, in any state of that depth. -/
lemma wellUsed_lowerAll {s : LowerState} (h : s.depth = (start store).depth) :
    Walk.WellUsed (finish ((lowerAll declarations).run s)).1 := by
  obtain ⟨same, stops⟩ := kept_depth.lowerAll declarations s
  have closed : ((lowerAll declarations).run s).2.depth.close = .ok () := by
    rw [same, h]
    rfl
  unfold finish
  rw [closed]
  exact Walk.wellUsed_of_stops stops

lemma wellUsed_lowerDeclarations : Walk.WellUsed (lowerDeclarations store declarations).1 := by
  unfold lowerDeclarations
  split
  · exact Walk.wellUsed_failed
  · exact wellUsed_lowerAll declarations store rfl

end Lowering

/-- Of imports in one state, optionally followed by a last one whose references are checked, of
exports in one state or of whole trees, and of lowerings in one state or of whole declarations, none
misuses its guard or counter, whether it succeeds or stops: a key is left only while it is entered,
a level only above zero, and no key or level remains in the end. -/
theorem guards_never_misused :
    (∀ (importer : Importer) (ids : List TypeId),
      (∀ outcome ∈ (importer.importEach ids).1, Walk.WellUsed outcome) ∧
      (importer.importEach ids).2.guard.Idle ∧
      ∀ last, Walk.WellUsed (importer.importLast ids last) ∧
        ((importer.importChecked last).run (importer.importEach ids).2).2.guard.Idle) ∧
    (∀ (exporter : Exporter) (nodes : List (Place × Schema)),
      (∀ outcome ∈ (exporter.exportEach nodes).1, Walk.WellUsed outcome) ∧
      (exporter.exportEach nodes).2.guard.Idle) ∧
    (∀ (options : ExportOptions) (name : String) (node : Schema),
      Walk.WellUsed (node.toTypeExpr options) ∧
      Walk.WellUsed (node.toTypeExprUnchecked options) ∧
      Walk.WellUsed (node.toDeclarations options name)) ∧
    ∀ (store : TypeStore) (declarations : List Declaration) (types : List TypeExpr),
      (∀ outcome ∈ (Lowering.lowerEach declarations types store).1, Walk.WellUsed outcome) ∧
      (Lowering.lowerEach declarations types store).2.depth.depth = 0 ∧
      Walk.WellUsed (Lowering.finish ((Lowering.lowerAll declarations).run
        (Lowering.lowerEach declarations types store).2)).1 ∧
      Walk.WellUsed (lowerDeclarations store declarations).1 := by
  refine ⟨?_, ?_, ?_, ?_⟩
  · intro importer ids
    obtain ⟨same, each⟩ := importer.balanced_importEach ids
    refine ⟨each, same.idle WalkGuard.idle_new, fun last => ?_⟩
    exact (importer.balanced_importLast ids last).symm
  · intro exporter nodes
    obtain ⟨same, each⟩ := exporter.balanced_exportEach nodes
    exact ⟨each, same.idle WalkGuard.idle_new⟩
  · intro options name node
    exact ⟨Schema.wellUsed_toTypeExpr, Schema.wellUsed_toTypeExprUnchecked,
      Schema.wellUsed_toDeclarations⟩
  · intro store declarations types
    obtain ⟨same, each⟩ := Lowering.balanced_lowerEach declarations types store
    exact ⟨each, by rw [same]; rfl, Lowering.wellUsed_lowerAll declarations store same,
      Lowering.wellUsed_lowerDeclarations declarations store⟩

end TypeSchema
