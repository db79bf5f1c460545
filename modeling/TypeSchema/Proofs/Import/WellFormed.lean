import TypeSchema.Proofs.Import.Run
import TypeSchema.Proofs.Import.Shape
import TypeSchema.Proofs.Schema.Constructed

/-!
# Imported trees are well-formed

Some rules put a node together themselves, without the functions that refuse what is invalid: the
intersection of an object type with index signatures, and references to types. The steps of a rule
see to it that such a node is well-formed all the same, whatever the checker answers.
-/

namespace TypeSchema

namespace Schema

variable {node : Schema}

lemma WellFormed.atPlace (w : node.WellFormed) (isOptional : Bool) :
    (node.atPlace isOptional).WellFormed := by
  unfold Schema.atPlace
  split
  · exact w.toOptional
  · exact w

lemma WellFormed.documented (w : node.WellFormed) (documentation : Option String) :
    (node.documented documentation).WellFormed := by
  unfold Schema.documented
  split
  · exact w.withInfo _
  · exact w

/-- The node of a property is well-formed if that of its type is. -/
lemma WellFormed.property (w : node.WellFormed) (property : PropertyInfo) :
    (property.node node).2.WellFormed := (w.atPlace _).documented _

/-- A reference to a name that is not empty. -/
lemma wellFormed_reference {target : String} (ne : target ≠ "") :
    (reference target {}).WellFormed := .of_children ne fun _ m => absurd m List.not_mem_nil

lemma wellFormed_record {key value : Schema} (wk : key.WellFormed) (wv : value.WellFormed) :
    (record key value {}).WellFormed := by
  refine .of_children trivial fun child m => ?_
  obtain rfl | rfl : child = key ∨ child = value := by simpa [children] using m
  · exact wk
  · exact wv

end Schema

namespace Importer

variable {importer : Importer} {id : TypeId}

/-- Properties that take steps which succeed have different names. -/
lemma nodup_of_propertySteps {properties : List PropertyInfo} {rest : List ImportStep}
    {ids : List TypeId} (h : propertySteps properties ++ rest = ids.map .part) :
    (properties.map (·.name)).Nodup := by
  cases r : firstRepeated? [] (properties.map (·.name)) with
  | none => exact (firstRepeated?_eq_none.1 r).1
  | some name =>
    have m : ImportStep.stop (.construction (.duplicateProperty name)) ∈ ids.map .part := by
      rw [← h, propertySteps, r]
      simp
    simp at m

/-- So do those of an object type whose steps succeed. -/
lemma nodup_of_steps {ids : List TypeId} (p : importer.steps id = ids.map .part)
    (r : importer.checker.ruleFor? id = some .object) :
    ((importer.checker.properties id).map (·.name)).Nodup := by
  simp only [steps, r] at p
  exact nodup_of_propertySteps p

/-- The object of properties with different names is well-formed if the nodes of their types are. -/
lemma wellFormed_properties {properties : List PropertyInfo} {nodes : List Schema}
    (n : (properties.map (·.name)).Nodup) (l : nodes.length = properties.length)
    (all : ∀ node ∈ nodes, node.WellFormed) :
    (Schema.object (properties.zipWith PropertyInfo.node nodes) {}).WellFormed := by
  apply Schema.WellFormed.of_children
  · show ((properties.zipWith PropertyInfo.node nodes).map (·.1)).Nodup
    rw [List.map_zipWith]
    exact (zipWith_left l).symm ▸ n
  · show ∀ child ∈ (properties.zipWith PropertyInfo.node nodes).map (·.2), child.WellFormed
    rw [List.map_zipWith]
    exact forall_mem_zipWith all fun property node w => w.property property

/-- What is built of well-formed nodes is well-formed. -/
theorem Shape.wellFormed {ids : List TypeId} {nodes : List Schema} {node : Schema}
    (h : importer.Shape id ids nodes node)
    (n : importer.checker.ruleFor? id = some .object →
      ((importer.checker.properties id).map (·.name)).Nodup)
    (all : ∀ node ∈ nodes, node.WellFormed) : node.WellFormed := by
  cases h with
  | @function signature overloads arguments returns _ _ l =>
    refine .of_children trivial fun child m => ?_
    rcases List.mem_append.1 m with m | m
    · refine forall_mem_zipWith (fun node m => all node (List.mem_append_left _ m)) ?_ child m
      exact fun parameter node w => w.atPlace parameter.isOptional
    · cases List.mem_singleton.1 m
      exact all returns (List.mem_append_right _ List.mem_cons_self)
  | tuple =>
    refine .of_children trivial ?_
    exact forall_mem_zipWith all fun element node w => w.atPlace element.isOptional
  | array => exact .of_children trivial all
  | single => exact all node List.mem_cons_self
  | composite _ two l => exact .of_children (Nat.le_trans two (Nat.le_of_eq l.symm)) all
  | record =>
    exact Schema.wellFormed_record (all _ List.mem_cons_self)
      (all _ (List.mem_cons_of_mem _ List.mem_cons_self))
  | object r _ l => exact wellFormed_properties (n r) l all
  | @indexed nodes entries r ne l le =>
    have some : 1 ≤ entries.length := by
      rw [le]
      exact List.length_pos_iff.2 ne
    apply Schema.WellFormed.of_children
    · -- Without properties there is more than one index signature.
      show 2 ≤ (_ ++ _ : List Schema).length
      rw [List.length_append, List.length_map]
      split
      case isTrue empty =>
        have := (not_record_of_object r).resolve_left (not_not.2 empty)
        rw [List.length_nil]
        omega
      case isFalse =>
        rw [List.length_singleton]
        omega
    · intro child m
      rcases List.mem_append.1 m with m | m
      · split at m
        case isTrue => exact absurd m List.not_mem_nil
        case isFalse =>
          cases List.mem_singleton.1 m
          exact wellFormed_properties (n r) l fun node m => all node (List.mem_append_left _ m)
      · obtain ⟨entry, me, rfl⟩ := List.mem_map.1 m
        have part : ∀ node ∈ [entry.1, entry.2], node.WellFormed := fun node m =>
          all node (List.mem_append_right _ (List.mem_flatMap.2 ⟨entry, me, m⟩))
        exact Schema.wellFormed_record (part _ List.mem_cons_self)
          (part _ (List.mem_cons_of_mem _ List.mem_cons_self))

/-- Every import that gives a node gives a well-formed one. -/
theorem Imports.wellFormed {s s' : ImportState} {node : Schema}
    (h : importer.Imports id s node s') : node.WellFormed := by
  induction h using Imports.induct with
  | leaf l => cases l <;> exact .of_children trivial fun _ m => absurd m List.not_mem_nil
  | named _ _ ne => exact Schema.wellFormed_reference ne
  | cycle _ _ _ ne => exact Schema.wellFormed_reference ne
  | @entered id s guard ids nodes inside guard' identifier s' _ _ _ p all _ _ ih =>
    have parts : ∀ node ∈ nodes, node.WellFormed := by
      intro node m
      obtain ⟨_, _, _, _, _, w⟩ := ih.exists_of_mem node m
      exact w
    have built := (shape_build p all.length).wellFormed (nodup_of_steps p) parts
    cases identifier with
    | none => exact built
    | some identifier => exact built.withInfo _

/-- An import of a type gives a well-formed node if it gives one at all. -/
lemma wellFormed_of_run {node : Schema} {s : ImportState}
    (e : ((importer.importRoot id).run s).1 = .ok node) : node.WellFormed := by
  have given : (importer.importRoot id).Gives s node _ := Prod.ext e rfl
  exact (imports_of_gives given).wellFormed

/-- So do imports in one state. -/
lemma wellFormed_of_importEach {ids : List TypeId} {node : Schema}
    (m : .ok node ∈ (importer.importEach ids).1) : node.WellFormed := by
  obtain ⟨walk, mw, t, e⟩ := Walk.mem_runEach m
  obtain ⟨id, -, rfl⟩ := List.mem_map.1 mw
  exact wellFormed_of_run e

/-- So does a last import, whose references are checked. -/
lemma wellFormed_of_importLast {ids : List TypeId} {last : TypeId} {node : Schema}
    (h : importer.importLast ids last = .ok node) : node.WellFormed := by
  unfold importLast finish at h
  split at h
  case h_1 =>
    have given : (importer.importChecked last).Gives _ node _ := Prod.ext h rfl
    obtain ⟨imported, t, root, checked⟩ := Walk.gives_bind.1 given
    obtain ⟨_, _, -, same⟩ := Walk.gives_bind.1 checked
    obtain ⟨rfl, -⟩ := Walk.gives_pure.1 same
    exact (imports_of_gives root).wellFormed
  case h_2 => cases h

end Importer

end TypeSchema
