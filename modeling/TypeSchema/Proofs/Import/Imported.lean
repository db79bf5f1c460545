import TypeSchema.Proofs.Import.Accepted
import TypeSchema.Proofs.Import.Consistent
import TypeSchema.Proofs.Import.Faithful
import TypeSchema.Proofs.Import.Shape

/-!
# What imported nodes are made of

Apart from the state it runs in, an import makes a leaf, a reference, or a node built of imported
parts. A nested type without an alias name may come without an identifier; one with an alias name
never does. Descriptions are those of properties: no node is imported with one of its own.
-/

namespace TypeSchema.Importer

variable {importer : Importer} {isNested : Bool} {id : TypeId} {node : Schema} {s s' : ImportState}

/-- The node comes of an import of the type, inside of another type if it is nested. -/
def Imported (importer : Importer) (isNested : Bool) (id : TypeId) (node : Schema) : Prop :=
  ∃ s s', s.Consistent ∧ (isNested = true → 0 < s.guard.depth) ∧ importer.Imports id s node s'

/-- What a node that comes of an import is made of. -/
inductive Made (importer : Importer) (isNested : Bool) (id : TypeId) : Schema → Prop
  | leaf {node : Schema} :
    importer.LeafNode id node →
    Made importer isNested id node
  | reference {target : String} : Made importer isNested id (.reference target {})
  | built {ids : List TypeId} {nodes : List Schema} {identifier : Option String} :
    importer.importLeaf? id (importer.checker.flags id) = none →
    importer.steps id = ids.map .part →
    List.Forall₂ (importer.Imported true) ids nodes →
    (isNested = true → identifier = none → importer.aliasName? id = none) →
    Made importer isNested id ((importer.build id nodes).under identifier)

/-- A nested type that is completed without an identifier has no alias name. -/
lemma aliasName?_of_conclude {identifier : Option String}
    (h : importer.conclude true id identifier s = (none, s')) : importer.aliasName? id = none := by
  unfold conclude at h
  cases identifier with
  | some identifier => cases h
  | none =>
    cases a : importer.aliasName? id with
    | none => rfl
    | some name =>
      rw [a] at h
      cases h

/-- An imported node is made in one of these ways. -/
theorem Imported.made (h : importer.Imported isNested id node) :
    importer.Made isNested id node := by
  obtain ⟨s, s', c, nested, h⟩ := h
  cases h with
  | leaf l => exact .leaf l
  | named => exact .reference
  | cycle => exact .reference
  | @entered _ _ guard ids nodes inside guard' identifier _ n u e p all l o =>
    obtain ⟨-, -, -, rfl⟩ := WalkGuard.enter_eq_entered.1 e
    have parts := all.forall₂ .refl (fun _ _ _ => .trans) (fun _ _ _ _ h c => h.consistent c)
      (c.begin u e)
    refine .built n p (parts.imp ?_) fun isNested none => ?_
    · rintro part node ⟨t, t', h, ct, x, -⟩
      exact ⟨t, t', ct, fun _ => x.depth ▸ Nat.succ_pos _, h⟩
    · subst none
      have deep : 1 < s.guard.depth + 1 := Nat.succ_lt_succ (nested isNested)
      rw [decide_eq_true deep] at o
      exact aliasName?_of_conclude o

/-- What is built of nodes without descriptions has none. -/
lemma Shape.description {ids : List TypeId} {nodes : List Schema}
    (h : importer.Shape id ids nodes node)
    (all : ∀ node ∈ nodes, node.description = none) : node.description = none := by
  cases h with
  | single => exact all _ List.mem_cons_self
  | _ => rfl

/-- No node is imported with a description of its own. -/
theorem Imports.description (h : importer.Imports id s node s') : node.description = none := by
  induction h using Imports.induct with
  | leaf l => cases l <;> rfl
  | named => rfl
  | cycle => rfl
  | @entered id s guard ids nodes inside guard' identifier s' _ _ _ p all _ _ ih =>
    have parts : ∀ node ∈ nodes, node.description = none := by
      intro node m
      obtain ⟨_, _, _, _, _, none⟩ := ih.exists_of_mem node m
      exact none
    have built := (shape_build p all.length).description parts
    cases identifier with
    | none => exact built
    | some identifier =>
      show ((importer.build id nodes).withIdentifier (some identifier)).info.description = none
      unfold Schema.withIdentifier
      rw [Schema.info_withInfo]
      exact built

lemma Imported.description (h : importer.Imported isNested id node) : node.description = none := by
  obtain ⟨_, _, _, _, h⟩ := h
  exact h.description

/-- The identifiers of an imported tree are names that tell its nodes apart. -/
lemma identifiers_of_fromType (h : importer.fromType id = .ok node) :
    node.identifiers.Nodup ∧ "" ∉ node.identifiers := by
  obtain ⟨s', imports, -⟩ := imports_of_fromType h
  obtain ⟨new, named, nodup, known⟩ := imports.carriesNew consistent_start
  have proper := imports.proper ⟨consistent_start, List.not_mem_nil⟩
  refine ⟨nodup, fun m => proper.used ?_⟩
  obtain ⟨⟨id', _⟩, mn, rfl⟩ := List.mem_map.1 (known _ m)
  exact proper.consistent.used id' _ (.inl (named ▸ List.mem_append_left _ mn))

end TypeSchema.Importer
