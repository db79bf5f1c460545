import Mathlib
import TypeSchema.Proofs.Export.Identifiers
import TypeSchema.Proofs.Import.Faithful

/-!
# The discipline of identifiers

While a graph is imported, a type that has an identifier is referred to and never expanded again,
and no two types have one identifier. So no two nodes of the result carry one, and the tree passes
the check that is made before it is exported.
-/

namespace TypeSchema

namespace Importer

open ImportState

variable {importer : Importer} {room : Nat} {root id inner : TypeId} {s u : ImportState}

/-- With room for the given number of types, the import of a type from a state comes to expand a
type, in the state that it has come to by then. What stops the import later makes no difference. -/
inductive Expands (importer : Importer) : Nat → TypeId → ImportState → TypeId → ImportState → Prop
  | here {room : Nat} {id : TypeId} {s : ImportState} {guard : WalkGuard TypeId} :
    importer.importLeaf? id (importer.checker.flags id) = none →
    s.named.lookup id = none →
    s.guard.enter id = (.entered, guard) →
    Expands importer (room + 1) id s id s
  | part {room : Nat} {id : TypeId} {s : ImportState} {guard : WalkGuard TypeId}
      {before : List TypeId} {nodes : List Schema} {t : ImportState} {part : TypeId}
      {after : List ImportStep} {inner : TypeId} {u : ImportState} :
    importer.importLeaf? id (importer.checker.flags id) = none →
    s.named.lookup id = none →
    s.guard.enter id = (.entered, guard) →
    importer.steps id = before.map .part ++ .part part :: after →
    (before.mapM (importer.importType room)).Gives (s.begin guard id) nodes t →
    Expands importer room part t inner u →
    Expands importer (room + 1) id s inner u

/-- A type that is entered, and not completed, has no identifier. -/
lemma not_assigned_of_entered (c : s.Consistent) {guard : WalkGuard TypeId}
    (n : s.named.lookup id = none) (e : s.guard.enter id = (.entered, guard)) (i : String) :
    ¬ s.Assigned id i := by
  obtain ⟨-, m, -, -⟩ := WalkGuard.enter_eq_entered.1 e
  rintro (a | a)
  · exact lookup_ne_none a n
  · exact m (c.entered id i a)

/-- A type has no identifier when it is expanded. -/
theorem Expands.not_assigned (h : importer.Expands room id s inner u) (c : s.Consistent)
    (i : String) : ¬ u.Assigned inner i := by
  induction h with
  | here _ n e => exact not_assigned_of_entered c n e i
  | part _ n e _ before _ ih =>
    have imports := (Walk.gives_mapM.1 before).imp fun _ _ _ _ => imports_of_gives
    exact ih (threads_consistent imports (c.begin n e)).1

/--
No identifier is carried by two nodes of an imported tree, and the tree passes the check that
precedes an export; no two types have one identifier when the import ends; and none is expanded that
has one.
-/
theorem fromType_identifiers {node : Schema} (h : importer.fromType root = .ok node) :
    node.identifiers.Nodup ∧
      (∀ id id' i, ((importer.importRoot root).run importer.start).2.Assigned id i →
        ((importer.importRoot root).run importer.start).2.Assigned id' i → id = id') ∧
      (∀ id s, importer.Expands importer.options.maxDepth.toNat root importer.start id s →
        ∀ i, ¬ s.Assigned id i) ∧
      node.checkIdentifiers = .ok () := by
  obtain ⟨s', g, refs⟩ := gives_of_fromType h
  have imports := imports_of_gives g
  obtain ⟨c, -⟩ := imports.consistent consistent_start
  obtain ⟨-, -, nodup, -⟩ := imports.carriesNew consistent_start
  refine ⟨nodup, ?_, fun id s x => x.not_assigned consistent_start, ?_⟩
  · rw [show ((importer.importRoot root).run importer.start).2 = s' from congrArg (·.2) g]
    exact c.unique
  · exact Schema.checkIdentifiers_eq_ok_iff.2 ⟨Schema.noClash_of_nodup nodup, refs⟩

/-- A store in which two types that contain themselves are called `Node`, and one that does has a
name that only a claim would make. -/
def namesakes : TypeStore :=
  let store :=
    (TypeStore.new.object [⟨"next", ⟨13⟩, false, false, none⟩]).2.setAliasName ⟨13⟩ "Node"
  let store := (store.object [⟨"next", ⟨14⟩, false, false, none⟩]).2.setAliasName ⟨14⟩ "Node2"
  let store := (store.object [⟨"next", ⟨15⟩, false, false, none⟩]).2.setAliasName ⟨15⟩ "Node"
  (store.tuple [⟨⟨13⟩, false, false⟩, ⟨⟨14⟩, false, false⟩, ⟨⟨15⟩, false, false⟩,
    ⟨⟨13⟩, false, false⟩]).2

/-- The importer of the store. -/
def namesakesImporter : Importer := ⟨namesakes.checker, "types.ts", {}⟩

set_option maxRecDepth 5000 in
/-- The types that are called alike are told apart. -/
theorem fromType_namesakes_identifiers :
    let importer := namesakesImporter
    let node : Schema := .tuple [
      .object [("next", .reference "Node" {})] { identifier := some "Node" },
      .object [("next", .reference "Node2" {})] { identifier := some "Node2" },
      .object [("next", .reference "Node3" {})] { identifier := some "Node3" },
      .reference "Node" {}] {}
    node.identifiers.Nodup ∧
      (∀ id id' i, ((importer.importRoot ⟨16⟩).run importer.start).2.Assigned id i →
        ((importer.importRoot ⟨16⟩).run importer.start).2.Assigned id' i → id = id') ∧
      (∀ id s, importer.Expands importer.options.maxDepth.toNat ⟨16⟩ importer.start id s →
        ∀ i, ¬ s.Assigned id i) ∧
      node.checkIdentifiers = .ok () := by
  intro importer node
  have h : importer.fromType ⟨16⟩ = .ok node := by cbv
  exact fromType_identifiers h

end Importer

end TypeSchema
