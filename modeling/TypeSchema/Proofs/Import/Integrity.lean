import TypeSchema.Proofs.Import.Faithful
import TypeSchema.Proofs.Import.Refusals

/-!
# Integrity of references

A union or intersection of a single member is imported as that member's node, and if both it and the
member are given identifiers, the node keeps the identifier of the outer one alone. This is the only
way in which a reference can lose the node it names: where it cannot happen, no import is refused
for its references.
-/

namespace TypeSchema.Importer

variable (importer : Importer)

/-- The other type is a part of the type. -/
def Edge (id part : TypeId) : Prop := .part part ∈ importer.steps id

/-- The other type is met when the type is imported. -/
def Reaches : TypeId → TypeId → Prop := Relation.ReflTransGen importer.Edge

/-- A type that may be given an identifier when `root` is imported: one with an alias name other
than the root, or one that contains itself. -/
def Nameable (root id : TypeId) : Prop :=
  (id ≠ root ∧ importer.aliasName? id ≠ none) ∨ Relation.TransGen importer.Edge id id

/-- No union or intersection of a single member that may be given an identifier is imported as the
node of another such type. -/
def KeepsNames (root : TypeId) : Prop :=
  ∀ id member inner, importer.Reaches root id → importer.Link id member →
    importer.Collapses member inner →
    ¬ (importer.Nameable root id ∧ importer.Nameable root inner)

/-- Through the types it is inside of, the import of the root has come to the type. -/
def At (root : TypeId) (visiting : List TypeId) (id : TypeId) : Prop :=
  (visiting = [] ∧ id = root) ∨
    (root ∈ visiting ∧ ∀ j ∈ visiting, Relation.TransGen importer.Edge j id)

/-- The import of the root is inside of the given types, and only types that may be given an
identifier have one. -/
structure Underway (root : TypeId) (visiting : List TypeId) (s : ImportState) : Prop where
  consistent : s.Consistent
  visiting : s.guard.visiting = visiting
  nameable : ∀ id identifier, s.Assigned id identifier → importer.Nameable root id

variable {importer} {root id : TypeId} {visiting : List TypeId} {s s' : ImportState} {node : Schema}

lemma At.reaches (h : importer.At root visiting id) : importer.Reaches root id := by
  rcases h with ⟨-, rfl⟩ | ⟨m, h⟩
  · exact .refl
  · exact (h root m).to_reflTransGen

/-- Inside of a type, an import comes to its parts. -/
lemma At.part {part : TypeId} (h : importer.At root visiting id) (e : importer.Edge id part) :
    importer.At root (id :: visiting) part := by
  right
  rcases h with ⟨rfl, rfl⟩ | ⟨m, h⟩
  · refine ⟨List.mem_cons_self, fun j m => ?_⟩
    obtain rfl := List.mem_singleton.1 m
    exact .single e
  · refine ⟨List.mem_cons_of_mem _ m, fun j m => ?_⟩
    cases m with
    | head => exact .single e
    | tail _ m => exact .tail (h j m) e

/-- The parts of a type are what its steps import. -/
lemma edge_of_mem {ids : List TypeId} {part : TypeId} (p : importer.steps id = ids.map .part)
    (m : part ∈ ids) : importer.Edge id part := by
  unfold Edge
  rw [p]
  exact List.mem_map_of_mem m

/-- The import of the root starts with no identifiers given. -/
lemma underway_start : importer.Underway root [] importer.start := by
  refine ⟨consistent_start, rfl, ?_⟩
  rintro id identifier (h | h) <;> cases h

/-- A type that is entered inside of another one is not the root. -/
lemma Underway.ne_root {guard : WalkGuard TypeId} (w : importer.Underway root visiting s)
    (a : importer.At root visiting id) (e : s.guard.enter id = (.entered, guard))
    (n : 1 < guard.depth) : id ≠ root := by
  obtain ⟨-, m, -, rfl⟩ := WalkGuard.enter_eq_entered.1 e
  rintro rfl
  rcases a with ⟨empty, -⟩ | ⟨m', -⟩
  · have n : 1 < s.guard.depth + 1 := n
    rw [w.consistent.depth, w.visiting, empty] at n
    simp at n
  · exact m (w.visiting ▸ m')

/-- The import goes on inside of a type that it has come to. -/
lemma Underway.begin {guard : WalkGuard TypeId} (w : importer.Underway root visiting s)
    (n : s.named.lookup id = none) (e : s.guard.enter id = (.entered, guard)) :
    importer.Underway root (id :: visiting) (s.begin guard id) := by
  obtain ⟨-, m, -, -⟩ := WalkGuard.enter_eq_entered.1 e
  refine ⟨w.consistent.begin n e, (visiting_begin e).trans (by rw [w.visiting]), ?_⟩
  intro j i b
  exact w.nameable j i ((w.consistent.assigned_begin m).1 b)

/-- A type that is met while it is imported contains itself. -/
lemma Underway.nameable_of_mem (w : importer.Underway root visiting s)
    (a : importer.At root visiting id) (m : id ∈ s.guard.visiting) : importer.Nameable root id := by
  right
  rcases a with ⟨empty, -⟩ | ⟨-, a⟩
  · rw [w.visiting, empty] at m
    exact absurd m List.not_mem_nil
  · exact a id (w.visiting ▸ m)

/-- A type that is met while it is imported is referred to. -/
lemma Underway.refer {n : Nat} (w : importer.Underway root visiting s)
    (a : importer.At root visiting id) (m : id ∈ s.guard.visiting) :
    importer.Underway root visiting
      (importer.refer id { s with guard := { s.guard with iterations := n } }).2 := by
  rcases refer_cases importer id { s with guard := { s.guard with iterations := n } } with
    ⟨-, r⟩ | ⟨u, t, cl, r⟩
  · rw [r]
    exact ⟨w.consistent.count n, w.visiting, w.nameable⟩
  · rw [r]
    obtain ⟨c, x, back⟩ := (w.consistent.count n).assign cl m u
    refine ⟨c, x.visiting.trans w.visiting, ?_⟩
    intro j i b
    rcases back j i b with b | ⟨rfl, -⟩
    · exact w.nameable j i b
    · exact w.nameable_of_mem a m

/-- A type that is completed contains itself, or has an alias name and is not the root. -/
lemma Underway.complete {guard guard' : WalkGuard TypeId} {inside : ImportState}
    {identifier : Option String} (w : importer.Underway root visiting s)
    (a : importer.At root visiting id) (e : s.guard.enter id = (.entered, guard))
    (wi : importer.Underway root (id :: visiting) inside) (l : inside.guard.leave id = .ok guard')
    (o : importer.conclude (1 < guard.depth) id (inside.currentIdentifier? id)
      (inside.left guard' id) = (identifier, s')) :
    importer.Underway root visiting (s'.complete id identifier) := by
  obtain ⟨c, g, -, -, -, back⟩ := complete_of_conclude wi.consistent wi.visiting l o
  refine ⟨c, ?_, ?_⟩
  · rw [g]
    obtain ⟨-, rfl⟩ := WalkGuard.leave_eq_ok.1 l
    show inside.guard.visiting.erase id = visiting
    rw [wi.visiting, List.erase_cons_head]
  · intro j i b
    rcases back j i b with b | ⟨rfl, nested, named⟩
    · exact wi.nameable j i b
    · exact .inl ⟨w.ne_root a e (of_decide_eq_true nested), named⟩

/-- Parts that are imported one after the other leave the import where it was. -/
lemma Underway.threads {R : TypeId → ImportState → Schema → ImportState → Prop}
    {ids : List TypeId} {nodes : List Schema} (w : importer.Underway root visiting s)
    (h : Walk.Threads R ids s nodes s')
    (step : ∀ part ∈ ids, ∀ t node t', R part t node t' →
      importer.Underway root visiting t → importer.Underway root visiting t') :
    importer.Underway root visiting s' := by
  refine (h.mem.preserves (I := importer.Underway root visiting) (E := fun _ _ => True)
    (fun _ => trivial) (fun _ _ _ _ _ => trivial) ?_ w).1
  rintro part t node t' ⟨m, -, r⟩ w
  exact ⟨step part m t node t' r w, trivial⟩

/-- An import gives identifiers only to types that may have one. -/
theorem Imports.underway (h : importer.Imports id s node s')
    (a : importer.At root visiting id) (w : importer.Underway root visiting s) :
    importer.Underway root visiting s' := by
  induction h using Imports.induct generalizing visiting with
  | leaf _ => exact w
  | named _ _ _ => exact w
  | cycle _ _ e _ =>
    obtain ⟨-, m, rfl⟩ := WalkGuard.enter_eq_cycle.1 e
    exact w.refer a m
  | entered _ n e p _ l o ih =>
    have wi := (w.begin n e).threads ih fun part m t node t' ⟨_, h⟩ w =>
      h (a.part (edge_of_mem p m)) w
    exact w.complete a e wi l o

/-- A built node carries no identifier of its own, unless it is the node of a single member. -/
lemma Shape.single_of_identifier {ids : List TypeId} {nodes : List Schema} {identifier : String}
    (h : importer.Shape id ids nodes node) (e : node.identifier = some identifier) :
    ∃ member, importer.Link id member ∧ ids = [member] ∧ nodes = [node] := by
  cases h with
  | single k => exact ⟨_, k, rfl, rfl⟩
  | _ => cases e

/-- The single part of a type is imported alone. -/
lemma imports_of_threads_singleton {part : TypeId}
    (h : Walk.Threads importer.Imports [part] s [node] s') : importer.Imports part s node s' := by
  cases h with
  | cons h t =>
    cases t with
    | nil => exact h

/-- An identifier that a node carries is that of a type it is the node of. -/
theorem Imports.identifier_eq_some {identifier : String} (h : importer.Imports id s node s')
    (c : s.Consistent) (e : node.identifier = some identifier) :
    ∃ inner, importer.Collapses id inner ∧ (inner, identifier) ∈ s'.named := by
  induction h using Imports.induct with
  | leaf l => cases l <;> cases e
  | named _ _ _ => cases e
  | cycle _ _ _ _ => cases e
  | @entered id s guard ids nodes inside guard' given s' _ n e' p all l f ih =>
    have cb := c.begin n e'
    obtain ⟨ci, x⟩ := threads_consistent all cb
    obtain ⟨-, -, named, -⟩ := complete_of_conclude ci (x.visiting.trans (visiting_begin e')) l f
    cases given with
    | some name =>
      obtain rfl : name = identifier := by
        simpa [Schema.under] using e
      exact ⟨id, .refl, List.mem_cons_self⟩
    | none =>
      obtain ⟨member, k, rfl, en⟩ := (shape_build p all.length).single_of_identifier e
      rw [en] at ih
      cases ih with
      | cons h t =>
        cases t with
        | nil =>
          obtain ⟨_, h⟩ := h
          obtain ⟨inner, ci, m⟩ := h cb e
          exact ⟨inner, .head k ci, by rw [named]; exact m⟩

/-- An identifier is carried by a built node, or it is that of a single member which the type would
replace by one of its own. -/
lemma mem_identifiers_under {ids : List TypeId} {nodes : List Schema} {identifier : Option String}
    {i : String} (h : importer.Shape id ids nodes node) (m : i ∈ nodes.flatMap Schema.identifiers) :
    i ∈ (node.under identifier).identifiers ∨
      (identifier ≠ none ∧ node.identifier = some i) := by
  rw [← h.identifiers] at m
  cases identifier with
  | none => exact .inl m
  | some name =>
    rw [Schema.identifiers_eq_collect, Schema.collect_eq, List.mem_append] at m
    cases m with
    | inl m => exact .inr ⟨by simp, Option.mem_toList.1 m⟩
    | inr m =>
      rw [identifiers_under]
      exact .inl (List.mem_cons_of_mem _ m)

/-- Every type that an import completes under an identifier leaves it in the node, if no identifier
is replaced by another one. -/
theorem Imports.carries_named (h : importer.Imports id s node s')
    (a : importer.At root visiting id) (w : importer.Underway root visiting s)
    (k : importer.KeepsNames root) :
    ∀ entry ∈ s'.named, entry ∈ s.named ∨ entry.2 ∈ node.identifiers := by
  induction h using Imports.induct generalizing visiting with
  | leaf _ => exact fun _ m => .inl m
  | named _ _ _ => exact fun _ m => .inl m
  | cycle _ _ _ _ =>
    intro entry m
    rw [refer_named] at m
    exact .inl m
  | @entered id s guard ids nodes inside guard' identifier s' u n e p all l o ih =>
    have wb := w.begin n e
    have wf := (Imports.entered u n e p all l o).underway a w
    have parts : importer.Underway root (id :: visiting) inside ∧ ∀ entry ∈ inside.named,
        entry ∈ s.named ∨ entry.2 ∈ nodes.flatMap Schema.identifiers := by
      refine (ih.mem.preserves (I := fun t => importer.Underway root (id :: visiting) t ∧
        ∀ entry ∈ t.named, entry ∈ s.named ∨ entry.2 ∈ nodes.flatMap Schema.identifiers)
        (E := fun _ _ => True) (fun _ => trivial) (fun _ _ _ _ _ => trivial)
        ?_ ⟨wb, fun _ m => .inl m⟩).1
      rintro part t node t' ⟨mp, mn, h, hn⟩ ⟨w, mt⟩
      have a' := a.part (edge_of_mem p mp)
      refine ⟨⟨h.underway a' w, fun entry m => ?_⟩, trivial⟩
      rcases hn a' w entry m with m | m
      · exact mt entry m
      · exact .inr (List.mem_flatMap.2 ⟨node, mn, m⟩)
    obtain ⟨wi, mi⟩ := parts
    obtain ⟨-, -, named, -⟩ := complete_of_conclude wi.consistent wi.visiting l o
    intro entry m
    rw [named, List.mem_append] at m
    rcases m with m | m
    · obtain ⟨i, rfl, rfl⟩ := Option.map_eq_some_iff.1 (Option.mem_toList.1 m)
      rw [identifiers_under]
      exact .inr List.mem_cons_self
    rcases mi entry m with m' | m'
    · exact .inl m'
    have shape := shape_build p all.length
    rcases mem_identifiers_under shape m' with m' | ⟨ne, e'⟩
    · exact .inr m'
    -- Only here could an identifier be lost: the node of a single member carries one already.
    obtain ⟨member, link, rfl, en⟩ := shape.single_of_identifier e'
    obtain ⟨name, rfl⟩ := Option.ne_none_iff_exists'.1 ne
    rw [en] at all
    obtain ⟨inner, c, mi⟩ :=
      (imports_of_threads_singleton all).identifier_eq_some wb.consistent e'
    have ni : importer.Nameable root inner :=
      wf.nameable inner entry.2 (.inl (by rw [named]; exact List.mem_cons_of_mem _ mi))
    have nid : importer.Nameable root id := wf.nameable id name assigned_complete
    exact absurd ⟨nid, ni⟩ (k id member inner a.reaches link c)

/-- A node refers to the same targets under any identifier. -/
lemma references_under {identifier : Option String} :
    (node.under identifier).references = node.references := by
  cases identifier with
  | none => rfl
  | some name =>
    unfold Schema.under Schema.withIdentifier
    rw [Schema.references_eq_collect, Schema.collect_eq, Schema.target?_withInfo,
      Schema.children_withInfo, ← Schema.collect_eq]
    rfl

/-- The references of a built node are those of the nodes it is built of. -/
lemma Shape.references {ids : List TypeId} {nodes : List Schema}
    (h : importer.Shape id ids nodes node) :
    node.references = nodes.flatMap Schema.references :=
  h.collect Schema.mark_target?

/-- The references of nodes name types that have the identifiers, if those of each do. -/
lemma references_assigned_of_threads {R : TypeId → ImportState → Schema → ImportState → Prop}
    {ids : List TypeId} {nodes : List Schema} (h : Walk.Threads R ids s nodes s')
    (step : ∀ id t node t', R id t node t' → t.Consistent →
      (t'.Consistent ∧ t.Extends t') ∧ ∀ r ∈ node.references, ∃ j, t'.Assigned j r)
    (c : s.Consistent) : ∀ r ∈ nodes.flatMap Schema.references, ∃ j, s'.Assigned j r := by
  have parts := h.forall₂ .refl (fun _ _ _ => .trans) (fun _ _ _ _ h c => (step _ _ _ _ h c).1) c
  intro r m
  obtain ⟨node, mn, m⟩ := List.mem_flatMap.1 m
  obtain ⟨part, -, t, t', h, ct, -, x'⟩ := exists_of_forall₂ parts.flip node mn
  obtain ⟨j, b⟩ := (step _ _ _ _ h ct).2 r m
  exact ⟨j, x'.assigned j r b⟩

/-- Every reference of an import names a type that has the identifier. -/
theorem Imports.references_assigned (h : importer.Imports id s node s') (c : s.Consistent) :
    ∀ r ∈ node.references, ∃ j, s'.Assigned j r := by
  induction h using Imports.induct with
  | leaf l => cases l <;> exact fun _ m => absurd m List.not_mem_nil
  | @named id s identifier _ e _ =>
    intro r m
    obtain rfl := List.mem_singleton.1 m
    exact ⟨id, .inl (mem_of_lookup e)⟩
  | cycle _ _ _ _ =>
    intro r m
    obtain rfl := List.mem_singleton.1 m
    exact ⟨_, assigned_refer⟩
  | @entered id s guard ids nodes inside guard' identifier s' _ n e p all l o ih =>
    have cb := c.begin n e
    obtain ⟨ci, x⟩ := threads_consistent all cb
    obtain ⟨-, -, -, -, forth, -⟩ :=
      complete_of_conclude ci (x.visiting.trans (visiting_begin e)) l o
    rw [references_under, (shape_build p all.length).references]
    intro r m
    obtain ⟨j, b⟩ := references_assigned_of_threads ih
      (fun _ _ _ _ ⟨i, h⟩ c => ⟨i.consistent c, h c⟩) cb r m
    exact ⟨j, forth j r b⟩

/-- What types get an identifier for is referred to by the nodes, if it is by each. -/
lemma referenced_of_threads {R : TypeId → ImportState → Schema → ImportState → Prop}
    {ids : List TypeId} {nodes : List Schema} (h : Walk.Threads R ids s nodes s')
    (step : ∀ id t node t', R id t node t' → ∀ j name, t'.currentIdentifier? j = some name →
      t.currentIdentifier? j = some name ∨ name ∈ node.references) :
    ∀ j name, s'.currentIdentifier? j = some name →
      s.currentIdentifier? j = some name ∨ name ∈ nodes.flatMap Schema.references := by
  induction h with
  | nil => exact fun _ _ e => .inl e
  | cons r _ ih =>
    intro j name e
    rw [List.flatMap_cons, List.mem_append]
    rcases ih j name e with e | m
    · exact (step _ _ _ _ r j name e).imp_right .inl
    · exact .inr (.inr m)

/-- An identifier that a type gets while the walk is inside of it is referred to. -/
theorem Imports.referenced (h : importer.Imports id s node s') :
    ∀ j name, s'.currentIdentifier? j = some name →
      s.currentIdentifier? j = some name ∨ name ∈ node.references := by
  induction h using Imports.induct with
  | leaf _ => exact fun _ _ e => .inl e
  | named _ _ _ => exact fun _ _ e => .inl e
  | @cycle id s guard _ _ _ _ =>
    intro j name e
    rcases refer_cases importer id { s with guard } with ⟨-, r⟩ | ⟨-, t, ⟨-, count, rfl⟩, r⟩
    · rw [r] at e
      exact .inl e
    · rw [r, ImportState.currentIdentifier?_setProgress] at e
      split at e
      case isTrue =>
        obtain rfl := Option.some.inj e
        exact .inr List.mem_cons_self
      case isFalse => exact .inl e
  | @entered id s guard ids nodes inside guard' identifier s' _ _ _ p all _ o ih =>
    intro j name e
    have outside : inside.currentIdentifier? j = some name ∧ j ≠ id := by
      obtain ⟨known, k, -, -, eq⟩ := conclude_cases o
      rw [eq, ImportState.currentIdentifier?_complete, ImportState.currentIdentifier?_left] at e
      split at e
      case isTrue => cases e
      case isFalse ne =>
        rcases k with rfl | ⟨-, -, -, i, t, ⟨-, count, rfl⟩, rfl⟩
        · exact ⟨e, ne⟩
        · rw [ImportState.currentIdentifier?_setProgress, if_neg ne] at e
          exact ⟨e, ne⟩
    rw [references_under, (shape_build p all.length).references]
    have parts := referenced_of_threads ih (fun _ _ _ _ ⟨_, h⟩ => h) j name outside.1
    refine parts.imp_left fun e => ?_
    unfold ImportState.begin at e
    rwa [ImportState.currentIdentifier?_setProgress, if_neg outside.2] at e

/-! ## Reasons to stop -/

/-- Not the refusal of a tree for one of its references. -/
def NotIntegrity (error : ImportError) : Prop := ∀ r, error ≠ .recursionIntegrity r

/-- Types are refused for other reasons than references; those are checked in the end. -/
lemma refuses_notIntegrity : importer.Refuses NotIntegrity where
  unsupported _ _ e := nomatch e
  limit _ _ e := nomatch e
  reference _ e := nomatch e
  repeated _ _ _ _ e := nomatch e

/-- An import that is refused for a reference has given a node with that reference, none of whose
nodes carries the identifier. -/
lemma imports_of_recursionIntegrity {r : String}
    (h : importer.fromType root = .error (.failed (.recursionIntegrity r))) :
    ∃ node s', importer.Imports root importer.start node s' ∧ r ∈ node.references ∧
      r ∉ node.identifiers := by
  rcases run_of_fromType h with ⟨_, e⟩ | ⟨node, s', g, e⟩
  · exact absurd rfl (refuses_notIntegrity.failsOnly_importType _ _ _ e r)
  · obtain ⟨_, ⟨⟩, m, n⟩ := recursionIntegrity_of_checkReferences e
    exact ⟨node, s', imports_of_gives g, m, n⟩

/--
No dangling reference: where no union or intersection of a single member can take the identifier of
its member's node away, no import is refused for its references.
-/
theorem fromType_integrity (k : importer.KeepsNames root) (r : String) :
    importer.fromType root ≠ .error (.failed (.recursionIntegrity r)) := by
  intro h
  obtain ⟨node, s', i, m, n⟩ := imports_of_recursionIntegrity h
  have w : importer.Underway root [] importer.start := underway_start
  have a : importer.At root [] root := .inl ⟨rfl, rfl⟩
  have w' := i.underway a w
  obtain ⟨j, b⟩ := i.references_assigned consistent_start r m
  have named : (j, r) ∈ s'.named := by
    rcases b with b | b
    · exact b
    · have v := w'.consistent.entered j r b
      rw [w'.visiting] at v
      exact absurd v List.not_mem_nil
  rcases i.carries_named a w k (j, r) named with e | e
  · exact absurd e List.not_mem_nil
  · exact n e

/-- A store with a named union whose only member is an array, and a pair of two such unions. -/
def pairOfLists : TypeStore :=
  let (list, store) := TypeStore.new.array .string
  let (union, store) := store.union [list]
  (store.tuple [⟨union, false, false⟩, ⟨union, false, false⟩]).2.setAliasName union "List"

/-- The importer of the store. -/
def pairImporter : Importer := ⟨pairOfLists.checker, "types.ts", {}⟩

/-- The array has no name, so that the union takes none from it. -/
lemma keepsNames_pairOfLists : pairImporter.KeepsNames ⟨15⟩ := by
  rintro id member inner - link collapses ⟨-, n⟩
  have known : ∀ i < 16, (pairImporter.checker.constituents ⟨i⟩).length = 1 → i = 14 := by decide
  have outside : ∀ i, 16 ≤ i → pairImporter.checker.constituents ⟨i⟩ = [] := by
    intro i h
    have none : pairOfLists.lookup ⟨i⟩ = none := Array.getElem?_eq_none h
    show pairOfLists.constituents ⟨i⟩ = []
    simp [TypeStore.constituents, none]
  have only : ∀ j m, pairImporter.Link j m → j = ⟨14⟩ ∧ m = ⟨13⟩ := by
    rintro ⟨i⟩ m ⟨-, e⟩
    by_cases h : i < 16
    · obtain rfl := known i h (by rw [e]; rfl)
      have e' : [(⟨13⟩ : TypeId)] = [m] := e
      cases e'
      exact ⟨rfl, rfl⟩
    · rw [outside i (by omega)] at e
      cases e
  obtain ⟨rfl, rfl⟩ := only id member link
  have inner_eq : inner = ⟨13⟩ := by
    rcases Relation.ReflTransGen.cases_head collapses with e | ⟨_, l, -⟩
    · exact e.symm
    · exact absurd (only _ _ l).1 (by decide)
  subst inner_eq
  have edge : ∀ part, pairImporter.Edge ⟨13⟩ part → part = .string := by
    intro part m
    have m : ImportStep.part part ∈ [ImportStep.part .string] := m
    cases List.mem_singleton.1 m
    rfl
  have leaf : ∀ part, ¬ pairImporter.Edge .string part := by
    intro part m
    have m : ImportStep.part part ∈ [pairImporter.refusal .string] := m
    cases List.mem_singleton.1 m
  rcases n with ⟨-, named⟩ | cycle
  · exact named rfl
  · rcases Relation.TransGen.head'_iff.1 cycle with ⟨part, e, rest⟩
    obtain rfl := edge part e
    rcases Relation.ReflTransGen.cases_head rest with e | ⟨next, e, -⟩
    · exact absurd e (by decide)
    · exact leaf next e

/-- A pair of named lists is not refused for its references. -/
theorem fromType_pairOfLists_integrity :
    pairImporter.KeepsNames ⟨15⟩ ∧
      pairImporter.fromType ⟨15⟩ ≠ .error (.failed (.recursionIntegrity "List")) :=
  ⟨keepsNames_pairOfLists, fromType_integrity keepsNames_pairOfLists "List"⟩

/-- Where the member of a named union has a name too, its reference is left without a node. -/
example :
    let store := (TypeStore.new.array .string).2.setAliasName ⟨13⟩ "Inner"
    let store := (store.union [⟨13⟩]).2.setAliasName ⟨14⟩ "Outer"
    let store := (store.tuple [⟨⟨14⟩, false, false⟩, ⟨⟨13⟩, false, false⟩]).2
    fromType ⟨store.checker, "types.ts", {}⟩ ⟨15⟩ =
      .error (.failed (.recursionIntegrity "Inner")) := by rfl

end TypeSchema.Importer
