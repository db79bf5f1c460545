import TypeSchema.Proofs.RoundTrip.Lowered

/-!
# Portable trees come back

A portable tree is exported, its declarations are lowered into a new store, and the type of the
first declaration is imported. What is imported is the tree with its later copies shared, and
without the identifier of the root unless the root is referred to.
-/

namespace TypeSchema.Schema

variable {root x : Schema} {xs : List Schema} {name title : String} {seen' : List String}
  {importer : Importer} {handle : String → TypeId} {id : TypeId} {ids : List TypeId}
  {declarations : List Declaration} {s s' : LowerState}

/-! ## The tree that comes back -/

lemma identifier_share (root : Schema) : (root.share []).1.identifier = root.identifier := by
  obtain ⟨shared, -, e⟩ := share_of_not_mem root fun _ m => absurd m List.not_mem_nil
  rw [e]
  exact identifier_withChildren

/-- The references of a portable tree name nodes of the shared tree. -/
lemma Portable.references_share (p : Portable name root) :
    (root.share []).1.references ⊆ (root.share []).1.identifiers := by
  intro target m
  refine identifiers_subset_share p.unambiguous ?_
  exact (List.mem_append.1 (Schema.references_share root [] m)).elim (p.references target)
    fun m => m

/-- The references of the tree that comes back name its nodes. -/
lemma Portable.references_ported (p : Portable name root) :
    ∀ target ∈ root.ported.references, target ∈ root.ported.identifiers := by
  unfold ported
  dsimp only
  cases e : root.identifier with
  | none => exact p.references_share
  | some identifier =>
    dsimp only
    split
    case isTrue => exact p.references_share
    case isFalse n =>
      rw [references_withIdentifier]
      intro target m
      have ne : target ≠ identifier := by
        rintro rfl
        exact n ((mem_references_share p.unambiguous e).1 m)
      have m' := p.references_share m
      rw [identifiers_eq_collect, collect_eq, identifier_share, e] at m'
      have e' : ((root.share []).1.withIdentifier none).identifiers =
          (root.share []).1.children.flatMap identifiers := by
        have own : ((root.share []).1.withIdentifier none).identifier = none :=
          congrArg NodeInfo.identifier (info_withInfo _ _)
        rw [identifiers_eq_collect, collect_eq, own]
        unfold withIdentifier
        rw [children_withInfo]
        rfl
      rw [e']
      exact (List.mem_append.1 m').resolve_left fun h => ne (List.mem_singleton.1 h)

/-! ## Importing the root -/

/-- Nothing is met when an import starts. -/
lemma met_start : importer.Met handle [] importer.start := by
  have none : ∀ id name, ¬ importer.start.Assigned id name := by
    rintro id name (h | h) <;> cases h
  exact ⟨Importer.consistent_start, fun _ m => absurd m List.not_mem_nil,
    fun _ m => absurd m List.not_mem_nil, fun _ m => absurd m List.not_mem_nil,
    fun id name a => absurd a (none id name), fun _ m => absurd m List.not_mem_nil⟩

lemma affords_start (p : Portable name root) (o : importer.options = {}) :
    importer.start.Affords importer.options.maxDepth.toNat root.height root.preorder.length := by
  have height := p.height
  have size := p.size
  have depth : importer.options.maxDepth.toNat = 500 := by rw [o]; rfl
  have work : importer.options.limits.maxIterations.toNat = 100000 := by rw [o]; rfl
  refine ⟨?_, ?_, ?_⟩
  · show 0 + root.height ≤ importer.options.maxDepth.toNat
    omega
  · show importer.options.maxDepth.toNat ≤ 0 + importer.options.maxDepth.toNat
    omega
  · show 0 + root.preorder.length ≤ importer.options.limits.maxIterations.toNat
    omega

/-- The node of the root has its identifier if it is referred to. -/
lemma currentIdentifier?_of_passed (p : Portable name root) (l : Resolved root root title [] xs
      seen' s ids s') (own : Entitled root root title) {room : Nat} {inside : ImportState}
    {guard' : WalkGuard TypeId} (unique : ∀ other, importer.aliasName? id = some other →
      other = title) (handled : handle title = id)
    (r : (root.share []).1.Resembles (root.withParts xs))
    (h : Passed importer handle room importer.start id root xs seen' inside guard') :
    ((root.withParts xs).withIdentifier (inside.currentIdentifier? id)).Resembles root.ported := by
  have known : ∀ other, inside.currentIdentifier? id = some other →
      other = title ∧ title ∈ seen' := by
    intro other e
    obtain ⟨m, rfl⟩ := h.met.assigned id other (.inr e)
    obtain rfl := unique other (h.met.names other m)
    exact ⟨rfl, m⟩
  have references : (root.withParts xs).references = (root.share []).1.references :=
    r.symm.references_eq
  rcases own with e | ⟨e, n⟩
  · have iff : inside.currentIdentifier? id = some title ↔ title ∈ root.references := by
      rw [← mem_references_share p.unambiguous e, ← references]
      refine ⟨h.referenced title, fun m => ?_⟩
      obtain ⟨j, a⟩ := h.assigned title m
      obtain ⟨-, rfl⟩ := h.met.assigned j title a
      -- The root is still open, so it is not among the types that are completed.
      rcases a with a | a
      · have v : handle title ∈ inside.guard.visiting := by
          rw [h.visiting, handled]
          exact List.mem_cons_self
        exact absurd v (h.met.consistent.completed _ _ a)
      · rwa [handled] at a
    unfold ported
    rw [e]
    dsimp only
    split
    case isTrue m =>
      rw [iff.2 m, withParts_withIdentifier e]
      exact r.symm
    case isFalse n =>
      have current : inside.currentIdentifier? id = none := by
        cases c : inside.currentIdentifier? id with
        | none => rfl
        | some other =>
          obtain ⟨rfl, -⟩ := known other c
          exact absurd (iff.1 c) n
      rw [current]
      exact r.symm.withIdentifier none
  · have current : inside.currentIdentifier? id = none := by
      cases c : inside.currentIdentifier? id with
      | none => rfl
      | some other => exact absurd (l.follows.known (known other c).2) n
    unfold ported
    rw [current, withParts_withIdentifier e, e]
    exact r.symm

/-- The type of the root comes back as the tree, if its parts do. -/
lemma exists_fromType_of_resolved (p : Portable name root) (k : root.mayBeIdentified)
    (own : Entitled root root title) (l : Resolved root root title [] xs seen' s ids s')
    (r : (root.share []).1.Resembles (root.withParts xs))
    (c : importer.checker = s'.store.checker) (o : importer.options = {}) :
    ∃ back, importer.fromType s.store.nextId = .ok back ∧ back.Resembles root.ported := by
  let handle := fun name => (s'.resolved.lookup name).getD default
  have handled : handle title = s.store.nextId := by simp [handle, l.resolved]
  have parts := l.returns importer s'.store handle c (TypeStore.Grows.refl _).keeps
    (fun name id e => by simp [handle, e])
  have unique : ∀ other, importer.aliasName? s.store.nextId = some other → other = title := by
    intro other e
    unfold Importer.aliasName? at e
    rw [c] at e
    have e := (Option.filter_eq_some_iff.1 e).1
    exact Option.some.inj (e.symm.trans l.named)
  have new : ∀ other ∈ root.identifier.toList,
      s.store.nextId = handle other ∧ importer.aliasName? s.store.nextId = some other := by
    intro other m
    have e : root.identifier = some other := Option.mem_toList.1 m
    obtain rfl : other = title := by
      rcases own with e' | ⟨e', -⟩
      · exact Option.some.inj (e.symm.trans e')
      · rw [e'] at e
        cases e
    refine ⟨handled.symm, ?_⟩
    unfold Importer.aliasName?
    rw [c]
    show (s'.store.aliasName? _).filter _ = _
    rw [l.named]
    simp [(p.identified root mem_preorder_self other e).1]
  obtain ⟨inside, guard', h⟩ := exists_passed root.identifier.toList
    (laidOut c k (p.wellFormed _ mem_preorder_self) l.length l.lookup) l.length parts met_start
    (fun _ m => absurd m List.not_mem_nil) (Nat.zero_le _) (TypeStore.index_lt l.lookup)
    (Nat.zero_le _) (Nat.le_refl _) (.inl (Nat.lt_succ_self _))
    (fun _ m => absurd m List.not_mem_nil) new (affords_start p o)
  -- The root is not nested, so it is not named by its alias if nothing refers to it.
  have concluded : importer.conclude (decide (0 < importer.start.guard.depth)) s.store.nextId
      (inside.currentIdentifier? s.store.nextId) (inside.left guard' s.store.nextId) =
        (inside.currentIdentifier? s.store.nextId, inside.left guard' s.store.nextId) := by
    unfold Importer.conclude
    cases inside.currentIdentifier? s.store.nextId <;> rfl
  obtain ⟨y, gives, ry⟩ := h.gives _ _ concluded
  have same := (ry.under _).trans (currentIdentifier?_of_passed p l own unique handled r h)
  refine ⟨_, Importer.fromType_of_gives gives ?_ ?_, same⟩
  · obtain ⟨-, rfl⟩ := WalkGuard.leave_eq_ok.1 h.leave
    rw [ImportState.complete_guard]
    show inside.guard.visiting.erase _ = []
    rw [h.visiting, List.erase_cons_head]
    rfl
  · rw [same.references_eq, same.identifiers_eq]
    exact p.references_ported

/-! ## Lowering the root -/

/-- A node that may be identified unfolds to itself with other parts, if no name is seen before. -/
lemma Unfolds.exists_parts (u : Unfolds root [] x seen') (k : root.mayBeIdentified) :
    ∃ nodes, x = root.withParts nodes ∧
      Walk.Threads Unfolds (root.parts.map (·.1)) (root.identifier.toList ++ []) nodes seen' := by
  cases u with
  | primitive => exact k.elim
  | literal => exact k.elim
  | reference => exact k.elim
  | copy _ m => cases m
  | parted _ _ all => exact ⟨_, rfl, all⟩

/-- Any other node that unfolds where no name is seen is a keyword or a literal. -/
lemma Unfolds.leaf (u : Unfolds root [] x seen') (k : ¬ root.mayBeIdentified)
    (declarations : List Declaration) :
    (declaring.body root).isStructural = false ∧
      (declaring.body root).aliasTarget? declarations = none := by
  rw [Exporter.body_eq]
  cases u with
  | primitive => exact ⟨rfl, rfl⟩
  | literal => exact ⟨rfl, rfl⟩
  | reference _ m => cases m
  | copy _ m => cases m
  | parted k' => exact absurd k' k

lemma follows_start (root : Schema) : (Lowering.start .new).Follows root [] :=
  ⟨TypeStore.sound_new, fun _ m => absurd m List.not_mem_nil, fun _ m => absurd m List.not_mem_nil,
    fun _ _ _ => rfl⟩

lemma keyed_start (root : Schema) : (Lowering.start .new).Keyed root := by
  intro host _ _ name _ id r
  cases r

/-- The root belongs to its title. -/
lemma Portable.entitled (p : Portable name root) : Entitled root root (root.rootName name) := by
  unfold Entitled rootName
  cases e : root.identifier with
  | none => exact .inr ⟨rfl, p.free e⟩
  | some identifier => exact .inl rfl

/-- The title of the root is resolved in a new store to a type that comes back as the root does, and
with it every identifier. -/
def RootReturns (declarations : List Declaration) (name : String) (root : Schema) : Prop :=
  ∃ id s, (Lowering.resolveAlias (Lowering.lowerRoot declarations) declarations
      (root.rootName name)).Gives (Lowering.start .new) id s ∧
    s.depth = (Lowering.start .new).depth ∧
    s.resolved.lookup (root.rootName name) = some id ∧
    (∀ identifier ∈ root.identifiers, ∃ id, s.resolved.lookup identifier = some id) ∧
    ∀ importer : Importer, importer.checker = s.store.checker → importer.options = {} →
      ∃ back, importer.fromType id = .ok back ∧ back.Resembles root.ported

/-- The root is declared under its title. -/
lemma declared?_rootName (d : Declared name root declarations) :
    declared? declarations (root.rootName name) =
      some ⟨root.rootName name, declaring.body root⟩ := by
  obtain ⟨rest, rfl, -⟩ := d.first
  exact declared?_eq_some d.nodup List.mem_cons_self

/-- A lowering that starts has room for all the levels that its counter allows. -/
lemma ample_start : (Lowering.start .new).depth.maxDepth.toNat ≤
    (Lowering.start .new).depth.depth + Lowering.maxRoom := by
  decide

/-- A root with parts is resolved to a type that is entered, as every identified type is. -/
lemma rootReturns_of_parts (p : Portable name root) (d : Declared name root declarations)
    (k : root.mayBeIdentified) (u : Unfolds root [] x (root.share []).2)
    (r : (root.share []).1.Resembles x) (seen : root.identifiers ⊆ (root.share []).2) :
    RootReturns declarations name root := by
  have height := p.height
  obtain ⟨nodes, rfl, all⟩ := u.exists_parts k
  have parts : LowersAll root declarations (root.parts.map (·.1))
      (root.identifier.toList ++ []) nodes (root.share []).2 := by
    refine lowersAll_of_threads (all.mem.imp ?_)
    rintro inner t y t' ⟨mi, -, u⟩
    obtain ⟨part, mp, rfl⟩ := List.mem_map.1 mi
    exact lowers_of_unfolds p d u (mem_root_of_part mem_preorder_self mp)
  obtain ⟨ids, s, g, l⟩ := exists_resolved p mem_preorder_self k p.entitled (declared?_rootName d) parts
    (follows_start root) (keyed_start root) rfl
    (by show 0 + 2 * root.height ≤ 500 + 1; omega) ample_start
  exact ⟨_, s, g, l.leads.depth, l.resolved, fun i m => l.follows.resolved i (seen m),
    fun importer c o => exists_fromType_of_resolved p k p.entitled l r c o⟩

/-- A root that is a leaf is resolved to the type of its keyword or literal, which is not entered. -/
lemma rootReturns_of_leaf (p : Portable name root) (d : Declared name root declarations)
    (k : ¬ root.mayBeIdentified) (u : Unfolds root [] x (root.share []).2)
    (r : (root.share []).1.Resembles x) (seen : root.identifiers ⊆ (root.share []).2) :
    RootReturns declarations name root := by
  have height := p.height
  have e : root.identifier = none := p.identifier_eq_none mem_preorder_self k
  obtain ⟨id, s, g, l⟩ := lowers_of_unfolds p d u mem_preorder_self mem_preorder_self
    (Lowering.start .new) Lowering.maxRoom (follows_start root) (.inr (keyed_start root))
    ⟨by show 0 + 2 * root.height ≤ 500; omega, ample_start⟩
  rw [partType_of_none e] at g
  obtain ⟨leaf, target⟩ := u.leaf k declarations
  refine ⟨id, _, Lowering.gives_resolveAlias_of_body rfl (declared?_rootName d) rfl target
    (Lowering.gives_lowerAliasBody_of_leaf leaf g), l.leads.depth, List.lookup_cons_self,
    fun i m => ?_, fun importer c o => ?_⟩
  · obtain ⟨id', r'⟩ := l.follows.resolved i (seen m)
    -- The title is noted twice, as the name of the body and as the end of its chain.
    show ∃ id', List.lookup i ((root.rootName name, id) :: (root.rootName name, id) ::
      s.resolved) = some id'
    exact exists_lookup_cons fun _ => exists_lookup_cons fun _ => ⟨id', r'⟩
  · let handle := fun name => (s.resolved.lookup name).getD default
    have returns := l.returns importer s.store handle c (TypeStore.Grows.refl _).keeps
      (fun name id e => by simp [handle, e])
    obtain ⟨y, s', gives, ry, -, x', -⟩ := returns.2 importer.start
      importer.options.maxDepth.toNat met_start (fun _ m => absurd m List.not_mem_nil)
      (fun k' => absurd k' k) (affords_start p o)
    have same : y.Resembles root.ported := by
      unfold ported
      rw [e]
      exact ry.trans r.symm
    refine ⟨y, Importer.fromType_of_gives gives x'.visiting ?_, same⟩
    rw [same.references_eq, same.identifiers_eq]
    exact p.references_ported

/-- The root of a portable tree comes back. -/
theorem rootReturns_of_portable (p : Portable name root) (d : Declared name root declarations) :
    RootReturns declarations name root := by
  have settled : ∀ size, root.Settled identifier [] [] size :=
    fun _ _ m => absurd m List.not_mem_nil
  obtain ⟨x, u, r⟩ := unfolds_of_portable p mem_preorder_self p.ordered (settled _)
  have seen : root.identifiers ⊆ (root.share []).2 :=
    (List.append_subset.1 (settled_share p mem_preorder_self (Nat.le_refl _) (settled _)).1).1
  by_cases k : root.mayBeIdentified
  · exact rootReturns_of_parts p d k u r seen
  · exact rootReturns_of_leaf p d k u r seen

/-- A portable tree is exported, its declarations are lowered into a new store, and the type of the
first declaration is imported as the tree that comes back, but for descriptions. -/
theorem fromType_of_portable (p : Portable name root) (file : String) :
    ∃ first rest ids store id back,
      root.toDeclarations {} name = .ok (first :: rest) ∧
      lowerDeclarations .new (first :: rest) = (.ok ids, store) ∧
      ids.lookup first.name = some id ∧
      Importer.fromType ⟨store.checker, file, {}⟩ id = .ok back ∧
      back.withoutDescriptions = root.ported.withoutDescriptions := by
  obtain ⟨declarations, exported, d⟩ := exists_declared p
  obtain ⟨id, s, g, depth, r, all, imported⟩ := rootReturns_of_portable p d
  have n := d.nodup
  obtain ⟨rest, rfl, names⟩ := d.first
  obtain ⟨ids, lowered, own⟩ := Lowering.lowerDeclarations_of_gives n g depth r
    fun declaration m => all _ (names declaration m)
  obtain ⟨back, h, same⟩ := imported ⟨s.store.checker, file, {}⟩ rfl rfl
  exact ⟨_, rest, ids, s.store, id, back, exported, lowered, own, h, same⟩

/-- The keys of the tables of `keyedTree`. -/
def tableKey : Schema :=
  composite .union [primitive .string {}, primitive .number {}] { identifier := some "Key" }

/-- A recursive tree, whose key type stands in it twice and is referred to. -/
def keyedTree : Schema :=
  object [
    ("first", tableKey),
    ("last", tableKey),
    ("table", record (reference "Key" {}) (array (reference "Tree" {}) {}) {}),
    ("parent", composite .union [reference "Tree" {}, primitive .undefined {}] {})]
    { identifier := some "Tree" }

lemma portable_keyedTree : Portable "Root" keyedTree where
  wellFormed := by decide
  identified := by
    simp [keyedTree, tableKey, preorder_eq, children, identifier, info, mayBeIdentified]
  unambiguous := by
    unfold Unambiguous
    simp [keyedTree, tableKey, preorder_eq, children, identifier, info]
  ordered := by
    simp [keyedTree, tableKey, preorder_eq, children, Scoped, identifier, info, target?]
  finite := by simp [keyedTree, tableKey, preorder_eq, children]
  keys := by
    simp [keyedTree, tableKey, preorder_eq, children, IsRecordKey, IsIndexKey, IsKeyUnion, target?,
      identifier, info]
  optional := by
    simp [keyedTree, tableKey, preorder_eq, children, optionalPlaces, optionalType?, identifier,
      info, admitsUndefined]
  free := by simp [keyedTree, identifier, info]
  height := by decide
  size := by decide

/-- The later copy of the key type comes back as a reference; the root, which is referred to, keeps
its identifier. -/
theorem fromType_keyedTree :
    Portable "Root" keyedTree ∧ ∃ first rest ids store id back,
      keyedTree.toDeclarations {} "Root" = .ok (first :: rest) ∧
      lowerDeclarations .new (first :: rest) = (.ok ids, store) ∧
      ids.lookup first.name = some id ∧
      Importer.fromType ⟨store.checker, "types.ts", {}⟩ id = .ok back ∧
      back.withoutDescriptions = object [
        ("first", tableKey),
        ("last", reference "Key" {}),
        ("table", record (reference "Key" {}) (array (reference "Tree" {}) {}) {}),
        ("parent", composite .union [reference "Tree" {}, primitive .undefined {}] {})]
        { identifier := some "Tree" } :=
  ⟨portable_keyedTree, fromType_of_portable portable_keyedTree "types.ts"⟩

end TypeSchema.Schema
