import TypeSchema.Proofs.Import.Integrity
import TypeSchema.Proofs.RoundTrip.Layout
import TypeSchema.Proofs.RoundTrip.Met

/-!
# Types that come back as given trees

A type comes back as a tree if it is imported as one that resembles it, in every state that has met
the names seen before, and the names seen after it are met then. The types of leaves and of names
that were met come back at once; a type that is entered comes back if its parts do.
-/

namespace TypeSchema

open Schema

variable {importer : Importer} {handle : String → TypeId}
  {first first' bound bound' room height work : Nat}
  {seen seen' seen'' : List String} {s s' : ImportState} {id : TypeId} {ids : List TypeId}
  {node x : Schema} {nodes xs : List Schema} {name : String}

/-- The walk is inside of no type between two bounds. -/
def ImportState.Apart (s : ImportState) (first bound : Nat) : Prop :=
  ∀ id ∈ s.guard.visiting, id.index < first ∨ bound ≤ id.index

/-- A walk with room for a number of types may go down by the height, and do as much work. -/
structure ImportState.Affords (s : ImportState) (room height work : Nat) : Prop where
  low : s.guard.depth + height ≤ s.guard.limits.maxDepth.toNat
  room : s.guard.limits.maxDepth.toNat ≤ s.guard.depth + room
  work : s.guard.iterations + work ≤ s.guard.limits.maxIterations.toNat

/-- The walk, given its room, has a result that is good wherever it can afford the height and the
work, and the names seen afterwards are then met. It goes only to types between two bounds, and
starts inside of a type if it has to be nested. -/
def Brings {α : Type} (importer : Importer) (handle : String → TypeId) (first bound : Nat)
    (nested : Prop) (seen : List String) (height work : Nat) (walk : Nat → ImportWalk α)
    (good : α → Prop) (seen' : List String) : Prop :=
  seen ⊆ seen' ∧ ∀ s room, importer.Met handle seen s → s.Apart first bound →
    (nested → 0 < s.guard.depth) → s.Affords room height work →
    ∃ a s', (walk room).Gives s a s' ∧ good a ∧ importer.Met handle seen' s' ∧ s.Extends s' ∧
      s'.guard.iterations ≤ s.guard.iterations + work

/-- The type comes back as the tree, where a node stood. A node that may be identified is nested, as
it keeps its identifier. -/
def Returns (importer : Importer) (handle : String → TypeId) (first bound : Nat) (node : Schema)
    (seen : List String) (id : TypeId) (x : Schema) (seen' : List String) : Prop :=
  Brings importer handle first bound node.mayBeIdentified seen node.height node.preorder.length
    (fun room => importer.importType room id) (·.Resembles x) seen'

/-- The types come back as the trees one after the other, where nodes stood. -/
def ReturnsAll (importer : Importer) (handle : String → TypeId) (first bound : Nat)
    (nodes : List Schema) (seen : List String) (ids : List TypeId) (xs : List Schema)
    (seen' : List String) : Prop :=
  Brings importer handle first bound True seen (heightList nodes) (nodes.flatMap preorder).length
    (fun room => ids.mapM (importer.importType room)) (List.Forall₂ Resembles · xs) seen'

/-- A walk that keeps apart from more types goes on as before. -/
lemma Brings.mono {α : Type} {walk : Nat → ImportWalk α} {good : α → Prop} {nested : Prop}
    (h : Brings importer handle first bound nested seen height work walk good seen')
    (l : first' ≤ first) (l' : bound ≤ bound') :
    Brings importer handle first' bound' nested seen height work walk good seen' := by
  refine ⟨h.1, fun s room m apart => h.2 s room m fun id v => ?_⟩
  exact (apart id v).imp (fun lt => Nat.lt_of_lt_of_le lt l) (Nat.le_trans l')

/-! ## Types that are not entered -/

/-- The type of a leaf comes back. -/
lemma returns_leaf (l : importer.LeafNode id x) :
    Returns importer handle first bound node seen id x seen := by
  refine ⟨List.Subset.refl _, fun s room m _ _ _ => ?_⟩
  exact ⟨x, s, Importer.gives_importType_of_leaf l, .refl _, m, .refl _, Nat.le_add_right _ _⟩

/-- Counting an attempt meets no type. -/
lemma Importer.Met.count (m : importer.Met handle seen s) (n : Nat) :
    importer.Met handle seen { s with guard := { s.guard with iterations := n } } :=
  ⟨m.consistent.count n, m.names, m.structural, m.met, m.assigned, m.used⟩

/-- The type of a seen name comes back as a reference to it. -/
lemma returns_reference (hm : name ∈ seen) :
    Returns importer handle first bound node seen (handle name) (.reference name {}) seen := by
  refine ⟨List.Subset.refl _, fun s room m _ _ a => ?_⟩
  have ne : name ≠ "" := Importer.ne_empty_of_aliasName? (m.names name hm)
  have leaf := m.structural name hm
  rcases m.met name hm with c | v
  · exact ⟨_, s, Importer.gives_importType_of_named leaf c ne, .refl _, m, .refl _,
      Nat.le_add_right _ _⟩
  · have c := m.lookup_eq_none v
    have pos : 0 < node.preorder.length := List.length_pos_of_mem mem_preorder_self
    have low : s.guard.nextIteration ≤ s.guard.iterations + 1 := Nat.min_le_left _ _
    have enter : s.guard.enter (handle name) =
        (.cycle, { s.guard with iterations := s.guard.nextIteration }) := by
      refine WalkGuard.enter_eq_cycle.2 ⟨?_, v, rfl⟩
      have := a.work
      omega
    obtain ⟨e, m', g, -⟩ := (m.count s.guard.nextIteration).refer hm v
    have gives := @Importer.gives_importType_of_cycle importer _ s room _ leaf c enter
      (by rw [e]; exact ne)
    rw [e] at gives
    refine ⟨_, _, gives, .refl _, m', ?_, ?_⟩
    · exact ((Importer.imports_of_gives gives).consistent m.consistent).2
    · rw [g]
      show s.guard.nextIteration ≤ _
      omega

/-! ## Types one after the other -/

lemma returnsAll_nil : ReturnsAll importer handle first bound [] seen [] [] seen :=
  ⟨List.Subset.refl _, fun s _ m _ _ _ =>
    ⟨[], s, Walk.gives_mapM_nil.2 ⟨rfl, rfl⟩, .nil, m, .refl _, Nat.le_add_right _ _⟩⟩

lemma returnsAll_cons (h : Returns importer handle first bound node seen id x seen')
    (h' : ReturnsAll importer handle first bound nodes seen' ids xs seen'') :
    ReturnsAll importer handle first bound (node :: nodes) seen (id :: ids) (x :: xs) seen'' := by
  refine ⟨List.Subset.trans h.1 h'.1, fun s room m apart nested a => ?_⟩
  have nested : 0 < s.guard.depth := nested trivial
  have work : ((node :: nodes).flatMap preorder).length =
      node.preorder.length + (nodes.flatMap preorder).length := by
    rw [List.flatMap_cons, List.length_append]
  have low := a.low
  have spent := a.work
  rw [heightList] at low
  obtain ⟨y, s1, g1, r1, m1, e1, i1⟩ := h.2 s room m apart (fun _ => nested)
    ⟨by omega, a.room, by omega⟩
  have afford : s1.Affords room (heightList nodes) (nodes.flatMap preorder).length := by
    refine ⟨?_, ?_, ?_⟩
    · rw [e1.depth, e1.limits]
      omega
    · rw [e1.depth, e1.limits]
      exact a.room
    · rw [e1.limits]
      omega
  obtain ⟨ys, s2, g2, r2, m2, e2, i2⟩ := h'.2 s1 room m1 (fun id v => apart id (e1.visiting ▸ v))
    (fun _ => e1.depth ▸ nested) afford
  exact ⟨y :: ys, s2, Walk.gives_mapM_cons.2 ⟨y, ys, s1, g1, g2, rfl⟩, .cons r1 r2, m2,
    e1.trans e2, by omega⟩

/-! ## Types that are entered -/

lemma Schema.references_withIdentifier {identifier : Option String} :
    (node.withIdentifier identifier).references = node.references := by
  unfold withIdentifier
  rw [references_eq_collect, collect_eq, target?_withInfo, children_withInfo, ← collect_eq]
  rfl

/-- The type is entered, its parts are imported, and it is left. Whether and under which identifier
it is completed is for its kind to say. -/
structure Passed (importer : Importer) (handle : String → TypeId) (room : Nat) (s : ImportState)
    (id : TypeId) (node : Schema) (xs : List Schema) (seen' : List String)
    (inside : ImportState) (guard' : WalkGuard TypeId) : Prop where
  visiting : inside.guard.visiting = id :: s.guard.visiting
  leave : inside.guard.leave id = .ok guard'
  met : importer.Met handle seen' inside
  work : inside.guard.iterations ≤ s.guard.iterations + node.preorder.length
  referenced : ∀ name, inside.currentIdentifier? id = some name →
    name ∈ (node.withParts xs).references
  assigned : ∀ name ∈ (node.withParts xs).references, ∃ j, inside.Assigned j name
  gives : ∀ identifier s', importer.conclude (0 < s.guard.depth) id (inside.currentIdentifier? id)
      (inside.left guard' id) = (identifier, s') →
    ∃ y : Schema,
      (importer.importType room id).Gives s (y.under identifier) (s'.complete id identifier) ∧
      y.Resembles ((node.withParts xs).withIdentifier none)

/-- A type that is entered is passed when its parts were imported: it is left as it was entered, and
what is built of the parts refers to what they refer to. -/
lemma exists_passed_of_gives {guard : WalkGuard TypeId} {inside : ImportState} {ys : List Schema}
    (laid : LaidOut importer node id ids) (l : ids.length = node.parts.length)
    (c : s.named.lookup id = none) (enter : s.guard.enter id = (.entered, guard))
    (consistent : (s.begin guard id).Consistent)
    (g : (ids.mapM (importer.importType room)).Gives (s.begin guard id) ys inside)
    (r : List.Forall₂ Resembles ys xs) (m : importer.Met handle seen' inside)
    (e : (s.begin guard id).Extends inside)
    (work : inside.guard.iterations ≤ s.guard.iterations + node.preorder.length) :
    ∃ guard', Passed importer handle (room + 1) s id node xs seen' inside guard' := by
  have visiting : inside.guard.visiting = id :: s.guard.visiting :=
    e.visiting.trans (Importer.visiting_begin enter)
  have leave := WalkGuard.leave_eq_ok.2 ⟨show id ∈ inside.guard.visiting by simp [visiting], rfl⟩
  have threads := (Walk.gives_mapM.1 g).imp fun _ _ _ _ h => Importer.imports_of_gives h
  have ly : ys.length = ids.length := g.mapM_length
  have built : (importer.build id ys).Resembles ((node.withParts xs).withIdentifier none) :=
    (laid.resembles ys ly).trans (.withIdentifier (.withParts (ly.trans l) r) none)
  have references : (node.withParts xs).references = ys.flatMap references := by
    rw [← (Importer.shape_build laid.steps ly).references, built.references_eq,
      references_withIdentifier]
  refine ⟨_, visiting, leave, m, work, ?_, ?_, fun identifier s' o => ?_⟩
  · rw [references]
    intro name current
    refine (Importer.referenced_of_threads threads (fun _ _ _ _ h => h.referenced) id name
      current).resolve_left fun e => ?_
    unfold ImportState.begin at e
    rw [ImportState.currentIdentifier?_setProgress, if_pos rfl] at e
    cases e
  · rw [references]
    exact Importer.references_assigned_of_threads threads
      (fun _ _ _ _ h c => ⟨h.consistent c, h.references_assigned c⟩) consistent
  · obtain ⟨-, -, -, rfl⟩ := WalkGuard.enter_eq_entered.1 enter
    have nested : decide (1 < s.guard.depth + 1) = decide (0 < s.guard.depth) := by simp
    exact ⟨importer.build id ys, Importer.gives_importType_of_entered laid.leaf c enter
      laid.steps g leave (by rw [← o, ← nested]), built⟩

/-- The type of a node whose parts come back is entered and left, if it was not met before. -/
theorem exists_passed (added : List String) (laid : LaidOut importer node id ids)
    (l : ids.length = node.parts.length)
    (h : ReturnsAll importer handle first' bound' (node.parts.map (·.1)) (added ++ seen) ids xs
      seen')
    (m : importer.Met handle seen s) (apart : s.Apart first bound) (le : first ≤ id.index)
    (lt : id.index < bound) (first_le : first ≤ first') (le_bound : bound' ≤ bound)
    (other : id.index < first' ∨ bound' ≤ id.index) (fresh : ∀ name ∈ seen, id ≠ handle name)
    (new : ∀ name ∈ added, id = handle name ∧ importer.aliasName? id = some name)
    (a : s.Affords room node.height node.preorder.length) :
    ∃ inside guard', Passed importer handle room s id node xs seen' inside guard' := by
  have c : s.named.lookup id = none := by
    cases e : s.named.lookup id with
    | none => rfl
    | some name =>
      obtain ⟨hm, eq⟩ := m.assigned id name (.inl (mem_of_lookup e))
      exact absurd eq (fresh name hm)
  have left : id ∉ s.guard.visiting := by
    intro v
    have := apart id v
    omega
  have low := a.low
  have ample := a.room
  have spent := a.work
  have high := heightList_parts node
  have fewer := length_preorder_parts node
  have count : s.guard.nextIteration ≤ s.guard.iterations + 1 := Nat.min_le_left _ _
  let guard : WalkGuard TypeId := { s.guard with
    visiting := id :: s.guard.visiting
    depth := s.guard.depth + 1
    iterations := s.guard.nextIteration }
  have enter : s.guard.enter id = (.entered, guard) :=
    WalkGuard.enter_eq_entered.2 ⟨by omega, left, by omega, rfl⟩
  obtain ⟨room, rfl⟩ : ∃ n, room = n + 1 := ⟨room - 1, by omega⟩
  have met := m.begin c enter new laid.leaf
  have apart' : (s.begin guard id).Apart first' bound' := by
    intro j v
    rw [Importer.visiting_begin enter] at v
    cases v with
    | head => exact other
    | tail _ v =>
      have := apart j v
      omega
  -- One level and one attempt are spent on the type itself; its parts have the rest.
  have afford : (s.begin guard id).Affords room (heightList (node.parts.map (·.1)))
      ((node.parts.map (·.1)).flatMap preorder).length := by
    refine ⟨?_, ?_, ?_⟩
    · show s.guard.depth + 1 + _ ≤ s.guard.limits.maxDepth.toNat
      omega
    · show s.guard.limits.maxDepth.toNat ≤ s.guard.depth + 1 + room
      omega
    · show s.guard.nextIteration + _ ≤ s.guard.limits.maxIterations.toNat
      omega
  obtain ⟨ys, inside, g, r, m', e, i⟩ := h.2 _ room met apart' (fun _ => Nat.succ_pos _) afford
  have i : inside.guard.iterations ≤ s.guard.nextIteration + _ := i
  exact ⟨inside, exists_passed_of_gives laid l c enter met.consistent g r m' e (by omega)⟩

/-- A node under an identifier, if there is one, is the node with this identifier or none. -/
lemma Schema.Resembles.under {y : Schema} (h : y.Resembles (x.withIdentifier none))
    (identifier : Option String) :
    (y.under identifier).Resembles (x.withIdentifier identifier) := by
  cases identifier with
  | none => exact h
  | some identifier =>
    have h := h.withIdentifier (some identifier)
    have e : (x.withIdentifier none).withIdentifier (some identifier) =
        x.withIdentifier (some identifier) := by cases x <;> rfl
    rwa [e] at h

/-- A type that was entered and left is completed under the identifier that it has then. -/
lemma Passed.complete {inside known : ImportState} {guard' : WalkGuard TypeId}
    (p : Passed importer handle room s id node xs seen' inside guard')
    (c : s.Consistent) (m : importer.Met handle seen' known) (g : known.guard = inside.guard)
    (o : importer.conclude (0 < s.guard.depth) id (inside.currentIdentifier? id)
      (inside.left guard' id) = (known.currentIdentifier? id, known.left guard' id))
    (current : ∀ name ∈ seen', handle name = id → known.currentIdentifier? id = some name) :
    ∃ y s', (importer.importType room id).Gives s y s' ∧
      y.Resembles ((node.withParts xs).withIdentifier (known.currentIdentifier? id)) ∧
      importer.Met handle seen' s' ∧ s.Extends s' ∧
      s'.guard.iterations ≤ s.guard.iterations + node.preorder.length := by
  obtain ⟨y, gives, r⟩ := p.gives _ _ o
  refine ⟨_, _, gives, r.under _, m.leave (by rw [g]; exact p.visiting) (by rw [g]; exact p.leave)
    current, ((Importer.imports_of_gives gives).consistent c).2, ?_⟩
  obtain ⟨-, eq⟩ := WalkGuard.leave_eq_ok.1 p.leave
  rw [ImportState.complete_guard]
  show guard'.iterations ≤ _
  rw [eq]
  exact p.work

lemma Schema.withParts_withIdentifier {identifier : Option String}
    (e : node.identifier = identifier) :
    (node.withParts nodes).withIdentifier identifier = node.withParts nodes := by
  have same : ∀ x : Schema, x.withIdentifier x.identifier = x := by
    intro x
    cases x <;> rfl
  have own : (node.withParts nodes).identifier = identifier := identifier_withChildren.trans e
  rw [← own]
  exact same _

/-- The type of a node without an identifier comes back, if it comes after its parts and these come
back. -/
theorem returns_plain (laid : LaidOut importer node id ids) (l : ids.length = node.parts.length)
    (h : ReturnsAll importer handle first id.index (node.parts.map (·.1)) seen ids xs seen')
    (unnamed : importer.aliasName? id = none) (e : node.identifier = none) (le : first ≤ id.index)
    (lt : id.index < bound) :
    Returns importer handle first bound node seen id (node.withParts xs) seen' := by
  refine ⟨h.1, fun s room m apart nested a => ?_⟩
  have fresh : ∀ {names : List String} {t : ImportState}, importer.Met handle names t →
      ∀ name ∈ names, id ≠ handle name := by
    intro names t m name hm eq
    have named := m.names name hm
    rw [← eq, unnamed] at named
    cases named
  obtain ⟨inside, guard', p⟩ := exists_passed [] laid l h m apart le lt
    (Nat.le_refl _) (Nat.le_of_lt lt) (.inr (Nat.le_refl _)) (fresh m)
    (fun _ hm => absurd hm List.not_mem_nil) a
  have current : inside.currentIdentifier? id = none := by
    cases c : inside.currentIdentifier? id with
    | none => rfl
    | some name =>
      obtain ⟨hm, eq⟩ := p.met.assigned id name (.inr c)
      exact absurd eq (fresh p.met name hm)
  have o : importer.conclude (0 < s.guard.depth) id (inside.currentIdentifier? id)
      (inside.left guard' id) = (inside.currentIdentifier? id, inside.left guard' id) := by
    simp [Importer.conclude, current, unnamed]
  have done := p.complete m.consistent p.met rfl o
    fun name hm eq => absurd eq.symm (fresh p.met name hm)
  rwa [current, Schema.withParts_withIdentifier e] at done

/-- The type of an identified node that was not met before comes back, if its parts do when it was
met. -/
theorem returns_named (laid : LaidOut importer node id ids) (l : ids.length = node.parts.length)
    (h : ReturnsAll importer handle (id.index + 1) bound (node.parts.map (·.1)) (name :: seen) ids
      xs seen')
    (handled : handle name = id) (named : importer.aliasName? id = some name)
    (e : node.identifier = some name) (n : name ∉ seen) (k : node.mayBeIdentified)
    (le : first ≤ id.index) (lt : id.index < bound) :
    Returns importer handle first bound node seen id (node.withParts xs) seen' := by
  obtain ⟨hm, sub⟩ := List.cons_subset.1 h.1
  refine ⟨sub, fun s room m apart nested a => ?_⟩
  have own : ∀ {names : List String} {t : ImportState}, importer.Met handle names t →
      ∀ other ∈ names, handle other = id → other = name := by
    intro names t m other ho eq
    have named' := m.names other ho
    rw [eq, named] at named'
    exact (Option.some.inj named').symm
  obtain ⟨inside, guard', p⟩ := exists_passed [name] laid l h m apart le lt
    (Nat.le_succ_of_le le) (Nat.le_refl _) (.inl (Nat.lt_succ_self _))
    (fun other ho eq => n (own m other ho eq.symm ▸ ho))
    (fun other ho => by
      obtain rfl := List.mem_singleton.1 ho
      exact ⟨handled.symm, named⟩) a
  have v : handle name ∈ inside.guard.visiting := by
    rw [p.visiting, handled]
    exact List.mem_cons_self
  obtain ⟨referred, m', g, current⟩ := p.met.refer hm v
  rw [handled] at referred m' g current
  have o : importer.conclude (0 < s.guard.depth) id (inside.currentIdentifier? id)
      (inside.left guard' id) = ((importer.refer id inside).2.currentIdentifier? id,
        (importer.refer id inside).2.left guard' id) := by
    rw [decide_eq_true (nested k), Importer.conclude_of_aliasName? named, current, referred]
  have done := p.complete m.consistent m' g o fun other ho eq => by rw [current, own m' other ho eq]
  rwa [current, Schema.withParts_withIdentifier e] at done

end TypeSchema
