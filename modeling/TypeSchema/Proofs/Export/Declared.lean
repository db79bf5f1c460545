import TypeSchema.Proofs.Export.Queue
import TypeSchema.Proofs.Schema.Height

/-!
# The declarations of a tree

The declarations of a tree are the root's and one for every node that the queue has taken. All of
these nodes are among those an export comes to, and every node that one of them exposes has a
declaration.
-/

namespace TypeSchema

namespace Schema

/-- Induction on what is exported of a tree: what holds of a node's parts holds of the node. -/
theorem partsInduction {motive : Schema → Prop}
    (step : ∀ node : Schema, (∀ part ∈ node.parts, motive part.1) → motive node)
    (node : Schema) : motive node := by
  have all : ∀ n (node : Schema), sizeOf node < n → motive node := by
    intro n
    induction n with
    | zero => exact fun _ h => absurd h (Nat.not_lt_zero _)
    | succ n ih =>
      intro node h
      apply step node
      intro part m
      have := sizeOf_parts m
      exact ih part.1 (by omega)
  exact all _ node (Nat.lt_succ_self _)

/-- The nodes of a tree that an export comes to: all but the unions that mark optional members, and
the `undefined` in them. -/
def exported (node : Schema) : List Schema :=
  node :: node.parts.attach.flatMap fun part => exported part.1.1
termination_by sizeOf node
decreasing_by exact sizeOf_parts part.2

lemma exported_eq {node : Schema} :
    node.exported = node :: node.parts.flatMap fun part => part.1.exported := by
  have e : node.parts = node.parts.attach.map Subtype.val := (List.attach_map_subtype_val _).symm
  rw [exported]
  conv_rhs => rw [e, List.flatMap_map]

lemma mem_exported_self {node : Schema} : node ∈ node.exported := by
  rw [exported_eq]
  exact List.mem_cons_self

/-- What is exported of a part is exported of the node. -/
lemma mem_exported_of_part {node inner : Schema} {part : Schema × Bool} (h : part ∈ node.parts)
    (m : inner ∈ part.1.exported) : inner ∈ node.exported := by
  rw [exported_eq]
  exact List.mem_cons_of_mem _ (List.mem_flatMap.2 ⟨part, h, m⟩)

/-- What is exported of a node is that node, or is exported of one of its parts. -/
lemma mem_exported {node inner : Schema} (m : inner ∈ node.exported) :
    inner = node ∨ ∃ part ∈ node.parts, inner ∈ part.1.exported := by
  rw [exported_eq] at m
  cases m with
  | head => exact .inl rfl
  | tail _ m => exact .inr (List.mem_flatMap.1 m)

lemma exported_trans {node inner innermost : Schema} (h : inner ∈ node.exported)
    (h' : innermost ∈ inner.exported) : innermost ∈ node.exported := by
  induction node using partsInduction with
  | step node ih =>
    rcases mem_exported h with rfl | ⟨part, mp, m⟩
    · exact h'
    · exact mem_exported_of_part mp (ih part mp m)

/-- The nodes of the type of an optional member are nodes of the member. -/
lemma mem_preorder_splitOptional {node inner : Schema}
    (m : inner ∈ node.splitOptional.1.preorder) : inner ∈ node.preorder := by
  unfold splitOptional at m
  split at m
  case h_1 e =>
    unfold optionalType? at e
    split at e
    case h_1 =>
      cases e
      exact mem_preorder_of_child List.mem_cons_self m
    case h_2 => cases e
  case h_2 => exact m

/-- A part is less high than the node. -/
lemma height_of_part {node : Schema} {part : Schema × Bool} (m : part ∈ node.parts) :
    part.1.height < node.height := by
  obtain ⟨child, mc, e⟩ := mem_parts m
  have l := height_of_child mc
  rcases e with rfl | rfl
  · exact l
  · exact Nat.lt_of_le_of_lt (height_of_mem (mem_preorder_splitOptional mem_preorder_self)) l

/-- An export comes only to nodes of the tree. -/
lemma mem_preorder_of_exported {node inner : Schema} (h : inner ∈ node.exported) :
    inner ∈ node.preorder := by
  induction node using partsInduction with
  | step node ih =>
    rcases mem_exported h with rfl | ⟨part, mp, m⟩
    · exact mem_preorder_self
    · have m' := ih part mp m
      obtain ⟨child, mc, e⟩ := mem_parts mp
      apply mem_preorder_of_child mc
      rcases e with rfl | rfl
      · exact m'
      · exact mem_preorder_splitOptional m'

end Schema

namespace Exporter

variable {exporter : Exporter} {place : Place} {node : Schema}

/-- What a part exposes is the part, or is exposed by its own parts. -/
lemma mem_exposed {hoisted : HoistedNode} (h : hoisted ∈ exporter.exposed place node) :
    ∃ part ∈ node.placedParts place,
      (exporter.hoisted? part.2 = some hoisted.identifier ∧ hoisted.node = part.2) ∨
        (exporter.hoisted? part.2 = none ∧ hoisted ∈ exporter.exposed part.1 part.2) := by
  rw [exposed_eq] at h
  obtain ⟨part, m, h⟩ := List.mem_flatMap.1 h
  refine ⟨part, m, ?_⟩
  unfold exposedPart at h
  split at h
  case h_1 e =>
    cases List.mem_singleton.1 h
    exact .inl ⟨e, rfl⟩
  case h_2 e => exact .inr ⟨e, h⟩

lemma identifier_of_hoisted? {identifier : String}
    (h : exporter.hoisted? node = some identifier) : node.identifier = some identifier := by
  unfold hoisted? at h
  split at h
  · exact h
  · cases h

/-- An exposed node is one that the export comes to, and carries its identifier. -/
lemma exported_of_exposed {hoisted : HoistedNode} (h : hoisted ∈ exporter.exposed place node) :
    hoisted.node ∈ node.exported ∧ hoisted.node.identifier = some hoisted.identifier := by
  induction node using Schema.partsInduction generalizing place with
  | step node ih =>
    obtain ⟨part, m, h⟩ := mem_exposed h
    obtain ⟨isSplit, mp⟩ := Schema.mem_placedParts m
    rcases h with ⟨e, en⟩ | ⟨-, h⟩
    · rw [en]
      exact ⟨Schema.mem_exported_of_part mp Schema.mem_exported_self, identifier_of_hoisted? e⟩
    · obtain ⟨h1, h2⟩ := ih _ mp h
      exact ⟨Schema.mem_exported_of_part mp h1, h2⟩

end Exporter

namespace Schema

variable {options : ExportOptions} {name : String} {node : Schema}

/-- The nodes that are declared beside the root, and what is known of them. -/
structure Declares (exporter : Exporter) (node : Schema) (hoisted : List HoistedNode) : Prop where
  nodup : (hoisted.map (·.identifier)).Nodup
  notRoot : ∀ inner ∈ hoisted, node.identifier ≠ some inner.identifier
  exported : ∀ inner ∈ hoisted,
    inner.node ∈ node.exported ∧ inner.node.identifier = some inner.identifier
  /-- What the root or a declared node exposes is declared. -/
  closed : ∀ inner ∈ exporter.exposed .root node ++ hoisted.flatMap exporter.exposedBy,
    node.identifier = some inner.identifier ∨ inner.identifier ∈ hoisted.map (·.identifier)

section

variable {exporter : Exporter} {declarations : List Declaration} {s s' : ExportState}
  {P : TypeExpr → Prop} {Q : Schema → Prop}

/-- The nodes that are queued while a node is exported are among those the export comes to. -/
lemma mem_pending_of_gives {place : Place} {type : TypeExpr} {hoisted : HoistedNode}
    (g : (exporter.exportRoot place node).Gives s type s') (m : hoisted ∈ s'.pending) :
    hoisted ∈ s.pending ∨ hoisted.node ∈ node.exported := by
  obtain ⟨-, n, rfl⟩ := Exporter.gives_exportNode g
  obtain ⟨first, pending, -, sub, -⟩ :=
    ExportState.offerAll_spec s (exporter.exposed place node)
  have m : hoisted ∈ s.pending ++ first := pending ▸ m
  rcases List.mem_append.1 m with m | m
  · exact .inl m
  · exact .inr (Exporter.exported_of_exposed (sub hoisted m)).1

/-- What holds of the expressions of nodes of one kind holds of the declared ones, if all nodes in
the queue are of that kind and an export comes only to more of them. -/
lemma forall_of_queued {count : Nat}
    (root : ∀ place node s type s', Q node → (exporter.exportRoot place node).Gives s type s' →
      P type)
    (closed : ∀ node, Q node → ∀ inner ∈ node.exported, Q inner)
    (queued : ∀ hoisted ∈ s.pending, Q hoisted.node)
    (g : (exportPending exporter count).Gives s declarations s') :
    ∀ declaration ∈ declarations, P declaration.type := by
  induction count generalizing s declarations with
  | zero =>
    obtain ⟨rfl, rfl⟩ := Walk.gives_pure.1 g
    exact fun _ m => absurd m List.not_mem_nil
  | succ count ih =>
    obtain ⟨t, s1, state, g⟩ := Walk.gives_bind.1 g
    obtain ⟨rfl, rfl⟩ := Walk.gives_get.1 state
    split at g
    case h_1 =>
      obtain ⟨rfl, rfl⟩ := Walk.gives_pure.1 g
      exact fun _ m => absurd m List.not_mem_nil
    case h_2 hoisted others e =>
      obtain ⟨_, s1, taken, g⟩ := Walk.gives_bind.1 g
      obtain rfl := Walk.gives_modify.1 taken
      obtain ⟨type, s2, first, g⟩ := Walk.gives_bind.1 g
      obtain ⟨rest, s3, last, g⟩ := Walk.gives_bind.1 g
      obtain ⟨rfl, rfl⟩ := Walk.gives_pure.1 g
      rw [e] at queued
      have q := queued hoisted List.mem_cons_self
      refine List.forall_mem_cons.2 ⟨root _ _ _ _ _ q first, ih (fun inner m => ?_) last⟩
      rcases mem_pending_of_gives first m with m | m
      · exact queued inner (List.mem_cons_of_mem _ m)
      · exact closed hoisted.node q inner.node m

/-- What holds of the expressions of nodes of one kind holds of all declarations of a tree of that
kind. -/
lemma forall_of_declared
    (root : ∀ place node s type s', Q node → (exporter.exportRoot place node).Gives s type s' →
      P type)
    (closed : ∀ node, Q node → ∀ inner ∈ node.exported, Q inner) (q : Q node)
    (queued : ∀ hoisted ∈ s.pending, Q hoisted.node)
    (g : (exportDeclarations exporter name node).Gives s declarations s') :
    ∀ declaration ∈ declarations, P declaration.type := by
  have exported : ∀ s : ExportState, (∀ hoisted ∈ s.pending, Q hoisted.node) → (do
      let type ← exporter.exportRoot .root node
      let declarations ← exportPending exporter node.identifiers.length
      return ⟨name, type⟩ :: declarations : ExportWalk (List Declaration)).Gives
        s declarations s' → ∀ declaration ∈ declarations, P declaration.type := by
    intro s queued g
    obtain ⟨type, s2, first, g⟩ := Walk.gives_bind.1 g
    obtain ⟨others, s3, rest, g⟩ := Walk.gives_bind.1 g
    obtain ⟨rfl, rfl⟩ := Walk.gives_pure.1 g
    refine List.forall_mem_cons.2 ⟨root _ _ _ _ _ q first, ?_⟩
    refine forall_of_queued root closed (fun inner m => ?_) rest
    exact (mem_pending_of_gives first m).elim (queued inner) (closed node q inner.node)
  unfold exportDeclarations at g
  split at g
  case h_1 identifier _ =>
    obtain ⟨_, s1, seen, g⟩ := Walk.gives_bind.1 g
    obtain rfl := Walk.gives_modify.1 seen
    exact exported { s with seen := identifier :: s.seen } queued g
  case h_2 => exact exported s queued g

end

/-- The root is exported first, in a state in which its identifier is seen, and then the queue. -/
lemma gives_exportDeclarations {exporter : Exporter} {s s' : ExportState}
    {declarations : List Declaration}
    (h : (exportDeclarations exporter name node).Gives s declarations s') :
    ∃ n rest,
      let first : ExportState := { s with seen := node.identifier.toList ++ s.seen }
      let next := (first.offerAll (exporter.exposed .root node)).counted n
      (exporter.exportRoot .root node).Gives first (exporter.body node) next ∧
        (exportPending exporter node.identifiers.length).Gives next rest s' ∧
        declarations = ⟨name, exporter.body node⟩ :: rest := by
  have next : ∀ s : ExportState,
      (do
        let type ← exporter.exportRoot .root node
        let declarations ← exportPending exporter node.identifiers.length
        return ⟨name, type⟩ :: declarations : ExportWalk (List Declaration)).Gives
          s declarations s' →
      ∃ n rest,
        let next := (s.offerAll (exporter.exposed .root node)).counted n
        (exporter.exportRoot .root node).Gives s (exporter.body node) next ∧
          (exportPending exporter node.identifiers.length).Gives next rest s' ∧
          declarations = ⟨name, exporter.body node⟩ :: rest := by
    intro s h
    obtain ⟨type, s1, h1, h2⟩ := Walk.gives_bind.1 h
    obtain ⟨rest, s2, h3, h4⟩ := Walk.gives_bind.1 h2
    obtain ⟨rfl, rfl⟩ := Walk.gives_pure.1 h4
    obtain ⟨rfl, n, rfl⟩ := Exporter.gives_exportNode h1
    exact ⟨n, rest, h1, h3, rfl⟩
  unfold exportDeclarations at h
  cases i : node.identifier with
  | none =>
    rw [i] at h
    exact next s h
  | some identifier =>
    rw [i] at h
    obtain ⟨_, s1, h1, h2⟩ := Walk.gives_bind.1 h
    obtain rfl := Walk.gives_modify.1 h1
    exact next _ h2

/-- The queue ends empty, as it takes every identifier of the tree once at most, and the nodes it
took are declared. -/
lemma declares_of_drains {exporter : Exporter} {s s' : ExportState} {n : Nat}
    {drained added : List HoistedNode} (e : s.pending = []) (e' : s.seen = node.identifier.toList)
    (d : exporter.Drains ((s.offerAll (exporter.exposed .root node)).counted n) s' drained added)
    (stop : s'.pending = [] ∨ drained.length = node.identifiers.length) :
    s'.pending = [] ∧ Declares exporter node drained := by
  obtain ⟨first, pending, seen, sub, all, nodup⟩ :=
    ExportState.offerAll_spec s (exporter.exposed .root node)
  rw [e, List.nil_append] at pending
  rw [e'] at seen nodup
  have dp : drained ++ s'.pending = first ++ added := d.pending.trans (by
    rw [← pending]
    rfl)
  have ds : s'.seen = ((first ++ added).map (·.identifier)).reverse ++ node.identifier.toList := by
    rw [d.seen, List.map_append, List.reverse_append, List.append_assoc, ← seen]
    rfl
  have unique : s'.seen.Nodup := d.nodup (nodup (by cases node.identifier <;> simp))
  have known : ∀ inner ∈ first ++ added,
      inner.node ∈ node.exported ∧ inner.node.identifier = some inner.identifier := by
    have step : ∀ outer : HoistedNode, (outer.node ∈ node.exported ∧
        outer.node.identifier = some outer.identifier) → ∀ inner ∈ exporter.exposedBy outer,
        inner.node ∈ node.exported ∧ inner.node.identifier = some inner.identifier := by
      intro outer h inner m
      obtain ⟨h1, h2⟩ := Exporter.exported_of_exposed m
      exact ⟨exported_trans h.1 h1, h2⟩
    have start : ∀ inner ∈ first, inner.node ∈ node.exported ∧
        inner.node.identifier = some inner.identifier :=
      fun inner m => Exporter.exported_of_exposed (sub inner m)
    rw [← pending] at start ⊢
    exact d.all _ start step
  rw [← dp] at ds known
  rw [ds, List.nodup_append] at unique
  obtain ⟨unique, -, apart⟩ := unique
  -- The names of the queue are different identifiers of the tree, so as many nodes as it has
  -- identifiers are all of them.
  have done : s'.pending = [] := by
    rcases stop with stop | stop
    · exact stop
    have sub : (drained ++ s'.pending).map (·.identifier) ⊆ node.identifiers := by
      intro i m
      obtain ⟨inner, mi, rfl⟩ := List.mem_map.1 m
      exact mem_identifiers (mem_preorder_of_exported (known inner mi).1) (known inner mi).2
    have l := (List.subperm_of_subset (List.nodup_reverse.1 unique) sub).length_le
    rw [List.length_map, List.length_append] at l
    exact List.length_eq_zero_iff.1 (by omega)
  rw [done, List.append_nil] at ds known unique apart
  refine ⟨done, List.nodup_reverse.1 unique, ?_, known, ?_⟩
  · intro inner m i
    refine apart inner.identifier ?_ inner.identifier ?_ rfl
    · exact List.mem_reverse.2 (List.mem_map_of_mem m)
    · rw [i]
      exact List.mem_cons_self
  · intro inner m
    have mem : inner.identifier ∈ s'.seen := by
      rcases List.mem_append.1 m with m | m
      · rw [d.seen]
        exact List.mem_append_right _ (all inner m)
      · obtain ⟨outer, mo, m⟩ := List.mem_flatMap.1 m
        exact d.closed outer mo inner m
    rw [ds] at mem
    rcases List.mem_append.1 mem with mem | mem
    · exact .inr (List.mem_reverse.1 mem)
    · exact .inl (Option.mem_toList.1 mem)

/-- A tree that can be exported is, once its identifiers are checked. -/
lemma gives_of_toDeclarations {declarations : List Declaration}
    (h : node.toDeclarations options name = .ok declarations) :
    node.checkIdentifiers = .ok () ∧ node.checkRootName name = .ok () ∧
      ∃ s', (exportDeclarations ⟨options, true⟩ (node.rootName name) node).Gives
        (Exporter.start ⟨options, true⟩) declarations s' := by
  unfold toDeclarations at h
  cases e : node.checkIdentifiers with
  | error error =>
    rw [e] at h
    cases h
  | ok _ =>
    cases e' : node.checkRootName name with
    | error error =>
      rw [e, e'] at h
      cases h
    | ok _ =>
      refine ⟨rfl, rfl, ?_⟩
      rw [e, e'] at h
      have h : Exporter.finish ((exportDeclarations ⟨options, true⟩ (node.rootName name) node).run
        (Exporter.start ⟨options, true⟩)) = .ok declarations := h
      unfold Exporter.finish at h
      split at h
      case h_1 => exact ⟨_, Prod.ext h rfl⟩
      case h_2 => cases h

/-- The declarations of a tree that can be exported. -/
theorem declares_of_toDeclarations {declarations : List Declaration}
    (h : node.toDeclarations options name = .ok declarations) :
    node.checkIdentifiers = .ok () ∧ node.checkRootName name = .ok () ∧
      ∃ hoisted, declarations =
          ⟨node.rootName name, Exporter.body ⟨options, true⟩ node⟩ ::
            hoisted.map (Exporter.declaration ⟨options, true⟩) ∧
        Declares ⟨options, true⟩ node hoisted := by
  obtain ⟨identifiers, rootName, s', g⟩ := gives_of_toDeclarations h
  obtain ⟨n, rest, -, queue, rfl⟩ := gives_exportDeclarations g
  obtain ⟨drained, added, d, rfl, stop⟩ := gives_exportPending queue
  exact ⟨identifiers, rootName, drained, rfl,
    (declares_of_drains rfl (List.append_nil _) d stop).2⟩

end Schema

end TypeSchema
