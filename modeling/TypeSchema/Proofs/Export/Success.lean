import TypeSchema.Proofs.Export.Declared
import TypeSchema.Proofs.Export.Identifiers
import TypeSchema.Proofs.Schema.Height
import TypeSchema.Proofs.Schema.Sharing

/-!
# Exports that succeed

A tree can be exported unless a number in it is not finite, its nodes are too high, or its
identifiers are ambiguous: the guard of an export never meets a place again and counts further than
any tree is large.
-/

namespace TypeSchema

/-- The guard is that of a state, but for its count. -/
def ExportState.Guarded (guard : WalkGuard Place) (s : ExportState) : Prop :=
  ∃ n, s.guard = { guard with iterations := n }

/-- A node of the given height may be entered at a place. -/
structure WalkGuard.ReadyAt (guard : WalkGuard Place) (place : Place) (height : Nat) : Prop where
  /-- The guard is inside of places above alone. -/
  above : ∀ outer ∈ guard.visiting, outer.depth < place.depth
  shallow : guard.depth + height ≤ guard.limits.maxDepth.toNat
  /-- The guard allows as many attempts as can be counted. -/
  tireless : guard.limits.maxIterations = 0xffffffff

/-- The places of the members of a node are below its own. -/
lemma Place.depth_of_members {place : Place} {position : Nat} {members : List (Schema × Bool)}
    {placed : Place × Schema} (m : placed ∈ place.members position members) :
    place.depth < placed.1.depth := by
  induction members generalizing position with
  | nil => cases m
  | cons member members ih =>
    obtain ⟨node, isSplit⟩ := member
    cases m with
    | head =>
      show place.depth < (place.member position isSplit).depth
      cases isSplit with
      | true => exact Nat.lt_succ_of_lt (Nat.lt_succ_self _)
      | false => exact Nat.lt_succ_self _
    | tail _ m => exact ih m

/-- The guard inside of a place. -/
def WalkGuard.inside (guard : WalkGuard Place) (place : Place) : WalkGuard Place :=
  { guard with visiting := place :: guard.visiting, depth := guard.depth + 1 }

/-- The count of a guard has no part in what may be entered. -/
lemma WalkGuard.ReadyAt.counted {guard : WalkGuard Place} {place : Place} {height : Nat}
    (r : guard.ReadyAt place height) (n : Nat) :
    WalkGuard.ReadyAt { guard with iterations := n } place height :=
  ⟨r.above, r.shallow, r.tireless⟩

/-- Inside of a place a part of the node may be entered, which lies below all places above. -/
lemma WalkGuard.ReadyAt.part {guard : WalkGuard Place} {place : Place} {height low position : Nat}
    {members : List (Schema × Bool)} {placed : Place × Schema} (r : guard.ReadyAt place height)
    (m : placed ∈ place.members position members) (l : low < height) :
    (guard.inside place).ReadyAt placed.1 low := by
  have deeper : place.depth < placed.1.depth := Place.depth_of_members m
  have shallow := r.shallow
  refine ⟨fun outer mo => ?_, ?_, r.tireless⟩
  · cases mo with
    | head => exact deeper
    | tail _ mo => exact Nat.lt_trans (r.above outer mo) deeper
  · show guard.depth + 1 + low ≤ guard.limits.maxDepth.toNat
    omega

/-- The place of a node that may be entered is entered. -/
lemma WalkGuard.ReadyAt.enter {guard : WalkGuard Place} {place : Place}
    {height : Nat}
    (r : guard.ReadyAt place height) (h : 0 < height) :
    guard.enter place = (.entered, { guard with
      visiting := place :: guard.visiting
      depth := guard.depth + 1
      iterations := guard.nextIteration }) := by
  have l := r.shallow
  refine WalkGuard.enter_eq_entered.2 ⟨?_, ?_, by omega, rfl⟩
  · rw [r.tireless]
    exact Nat.min_le_right _ _
  · exact fun m => Nat.lt_irrefl _ (r.above place m)

namespace Exporter

variable {exporter : Exporter} {place : Place} {node : Schema} {s : ExportState}

/-- Exporting a node leaves the guard as it was, but for its count. -/
lemma guarded_of_exportNode {room : Nat} {type : TypeExpr} {s' : ExportState}
    (h : (exporter.exportNode room place node).Gives s type s') : s'.Guarded s.guard := by
  obtain ⟨-, n, rfl⟩ := gives_exportNode h
  exact ⟨n, by simp [ExportState.counted]⟩

/-- A node of finite numbers is exported where there is room for its height. -/
theorem exists_gives_exportNode {room : Nat} (f : node.Finite)
    (r : s.guard.ReadyAt place node.height) (h : node.height ≤ room) :
    ∃ type s', (exporter.exportNode room place node).Gives s type s' := by
  induction room generalizing place node s with
  | zero => exact absurd h (Nat.not_le_of_lt Schema.height_pos)
  | succ room ih =>
    let guard : WalkGuard Place := { s.guard with
      visiting := place :: s.guard.visiting
      depth := s.guard.depth + 1
      iterations := s.guard.nextIteration }
    have literal : node.checkLiteral.Gives { s with guard } () { s with guard } := by
      unfold Schema.checkLiteral
      split
      case h_1 number info =>
        rw [if_pos (f _ Schema.mem_preorder_self number info rfl)]
        rfl
      case h_2 => rfl
    have part : ∀ placed ∈ node.placedParts place, ∀ t : ExportState, t.Guarded guard →
        ∃ type t', (exporter.exportPlaced (exporter.exportNode room) placed).Gives t type t' ∧
          t'.Guarded guard := by
      rintro ⟨inner, child⟩ m t ⟨n, g⟩
      obtain ⟨isSplit, mp⟩ := Schema.mem_placedParts m
      unfold exportPlaced
      rw [exportMember_eq]
      cases exporter.hoisted? child with
      | some identifier =>
        refine ⟨_, t.offer ⟨identifier, inner, child⟩, rfl, n, ?_⟩
        rw [ExportState.guard_offer, g]
      | none =>
        have low : child.height < node.height := Schema.height_of_part mp
        have ready : t.guard.ReadyAt inner child.height := by
          rw [g]
          exact (r.part m low).counted n
        have low : child.height ≤ room := by omega
        have finite := f.of_mem (Schema.mem_preorder_of_exported
          (Schema.mem_exported_of_part mp Schema.mem_exported_self))
        obtain ⟨type, t', h⟩ := ih finite ready low
        obtain ⟨n', g'⟩ := guarded_of_exportNode h
        exact ⟨type, t', h, n', by rw [g', g]⟩
    obtain ⟨types, inside, h2, n, g⟩ := Walk.exists_gives_mapM part
      (show ExportState.Guarded guard { s with guard } from ⟨_, rfl⟩)
    -- The parts leave the guard as they find it, but for the count of attempts.
    have leave : inside.guard.leave place = .ok { s.guard with iterations := n } := by
      rw [g]
      refine WalkGuard.leave_eq_ok.2 ⟨List.mem_cons_self, ?_⟩
      simp [guard]
    refine ⟨exporter.assemble node types, _, gives_within.2
      ⟨guard, inside, _, r.enter Schema.height_pos, ?_, leave, rfl⟩⟩
    rw [exportStructure_eq]
    exact Walk.gives_bind.2 ⟨(), _, literal, Walk.gives_bind.2 ⟨types, inside, h2, rfl⟩⟩

end Exporter

namespace Schema

variable {exporter : Exporter} {root : Schema} {s : ExportState}

/-- A node of a tree may be entered first of all. -/
lemma readyAt_start {guard : WalkGuard Place} {place : Place} {node : Schema} {n : Nat}
    (h : root.height ≤ exporter.options.maxDepth.toNat) (m : node ∈ root.preorder)
    (g : guard = { exporter.start.guard with iterations := n }) :
    guard.ReadyAt place node.height := by
  subst g
  refine ⟨fun _ m => absurd m List.not_mem_nil, ?_, rfl⟩
  show 0 + node.height ≤ exporter.options.maxDepth.toNat
  have := height_of_mem m
  omega

/-- A queue of nodes of a tree is exported, and so are the nodes that they queue. -/
lemma exists_gives_exportPending {count : Nat} (f : root.Finite)
    (h : root.height ≤ exporter.options.maxDepth.toNat) (g : s.Guarded exporter.start.guard)
    (known : ∀ hoisted ∈ s.pending, hoisted.node ∈ root.preorder) :
    ∃ declarations s', (exportPending exporter count).Gives s declarations s' ∧
      s'.Guarded exporter.start.guard := by
  induction count generalizing s with
  | zero => exact ⟨[], s, rfl, g⟩
  | succ count ih =>
    cases e : s.pending with
    | nil =>
      refine ⟨[], s, Walk.gives_bind.2 ⟨s, s, rfl, ?_⟩, g⟩
      rw [e]
      rfl
    | cons hoisted rest =>
      obtain ⟨n, g⟩ := g
      have m : hoisted.node ∈ root.preorder := known hoisted (by simp [e])
      let popped : ExportState := { s with pending := rest }
      have ready : popped.guard.ReadyAt hoisted.place hoisted.node.height := readyAt_start h m g
      obtain ⟨type, s1, h1⟩ := @Exporter.exists_gives_exportNode exporter _ _ popped _ (f.of_mem m)
        ready (Nat.le_trans (height_of_mem m) h)
      obtain ⟨-, k, rfl⟩ := Exporter.gives_exportNode h1
      obtain ⟨added, pending, -, sub, -⟩ :=
        popped.offerAll_spec (exporter.exposed hoisted.place hoisted.node)
      have known' : ∀ inner ∈ (popped.offerAll
          (exporter.exposed hoisted.place hoisted.node)).pending, inner.node ∈ root.preorder := by
        intro inner mi
        rw [pending] at mi
        rcases List.mem_append.1 mi with mi | mi
        · exact known inner (by rw [e]; exact List.mem_cons_of_mem _ mi)
        · exact preorder_trans m
            (mem_preorder_of_exported (Exporter.exported_of_exposed (sub inner mi)).1)
      obtain ⟨declarations, s2, h2, g2⟩ := ih (s := (popped.offerAll
        (exporter.exposed hoisted.place hoisted.node)).counted k)
        ⟨k, by simp [ExportState.counted, popped, g]⟩ known'
      refine ⟨⟨hoisted.identifier, type⟩ :: declarations, s2,
        Walk.gives_bind.2 ⟨s, s, rfl, ?_⟩, g2⟩
      rw [e]
      exact Walk.gives_bind.2 ⟨(), popped, rfl, Walk.gives_bind.2 ⟨type, _, h1,
        Walk.gives_bind.2 ⟨declarations, s2, h2, rfl⟩⟩⟩

/-- A tree whose identifiers are unambiguous, and name whatever is referred to, passes the check. -/
lemma checkIdentifiers_eq_ok (w : root.WellFormed) (f : root.Finite) (u : root.Unambiguous)
    (all : ∀ target ∈ root.references, target ∈ root.identifiers) :
    root.checkIdentifiers = .ok () := by
  refine checkIdentifiers_eq_ok_iff.2 ⟨fun earlier node later nodes clash => ?_, all⟩
  obtain ⟨identifier, holder, e, found, differs⟩ := clash
  have mh : holder ∈ root.preorder := by
    rw [nodes]
    exact List.mem_append_left _ (List.mem_of_find?_eq_some found)
  have mn : node ∈ root.preorder := by
    rw [nodes]
    exact List.mem_append_right _ List.mem_cons_self
  have carried : holder.identifier = some identifier := by simpa using List.find?_some found
  obtain rfl := u holder mh node mn (by simp [carried]) (carried.trans e.symm)
  cases differs.symm.trans (same_self (w.of_mem mh) (f.of_mem mh))

/-- The root and the nodes that are queued are exported. -/
lemma exists_gives_exportDeclarations {name : String} (f : root.Finite)
    (h : root.height ≤ exporter.options.maxDepth.toNat) :
    ∃ declarations s',
      (exportDeclarations exporter name root).Gives exporter.start declarations s' ∧
      s'.Guarded exporter.start.guard := by
  have next : ∀ s : ExportState, s.guard = exporter.start.guard → s.pending = [] →
      ∃ declarations s', (do
        let type ← exporter.exportRoot .root root
        let declarations ← exportPending exporter root.identifiers.length
        return ⟨name, type⟩ :: declarations : ExportWalk (List Declaration)).Gives
          s declarations s' ∧ s'.Guarded exporter.start.guard := by
    intro s g e
    have ready : s.guard.ReadyAt .root root.height := readyAt_start h mem_preorder_self g
    obtain ⟨type, s1, h1⟩ := @Exporter.exists_gives_exportNode exporter _ _ s _ f ready h
    obtain ⟨-, n, rfl⟩ := Exporter.gives_exportNode h1
    obtain ⟨added, pending, -, sub, -⟩ := s.offerAll_spec (exporter.exposed .root root)
    have known : ∀ inner ∈ ((s.offerAll (exporter.exposed .root root)).counted n).pending,
        inner.node ∈ root.preorder := by
      intro inner mi
      have pending : ((s.offerAll (exporter.exposed .root root)).counted n).pending = added := by
        rw [e] at pending
        exact pending
      rw [pending] at mi
      exact mem_preorder_of_exported (Exporter.exported_of_exposed (sub inner mi)).1
    obtain ⟨declarations, s2, h2, g2⟩ := exists_gives_exportPending f h
      ⟨n, by simp [ExportState.counted, g]⟩ known
    exact ⟨⟨name, type⟩ :: declarations, s2, Walk.gives_bind.2 ⟨type, _, h1,
      Walk.gives_bind.2 ⟨declarations, s2, h2, rfl⟩⟩, g2⟩
  unfold exportDeclarations
  cases root.identifier with
  | none => exact next exporter.start rfl rfl
  | some identifier =>
    obtain ⟨declarations, s', h', g⟩ :=
      next { exporter.start with seen := identifier :: exporter.start.seen } rfl rfl
    exact ⟨declarations, s', Walk.gives_bind.2 ⟨(), _, rfl, h'⟩, g⟩

/-- A tree of finite numbers and unambiguous identifiers, which is not too high, can be exported as
declarations. -/
theorem exists_toDeclarations {options : ExportOptions} {name : String} (w : root.WellFormed)
    (f : root.Finite) (u : root.Unambiguous)
    (all : ∀ target ∈ root.references, target ∈ root.identifiers)
    (free : root.identifier = none → name ∉ root.identifiers)
    (h : root.height ≤ options.maxDepth.toNat) :
    ∃ declarations, root.toDeclarations options name = .ok declarations := by
  have c : root.checkRootName name = .ok () := by
    unfold checkRootName
    refine if_neg ?_
    rintro ⟨e, m⟩
    exact free (Option.isNone_iff_eq_none.1 e) m
  obtain ⟨declarations, s', h', n, g⟩ :=
    @exists_gives_exportDeclarations ⟨options, true⟩ root (root.rootName name) f h
  refine ⟨declarations, ?_⟩
  unfold toDeclarations
  rw [checkIdentifiers_eq_ok w f u all, c]
  show Exporter.finish ((exportDeclarations _ _ root).run _) = _
  rw [show (exportDeclarations _ _ root).run _ = _ from h']
  unfold Exporter.finish
  dsimp only
  rw [g]
  rfl

end Schema

end TypeSchema
