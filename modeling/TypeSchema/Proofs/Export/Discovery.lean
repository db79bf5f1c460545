import Mathlib.Data.List.Flatten
import TypeSchema.Proofs.Export.Abridged

/-!
# The order of the declarations

The declarations of a tree are those of its abridged root and of the abridged trees of the nodes
that are discovered. These are searched breadth-first, and below each node in preorder: the
outermost identified nodes below a node are looked at after those below all nodes that were
discovered before.
-/

namespace TypeSchema

namespace Schema

/-- The trees of the outermost identified nodes lie apart, in preorder. -/
theorem outermost_sublist (node : Schema) :
    (node.outermost.flatMap preorder).Sublist (node.children.flatMap preorder) := by
  induction node using childrenInduction with
  | step node ih =>
    rw [outermost_eq, List.flatMap_assoc]
    refine List.Sublist.flatMap_right _ fun child m => ?_
    cases e : child.identifier with
    | some identifier =>
      rw [outermostPart_of_identifier e, List.flatMap_singleton]
    | none =>
      rw [outermostPart_of_none e, preorder_eq child]
      exact (ih child m).cons _

/-- The nodes of a queue that carry an identifier that is not seen are discovered, one for each
identifier. The outermost identified nodes below one that is discovered come last in the queue. -/
def discover (seen : List String) : (queue : List Schema) → List Schema
  | [] => []
  | node :: queue =>
    match node.identifier with
    | none => discover seen queue
    | some identifier =>
      if identifier ∈ seen then discover seen queue
      else node :: discover (identifier :: seen) (queue ++ node.outermost)
termination_by queue => (queue.flatMap preorder).length
decreasing_by
  · rw [List.flatMap_cons, List.length_append, preorder_eq node, List.length_cons]
    omega
  · rw [List.flatMap_cons, List.length_append, preorder_eq node, List.length_cons]
    omega
  -- The trees below the node lie apart in it, so together they are smaller than it is.
  · have apart := node.outermost_sublist.length_le
    rw [List.flatMap_cons, List.flatMap_append, List.length_append, List.length_append,
      preorder_eq node, List.length_cons]
    omega

/-- The identified nodes below the root that are discovered, the first one of each identifier. -/
def discovered (node : Schema) : List Schema :=
  discover node.identifier.toList node.outermost

variable {node : Schema} {seen : List String} {queue : List Schema}

lemma discover_of_mem {identifier : String} (e : node.identifier = some identifier)
    (m : identifier ∈ seen) : discover seen (node :: queue) = discover seen queue := by
  rw [discover]
  simp [e, m]

lemma discover_of_not_mem {identifier : String} (e : node.identifier = some identifier)
    (m : identifier ∉ seen) : discover seen (node :: queue) =
      node :: discover (identifier :: seen) (queue ++ node.outermost) := by
  rw [discover]
  simp [e, m]

end Schema

/-- The nodes that are still to be declared: those that wait, and those discovered below them. -/
def ExportState.awaited (s : ExportState) : List Schema :=
  s.pending.map (·.node) ++
    Schema.discover s.seen ((s.pending.map (·.node)).flatMap Schema.outermost)

/-- Counting attempts changes nothing that is awaited. -/
lemma ExportState.awaited_counted {s : ExportState} {iterations : Nat} :
    (s.counted iterations).awaited = s.awaited := rfl

/-- A node that waits carries its identifier, and marks of optional members carry none. -/
structure HoistedNode.Plain (hoisted : HoistedNode) : Prop where
  identifier : hoisted.node.identifier = some hoisted.identifier
  marks : hoisted.node.PlainMarks

/-- Nodes at the front of a queue are discovered if they are queued when they are offered. -/
lemma ExportState.discover_offerAll {s : ExportState} {nodes : List HoistedNode}
    (p : ∀ hoisted ∈ nodes, hoisted.node.identifier = some hoisted.identifier)
    (queue : List Schema) :
    ∃ added, (s.offerAll nodes).pending = s.pending ++ added ∧
      Schema.discover s.seen (nodes.map (·.node) ++ queue) =
        added.map (·.node) ++ Schema.discover (s.offerAll nodes).seen
          (queue ++ (added.map (·.node)).flatMap Schema.outermost) := by
  induction nodes generalizing s queue with
  | nil => exact ⟨[], by simp [offerAll], by simp [offerAll]⟩
  | cons hoisted nodes ih =>
    have e := p hoisted List.mem_cons_self
    have p' := fun inner m => p inner (List.mem_cons_of_mem _ m)
    have step : s.offerAll (hoisted :: nodes) = (s.offer hoisted).offerAll nodes := rfl
    rw [step]
    by_cases m : hoisted.identifier ∈ s.seen
    -- The node is dropped, here by the offer and there from the front of the queue.
    · have same : s.offer hoisted = s := if_pos m
      obtain ⟨added, pending, found⟩ := @ih s p' queue
      rw [same]
      refine ⟨added, pending, ?_⟩
      rw [List.map_cons, List.cons_append, Schema.discover_of_mem e m]
      exact found
    -- What is below the node comes last in the queue, as the node is the last one that waits.
    · have queued : s.offer hoisted =
          { s with seen := hoisted.identifier :: s.seen, pending := s.pending ++ [hoisted] } :=
        if_neg m
      obtain ⟨added, pending, found⟩ := @ih (s.offer hoisted) p' (queue ++ hoisted.node.outermost)
      refine ⟨hoisted :: added, ?_, ?_⟩
      · rw [pending, queued, List.append_assoc]
        rfl
      · rw [queued] at found
        rw [List.map_cons, List.cons_append, Schema.discover_of_not_mem e m, List.append_assoc,
          queued, found]
        simp

namespace Schema

variable {options : ExportOptions} {name : String} {node : Schema} {s s' : ExportState}

/-- A declaration is that of a node: it has the identifier of the node as its name, and as its type
what the abridged tree is exported as where no declarations are made. -/
structure DeclaredAs (options : ExportOptions) (node : Schema) (declaration : Declaration) :
    Prop where
  name : node.identifier = some declaration.name
  type : node.abridged.ExportsAs options declaration.type

/-- An exported node has the type expression of its abridged tree. -/
lemma exportsAs_of_gives {place : Place} {room : Nat} {type : TypeExpr} (p : node.PlainMarks)
    (h : (Exporter.exportNode ⟨options, true⟩ room place node).Gives s type s') :
    node.abridged.ExportsAs options type := by
  obtain ⟨rfl, -⟩ := Exporter.gives_exportNode h
  rw [Exporter.body_abridged p]
  exact exportsAs_of_finite (Exporter.finite_abridged_of_gives h)

/-- What a node exposes is looked at before what is below the nodes that wait. -/
lemma awaited_offerAll {place : Place} (p : node.PlainMarks) :
    (s.offerAll (Exporter.exposed ⟨options, true⟩ place node)).awaited =
      s.pending.map (·.node) ++
        discover s.seen (node.outermost ++ (s.pending.map (·.node)).flatMap outermost) := by
  obtain ⟨added, pending, found⟩ := @ExportState.discover_offerAll s
    (Exporter.exposed ⟨options, true⟩ place node)
    (fun inner m => (Exporter.exported_of_exposed m).2)
    ((s.pending.map (·.node)).flatMap outermost)
  rw [Exporter.exposed_outermost p] at found
  unfold ExportState.awaited
  rw [pending, List.map_append, List.flatMap_append, List.append_assoc, ← found]

/-- Where nothing waits yet and the identifier of the root is seen, what the root exposes is what is
discovered. -/
lemma awaited_offerAll_root {place : Place} (p : node.PlainMarks) (e : s.pending = [])
    (seen : s.seen = node.identifier.toList) :
    (s.offerAll (Exporter.exposed ⟨options, true⟩ place node)).awaited = node.discovered := by
  rw [awaited_offerAll p, e, seen]
  simp [discovered]

/-- What a node exposes is as plain as the nodes that wait. -/
lemma plain_offerAll {place : Place} (p : node.PlainMarks) (all : ∀ hoisted ∈ s.pending,
    hoisted.Plain) : ∀ hoisted ∈ (s.offerAll (Exporter.exposed ⟨options, true⟩ place node)).pending,
      hoisted.Plain := by
  obtain ⟨added, pending, -, sub, -⟩ := s.offerAll_spec
    (Exporter.exposed ⟨options, true⟩ place node)
  intro hoisted m
  rw [pending] at m
  rcases List.mem_append.1 m with m | m
  · exact all hoisted m
  · obtain ⟨exported, identifier⟩ := Exporter.exported_of_exposed (sub hoisted m)
    exact ⟨identifier, p.of_mem (mem_preorder_of_exported exported)⟩

/-- A run of the queue declares the first of the nodes that are awaited. -/
theorem awaited_of_gives_exportPending {count : Nat} {declarations : List Declaration}
    (h : (exportPending ⟨options, true⟩ count).Gives s declarations s')
    (p : ∀ hoisted ∈ s.pending, hoisted.Plain) :
    ∃ nodes, s.awaited = nodes ++ s'.awaited ∧
      List.Forall₂ (DeclaredAs options) nodes declarations := by
  induction count generalizing s declarations with
  | zero =>
    obtain ⟨rfl, rfl⟩ := Walk.gives_pure.1 h
    exact ⟨[], rfl, .nil⟩
  | succ count ih =>
    obtain ⟨t, s1, h1, h2⟩ := Walk.gives_bind.1 h
    obtain ⟨rfl, rfl⟩ := Walk.gives_get.1 h1
    cases e : s.pending with
    | nil =>
      rw [e] at h2
      obtain ⟨rfl, rfl⟩ := Walk.gives_pure.1 h2
      exact ⟨[], rfl, .nil⟩
    | cons hoisted rest =>
      rw [e] at h2 p
      obtain ⟨_, s2, h3, h4⟩ := Walk.gives_bind.1 h2
      obtain rfl := Walk.gives_modify.1 h3
      obtain ⟨type, s3, h5, h6⟩ := Walk.gives_bind.1 h4
      obtain ⟨declarations', s4, h7, h8⟩ := Walk.gives_bind.1 h6
      obtain ⟨rfl, rfl⟩ := Walk.gives_pure.1 h8
      -- The node that is taken is the first that is awaited, and hands on those that it exposes.
      have plain := p hoisted List.mem_cons_self
      have declared : hoisted.node.DeclaredAs options ⟨hoisted.identifier, type⟩ :=
        ⟨plain.identifier, exportsAs_of_gives plain.marks h5⟩
      obtain ⟨rfl, n, rfl⟩ := Exporter.gives_exportNode h5
      obtain ⟨nodes, found, all⟩ :=
        ih h7 (plain_offerAll plain.marks fun inner m => p inner (List.mem_cons_of_mem _ m))
      refine ⟨hoisted.node :: nodes, ?_, .cons declared all⟩
      rw [List.cons_append, ← found, ExportState.awaited_counted, awaited_offerAll plain.marks]
      unfold ExportState.awaited
      rw [e]
      rfl

/-- The declarations of a tree are those of its abridged root and of the abridged trees of the nodes
that are discovered, in their order. -/
theorem toDeclarations_abridged {declarations : List Declaration} (p : node.PlainMarks)
    (h : node.toDeclarations options name = .ok declarations) :
    ∃ type rest, declarations = ⟨node.rootName name, type⟩ :: rest ∧
      node.abridged.ExportsAs options type ∧
      List.Forall₂ (DeclaredAs options) node.discovered rest := by
  obtain ⟨-, -, s', g⟩ := gives_of_toDeclarations h
  obtain ⟨n, rest, root, queue, rfl⟩ := gives_exportDeclarations g
  obtain ⟨drained, added, d, -, stop⟩ := gives_exportPending queue
  obtain ⟨done, -⟩ := declares_of_drains rfl (List.append_nil _) d stop
  obtain ⟨nodes, found, all⟩ := awaited_of_gives_exportPending queue (plain_offerAll p nofun)
  have last : s'.awaited = [] := by
    unfold ExportState.awaited
    rw [done]
    simp [discover]
  rw [last, List.append_nil, ExportState.awaited_counted,
    awaited_offerAll_root p rfl (List.append_nil _)] at found
  refine ⟨_, rest, rfl, exportsAs_of_gives p root, ?_⟩
  rw [found]
  exact all

/-- An identified string with a description. -/
def describedWord : Schema :=
  .primitive .string { identifier := some "Word", description := some "a word" }

/-- An identified pair of an identified string and of an identified list of numbers. -/
def identifiedPair : Schema :=
  .tuple [describedWord, .array (.primitive .number {}) { identifier := some "Numbers" }]
    { identifier := some "Pair" }

/-- An object with a property that is a pair, and with an optional one. -/
def withPair : Schema :=
  .object [("pair", identifiedPair),
    ("word", .composite .union [describedWord, .primitive .undefined {}] {})] {}

/-- The list of numbers is discovered after the string, as it is further from the root. -/
example : withPair.discovered.map identifier = [some "Pair", some "Word", some "Numbers"] := by
  simp [discovered, withPair, identifiedPair, describedWord, outermost_eq, outermostPart, orBelow,
    identifier, info, children, discover]

/-- The object is exported as declarations of the pair, of the string and of the list. -/
theorem toDeclarations_withPair : withPair.PlainMarks ∧ ∃ declarations,
    withPair.toDeclarations {} "Root" = .ok declarations ∧
      declarations.map (·.name) = ["Root", "Pair", "Word", "Numbers"] ∧
      ∃ type rest, declarations = ⟨"Root", type⟩ :: rest ∧
        withPair.abridged.ExportsAs {} type ∧
        List.Forall₂ (DeclaredAs {}) withPair.discovered rest := by
  have plain : withPair.PlainMarks := by
    intro members info m _ _ mark u
    have one : members = [describedWord, .primitive .undefined {}] ∧ info = {} := by
      simpa [withPair, identifiedPair, describedWord, preorder, preorderProperties, preorderList]
        using m
    obtain ⟨rfl, rfl⟩ := one
    rcases List.mem_pair.1 u with u | u
    · cases u
    · cases u
      rfl
  have names : (withPair.toDeclarations {} "Root").toOption.map (List.map (·.name)) =
      some ["Root", "Pair", "Word", "Numbers"] := by decide +kernel
  cases given : withPair.toDeclarations {} "Root" with
  | error stop =>
    rw [given] at names
    cases names
  | ok declarations =>
    rw [given] at names
    exact ⟨plain, declarations, rfl, Option.some.inj names, toDeclarations_abridged plain given⟩

end Schema

end TypeSchema
