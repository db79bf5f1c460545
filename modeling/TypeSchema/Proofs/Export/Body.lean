import TypeSchema.Proofs.Export.Parts
import TypeSchema.Proofs.Guard
import TypeSchema.Proofs.Lists
import TypeSchema.Proofs.Schema.Traversal

/-!
# What an export makes of a node

A node is exported as its `body`, in which the nodes that have declarations of their own are names.
Those are the nodes it exposes: the outermost ones with identifiers, in order.
-/

namespace TypeSchema

namespace Schema

/-- An optional member is a union of two members whose second is `undefined`. -/
lemma optionalType?_eq_some {node type : Schema} :
    node.optionalType? = some type ↔
      ∃ info info', node = composite .union [type, primitive .undefined info] info' := by
  unfold optionalType?
  split
  case h_1 =>
    constructor
    · intro h
      cases h
      exact ⟨_, _, rfl⟩
    · rintro ⟨_, _, e⟩
      cases e
      rfl
  case h_2 no =>
    constructor
    · intro h
      cases h
    · rintro ⟨_, _, rfl⟩
      exact absurd rfl (no _ _ _)

lemma sizeOf_optionalType? {node type : Schema} (h : node.optionalType? = some type) :
    sizeOf type < sizeOf node := by
  obtain ⟨info, info', rfl⟩ := optionalType?_eq_some.1 h
  simp only [composite.sizeOf_spec, List.cons.sizeOf_spec]
  omega

lemma sizeOf_splitOptional {node : Schema} : sizeOf node.splitOptional.1 ≤ sizeOf node := by
  unfold splitOptional
  split
  case h_1 e => exact Nat.le_of_lt (sizeOf_optionalType? e)
  case h_2 => exact Nat.le_refl _

/-- Each member of a list is kept as it is, or split as an optional one. -/
lemma forall₂_splitRun (nodes : List Schema) :
    List.Forall₂ (fun node part => part = (node, false) ∨ part = node.splitOptional) nodes
      (splitRun nodes).1 := by
  induction nodes with
  | nil => exact .nil
  | cons node nodes ih =>
    simp only [splitRun]
    split
    case isTrue => exact .cons (.inr rfl) ih
    case isFalse => exact .cons (.inl rfl) ih

/-- Each part of a node is a child, as it is or without the mark of being optional. -/
lemma forall₂_parts (node : Schema) :
    List.Forall₂ (fun child part => part = (child, false) ∨ part = child.splitOptional)
      node.children node.parts := by
  have kept : ∀ nodes : List Schema,
      List.Forall₂ (fun child part => part = (child, false) ∨ part = child.splitOptional) nodes
        (nodes.map fun node => (node, false)) := by
    intro nodes
    rw [List.forall₂_map_right_iff]
    exact List.forall₂_same.2 fun _ _ => .inl rfl
  cases node with
  | primitive => exact .nil
  | literal => exact .nil
  | object properties =>
    rw [children, parts, List.forall₂_map_left_iff, List.forall₂_map_right_iff]
    exact List.forall₂_same.2 fun _ _ => .inr rfl
  | array element => exact kept [element]
  | tuple elements => exact forall₂_splitRun elements
  | composite connective members => exact kept members
  | record key value => exact kept [key, value]
  | function arguments returns =>
    exact List.rel_append (forall₂_splitRun arguments) (kept [returns])
  | reference => exact .nil

/-- A part of a node is one of its children, or the type of an optional one. -/
lemma mem_parts {node : Schema} {part : Schema × Bool} (h : part ∈ node.parts) :
    ∃ child ∈ node.children, part = (child, false) ∨ part = child.splitOptional :=
  exists_of_forall₂ (forall₂_parts node).flip part h

/-- A part of a node is smaller than the node. -/
lemma sizeOf_parts {node : Schema} {part : Schema × Bool} (h : part ∈ node.parts) :
    sizeOf part.1 < sizeOf node := by
  obtain ⟨child, m, e⟩ := mem_parts h
  have := sizeOf_children m
  rcases e with rfl | rfl
  · exact this
  · exact Nat.lt_of_le_of_lt sizeOf_splitOptional this

/-- A part at its place is a part. -/
lemma mem_placedParts {node : Schema} {place : Place} {part : Place × Schema}
    (h : part ∈ node.placedParts place) : ∃ isSplit, (part.2, isSplit) ∈ node.parts := by
  have general : ∀ (members : List (Schema × Bool)) position,
      part ∈ place.members position members → ∃ isSplit, (part.2, isSplit) ∈ members := by
    intro members
    induction members with
    | nil =>
      intro position h
      cases h
    | cons member members ih =>
      intro position h
      cases h with
      | head => exact ⟨member.2, List.mem_cons_self⟩
      | tail _ h =>
        obtain ⟨isSplit, m⟩ := ih _ h
        exact ⟨isSplit, List.mem_cons_of_mem _ m⟩
  exact general _ _ h

/-- Placing the parts of a node leaves none out. -/
lemma placedParts_map (node : Schema) (place : Place) :
    (node.placedParts place).map (·.2) = node.parts.map (·.1) := by
  have general : ∀ (members : List (Schema × Bool)) position,
      (place.members position members).map (·.2) = members.map (·.1) := by
    intro members
    induction members with
    | nil => exact fun _ => rfl
    | cons member members ih => exact fun position => congrArg (member.1 :: ·) (ih _)
  exact general _ _

end Schema

namespace Exporter

variable (exporter : Exporter)

/-- The identifier under which a part has a declaration of its own. -/
def hoisted? (node : Schema) : Option String :=
  if exporter.hoists then node.identifier else none

/-- The type expression of a node. -/
def body (node : Schema) : TypeExpr :=
  exporter.assemble node (node.parts.attach.map fun part =>
    match exporter.hoisted? part.1.1 with
    | some identifier => .reference identifier
    | none => body part.1.1)
termination_by sizeOf node
decreasing_by exact Schema.sizeOf_parts part.2

/-- The nodes with declarations of their own that the type expression of a node names, in order. -/
def exposed (place : Place) (node : Schema) : List HoistedNode :=
  (node.placedParts place).attach.flatMap fun part =>
    match exporter.hoisted? part.1.2 with
    | some identifier => [⟨identifier, part.1.1, part.1.2⟩]
    | none => exposed part.1.1 part.1.2
termination_by sizeOf node
decreasing_by
  obtain ⟨_, m⟩ := Schema.mem_placedParts part.2
  exact Schema.sizeOf_parts m

/-- The type expression of a part. -/
def partType (node : Schema) : TypeExpr :=
  match exporter.hoisted? node with
  | some identifier => .reference identifier
  | none => exporter.body node

/-- What a part exposes: itself, if it has a declaration of its own. -/
def exposedPart (part : Place × Schema) : List HoistedNode :=
  match exporter.hoisted? part.2 with
  | some identifier => [⟨identifier, part.1, part.2⟩]
  | none => exporter.exposed part.1 part.2

variable {exporter}

lemma body_eq {node : Schema} :
    exporter.body node =
      exporter.assemble node (node.parts.map fun part => exporter.partType part.1) := by
  rw [body]
  congr 1
  exact List.attach_map_val (f := fun part : Schema × Bool => exporter.partType part.1)

lemma exposed_eq {place : Place} {node : Schema} :
    exporter.exposed place node = (node.placedParts place).flatMap exporter.exposedPart := by
  have e : node.placedParts place = (node.placedParts place).attach.map Subtype.val :=
    (List.attach_map_subtype_val _).symm
  rw [exposed]
  conv_rhs => rw [e, List.flatMap_map]
  rfl

end Exporter

/-- The state after a node is offered for a declaration of its own: it is queued, unless its
identifier is seen. -/
def ExportState.offer (s : ExportState) (hoisted : HoistedNode) : ExportState :=
  if hoisted.identifier ∈ s.seen then s
  else { s with seen := hoisted.identifier :: s.seen, pending := s.pending ++ [hoisted] }

/-- The state after nodes are offered one after the other. -/
def ExportState.offerAll (s : ExportState) (nodes : List HoistedNode) : ExportState :=
  nodes.foldl offer s

namespace ExportState

variable {s : ExportState} {guard : WalkGuard Place}

/-- The state with the attempts of its guard counted on. -/
def counted (s : ExportState) (iterations : Nat) : ExportState :=
  { s with guard := { s.guard with iterations } }

lemma counted_self : s.counted s.guard.iterations = s := rfl

lemma offer_guard {hoisted : HoistedNode} :
    offer { s with guard } hoisted = { s.offer hoisted with guard } := by
  unfold offer
  show (if hoisted.identifier ∈ s.seen then _ else _) = _
  split <;> rfl

/-- Offering nodes does not depend on the guard. -/
lemma offerAll_guard {nodes : List HoistedNode} :
    offerAll { s with guard } nodes = { s.offerAll nodes with guard } := by
  induction nodes generalizing s with
  | nil => rfl
  | cons hoisted nodes ih =>
    show offerAll (offer { s with guard } hoisted) nodes = _
    rw [offer_guard, ih]
    rfl

lemma guard_offer {hoisted : HoistedNode} : (s.offer hoisted).guard = s.guard := by
  unfold offer
  split <;> rfl

@[simp] lemma guard_offerAll {nodes : List HoistedNode} : (s.offerAll nodes).guard = s.guard := by
  induction nodes generalizing s with
  | nil => rfl
  | cons hoisted nodes ih => exact ih.trans guard_offer

lemma offerAll_append {nodes others : List HoistedNode} :
    s.offerAll (nodes ++ others) = (s.offerAll nodes).offerAll others := List.foldl_append

end ExportState

namespace Exporter

variable {exporter : Exporter} {place : Place} {node : Schema} {s s' : ExportState}
  {type : TypeExpr}

/-- A walk inside a place is refused there, or it cannot leave the place, or it leaves the place
with the result that it has inside. -/
@[elab_as_elim]
theorem within_outcome {α : Type} {walk : ExportWalk α}
    {motive : Except (WalkStop ExportError) α × ExportState → Prop}
    (refused : ∀ answer guard, s.guard.enter place = (answer, guard) → answer ≠ .entered →
      motive (.error (.failed .depthLimitExceeded), { s with guard }))
    (misused : ∀ guard result inside misuse, s.guard.enter place = (.entered, guard) →
      walk.run { s with guard } = (result, inside) → inside.guard.leave place = .error misuse →
      motive (.error (.misused misuse), inside))
    (left : ∀ guard result inside guard', s.guard.enter place = (.entered, guard) →
      walk.run { s with guard } = (result, inside) → inside.guard.leave place = .ok guard' →
      motive (result, { inside with guard := guard' })) :
    motive ((within place walk).run s) := by
  unfold Walk.run within
  cases e : s.guard.enter place with
  | mk answer guard =>
    cases answer with
    | entered =>
      dsimp only
      cases r : walk.run { s with guard } with
      | mk result inside =>
        dsimp only
        cases l : inside.guard.leave place with
        | error misuse => exact misused guard result inside misuse e r l
        | ok guard' => exact left guard result inside guard' e r l
    | _ => exact refused _ guard e nofun

/-- A walk inside a place gives what it gives in the state that has entered the place. -/
lemma gives_within {α : Type} {walk : ExportWalk α} {a : α} :
    (within place walk).Gives s a s' ↔
      ∃ guard inside guard', s.guard.enter place = (.entered, guard) ∧
        walk.Gives { s with guard } a inside ∧ inside.guard.leave place = .ok guard' ∧
        s' = { inside with guard := guard' } := by
  unfold Walk.Gives
  constructor
  · refine within_outcome ?_ ?_ ?_
    · rintro answer guard - - h
      cases h
    · rintro guard result inside misuse - - - h
      cases h
    · rintro guard result inside guard' e r l h
      cases h
      exact ⟨guard, inside, guard', e, r, l, rfl⟩
  · rintro ⟨guard, inside, guard', e, r, l, rfl⟩
    show within place walk s = _
    unfold within
    rw [e]
    dsimp only
    rw [r]
    dsimp only
    rw [l]

/-- A part is exported as a name, and offered for a declaration, or exported itself. -/
lemma exportMember_eq {exportPart : Place → Schema → ExportWalk TypeExpr} :
    exporter.exportMember exportPart place node =
      match exporter.hoisted? node with
      | some identifier => do
        hoist identifier place node
        return .reference identifier
      | none => exportPart place node := by
  unfold exportMember hoisted?
  cases exporter.hoists with
  | false => rfl
  | true => cases node.identifier <;> rfl

/-- Exporting parts gives their type expressions and offers what they expose, if it does so for each
of them. -/
lemma exportPlaced_of_threads {exportPart : Place → Schema → ExportWalk TypeExpr}
    {parts : List (Place × Schema)} {types : List TypeExpr}
    (ih : ∀ place node s type s', (exportPart place node).Gives s type s' →
      type = exporter.body node ∧
        ∃ n, s' = (s.offerAll (exporter.exposed place node)).counted n)
    (h : (parts.mapM (exporter.exportPlaced exportPart)).Gives s types s') :
    types = parts.map (fun part => exporter.partType part.2) ∧
      ∃ n, s' = (s.offerAll (parts.flatMap exporter.exposedPart)).counted n := by
  rw [Walk.gives_mapM] at h
  induction h with
  | @nil s => exact ⟨rfl, s.guard.iterations, rfl⟩
  | @cons part parts s type s1 types s' h1 _ ih' =>
    have one : type = exporter.partType part.2 ∧
        ∃ n, s1 = (s.offerAll (exporter.exposedPart part)).counted n := by
      unfold exportPlaced at h1
      rw [exportMember_eq] at h1
      unfold partType exposedPart
      cases e : exporter.hoisted? part.2 with
      | none =>
        rw [e] at h1
        exact ih _ _ _ _ _ h1
      | some identifier =>
        rw [e] at h1
        obtain ⟨_, s2, h2, h3⟩ := Walk.gives_bind.1 h1
        obtain ⟨rfl, rfl⟩ := Walk.gives_pure.1 h3
        obtain rfl : s.offer ⟨identifier, part.1, part.2⟩ = s2 := Walk.gives_modify.1 h2
        exact ⟨rfl, _, ExportState.counted_self.symm⟩
    obtain ⟨rfl, n, rfl⟩ := one
    obtain ⟨rfl, m, rfl⟩ := ih'
    refine ⟨rfl, m, ?_⟩
    rw [List.flatMap_cons, ExportState.offerAll_append]
    unfold ExportState.counted
    rw [ExportState.offerAll_guard]
    simp

/-- Checking a literal changes nothing. -/
lemma state_of_checkLiteral {u : Unit} (h : node.checkLiteral.Gives s u s') : s = s' := by
  unfold Schema.checkLiteral at h
  split at h
  case h_1 =>
    split at h
    case isTrue => exact (Walk.gives_pure.1 h).2
    case isFalse => exact absurd h Walk.not_gives_fail
  case h_2 => exact (Walk.gives_pure.1 h).2

/-- A node is exported as its body, and what it exposes is offered for declarations. -/
theorem gives_exportNode {room : Nat} (h : (exporter.exportNode room place node).Gives s type s') :
    type = exporter.body node ∧
      ∃ n, s' = (s.offerAll (exporter.exposed place node)).counted n := by
  induction room generalizing place node s type s' with
  | zero =>
    obtain ⟨_, _, _, -, h, -⟩ := gives_within.1 h
    exact absurd h Walk.not_gives_fail
  | succ room ih =>
    obtain ⟨guard, inside, guard', e, h, l, rfl⟩ := gives_within.1 h
    obtain ⟨-, m, -, rfl⟩ := WalkGuard.enter_eq_entered.1 e
    rw [exportStructure_eq] at h
    obtain ⟨_, s1, h1, h2⟩ := Walk.gives_bind.1 h
    obtain ⟨types, s2, h3, h4⟩ := Walk.gives_bind.1 h2
    obtain ⟨rfl, rfl⟩ := Walk.gives_pure.1 h4
    obtain rfl := state_of_checkLiteral h1
    obtain ⟨rfl, n, rfl⟩ := exportPlaced_of_threads (fun _ _ _ _ _ => ih) h3
    obtain ⟨-, rfl⟩ := WalkGuard.leave_eq_ok.1 l
    refine ⟨?_, n, ?_⟩
    · have parts := congrArg (List.map exporter.partType) (node.placedParts_map place)
      rw [List.map_map, List.map_map] at parts
      rw [body_eq]
      exact congrArg (exporter.assemble node) parts
    · rw [exposed_eq]
      unfold ExportState.counted
      rw [ExportState.offerAll_guard]
      simp

end Exporter

end TypeSchema
