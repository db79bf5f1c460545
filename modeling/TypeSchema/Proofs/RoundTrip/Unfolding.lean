import TypeSchema.Proofs.RoundTrip.Portable
import TypeSchema.Proofs.Schema.Resemblance

/-!
# How a tree unfolds

`Unfolds` follows a tree in the order in which it is lowered and imported: by the parts that are
exported of a node, with the identifiers that are seen on the way. What it ends with resembles the
shared tree, and of a portable tree every reference is met after its target.
-/

namespace TypeSchema.Schema

/-- A node with other nodes for its parts, which become optional again where a part was split. -/
def withParts (node : Schema) (nodes : List Schema) : Schema :=
  node.withChildren (node.parts.zipWith (fun part node => node.atPlace part.2) nodes)

/-- A tree that comes after the `seen` identifiers becomes another one, with the identifiers seen
after it. -/
inductive Unfolds : Schema → List String → Schema → List String → Prop
  | primitive {type info seen} :
    info.identifier = none →
    Unfolds (.primitive type info) seen (.primitive type {}) seen
  | literal {value info seen} :
    info.identifier = none →
    Unfolds (.literal value info) seen (.literal value {}) seen
  | reference {target info seen} :
    info.identifier = none →
    target ∈ seen →
    Unfolds (.reference target info) seen (.reference target {}) seen
  | copy {node identifier seen} :
    node.identifier = some identifier →
    identifier ∈ seen →
    Unfolds node seen (.reference identifier {}) seen
  | parted {node seen nodes seen'} :
    node.mayBeIdentified →
    (∀ identifier ∈ seen, node.identifier ≠ some identifier) →
    Walk.Threads Unfolds (node.parts.map (·.1)) (node.identifier.toList ++ seen) nodes seen' →
    Unfolds node seen (node.withParts nodes) seen'

/-- Induction on an unfolding: what holds of the unfoldings of the parts holds of the unfolding. -/
@[elab_as_elim]
theorem Unfolds.induct {motive : ∀ node seen x seen', Unfolds node seen x seen' → Prop}
    (primitive : ∀ {type info seen} (u : info.identifier = none),
      motive (.primitive type info) seen (.primitive type {}) seen (.primitive u))
    (literal : ∀ {value info seen} (u : info.identifier = none),
      motive (.literal value info) seen (.literal value {}) seen (.literal u))
    (reference : ∀ {target info seen} (u : info.identifier = none) (m : target ∈ seen),
      motive (.reference target info) seen (.reference target {}) seen (.reference u m))
    (copy : ∀ {node identifier seen} (e : node.identifier = some identifier)
      (m : identifier ∈ seen), motive node seen (.reference identifier {}) seen (.copy e m))
    (parted : ∀ {node seen nodes seen'} (k : node.mayBeIdentified)
      (n : ∀ identifier ∈ seen, node.identifier ≠ some identifier)
      (all : Walk.Threads Unfolds (node.parts.map (·.1)) (node.identifier.toList ++ seen) nodes
        seen')
      (_ih : Walk.Threads (fun part seen x seen' => ∃ h, motive part seen x seen' h)
        (node.parts.map (·.1)) (node.identifier.toList ++ seen) nodes seen'),
      motive node seen (node.withParts nodes) seen' (.parted k n all))
    {node : Schema} {seen : List String} {x : Schema} {seen' : List String}
    (h : Unfolds node seen x seen') : motive node seen x seen' h := by
  refine @Unfolds.rec motive
    (fun nodes seen xs seen' _ =>
      Walk.Threads (fun part seen x seen' => ∃ h, motive part seen x seen' h) nodes seen xs seen')
    primitive literal reference copy ?_ .nil ?_ node seen x seen' h
  · intro node seen nodes seen' k n all ih
    exact parted k n all ih
  · intro part parts seen x seen' xs seen'' h _ m all
    exact .cons ⟨h, m⟩ all

variable {root node : Schema} {name : String} {seen seen' : List String}

/-! ## Children and parts -/

/-- The part is the child, or the type of a child that is optional. -/
inductive PartOf (places : List Schema) (child : Schema) : Schema × Bool → Prop
  | kept : PartOf places child (child, false)
  | split {type info info'} :
    child ∈ places →
    child = composite .union [type, primitive .undefined info] info' →
    info'.identifier = none →
    PartOf places child (type, true)

lemma partOf_splitOptional {places : List Schema} {child : Schema} (m : child ∈ places) :
    PartOf places child child.splitOptional := by
  unfold splitOptional
  split
  case h_1 type e t =>
    unfold optionalType? at t
    split at t
    case h_1 =>
      cases t
      exact .split m rfl e
    case h_2 => cases t
  case h_2 => exact .kept

lemma partOf_splitRun {places nodes : List Schema} (sub : ∀ node ∈ nodes, node ∈ places) :
    List.Forall₂ (PartOf places) nodes (splitRun nodes).1 := by
  induction nodes with
  | nil => exact .nil
  | cons node nodes ih =>
    have ih := ih fun node m => sub node (List.mem_cons_of_mem _ m)
    simp only [splitRun]
    split
    case isTrue => exact .cons (partOf_splitOptional (sub node List.mem_cons_self)) ih
    case isFalse => exact .cons .kept ih

/-- The parts of a node are those of its children, in their order. -/
lemma partOf_children (node : Schema) :
    List.Forall₂ (PartOf node.optionalPlaces) node.children node.parts := by
  have kept : ∀ (places nodes : List Schema),
      List.Forall₂ (PartOf places) nodes (nodes.map fun node => (node, false)) := by
    intro places nodes
    induction nodes with
    | nil => exact .nil
    | cons node nodes ih => exact .cons .kept ih
  cases node with
  | primitive => exact .nil
  | literal => exact .nil
  | object properties =>
    show List.Forall₂ _ (properties.map (·.2)) (properties.map fun p => p.2.splitOptional)
    rw [List.forall₂_map_left_iff, List.forall₂_map_right_iff, List.forall₂_same]
    exact fun property m => partOf_splitOptional (List.mem_map_of_mem m)
  | array => exact .cons .kept .nil
  | tuple => exact partOf_splitRun fun _ m => m
  | composite _ members => exact kept _ members
  | record => exact .cons .kept (.cons .kept .nil)
  | function arguments =>
    exact List.rel_append (partOf_splitRun fun _ m => m) (.cons .kept .nil)
  | reference => exact .nil

/-- Every child of a node has its part. -/
lemma exists_partOf {child : Schema} (m : child ∈ node.children) :
    ∃ part ∈ node.parts, PartOf node.optionalPlaces child part := by
  have h := partOf_children node
  revert m h
  generalize node.children = children, node.parts = parts, node.optionalPlaces = places
  intro m h
  induction h with
  | nil => cases m
  | @cons _ part _ _ pair _ ih =>
    cases m with
    | head => exact ⟨part, List.mem_cons_self, pair⟩
    | tail _ m =>
      obtain ⟨part', m', pair'⟩ := ih m
      exact ⟨part', List.mem_cons_of_mem _ m', pair'⟩

lemma heightList_parts (node : Schema) : heightList (node.parts.map (·.1)) < node.height := by
  refine heightList_lt height_pos fun inner m => ?_
  obtain ⟨part, mp, rfl⟩ := List.mem_map.1 m
  exact height_of_part mp

/-- A child that marks an optional member has its part, and more nodes. -/
lemma length_preorder_partOf {places : List Schema} {child : Schema} {part : Schema × Bool}
    (h : PartOf places child part) : part.1.preorder.length ≤ child.preorder.length := by
  cases h with
  | kept => exact Nat.le_refl _
  | split _ e _ =>
    subst e
    rw [preorder_eq (composite ..)]
    simp only [children, List.flatMap_cons, List.length_cons, List.length_append]
    omega

/-- The parts of a node have fewer nodes than the node. -/
lemma length_preorder_parts (node : Schema) :
    ((node.parts.map (·.1)).flatMap preorder).length < node.preorder.length := by
  have h := partOf_children node
  rw [preorder_eq node, List.length_cons, Nat.lt_succ_iff]
  revert h
  generalize node.children = children, node.parts = parts, node.optionalPlaces = places
  intro h
  induction h with
  | nil => exact Nat.le_refl _
  | cons pair _ ih =>
    have := length_preorder_partOf pair
    simp only [List.map_cons, List.flatMap_cons, List.length_append] at ih ⊢
    omega

/-- Parts that resemble each other make a node into trees that do so as well. -/
lemma Resembles.withParts {nodes others : List Schema} (l : nodes.length = node.parts.length)
    (h : List.Forall₂ Resembles nodes others) :
    (node.withParts nodes).Resembles (node.withParts others) := by
  have placed : ∀ parts : List (Schema × Bool), List.Forall₂ Resembles
      (parts.zipWith (fun part node => node.atPlace part.2) nodes)
      (parts.zipWith (fun part node => node.atPlace part.2) others) := by
    intro parts
    clear l
    induction h generalizing parts with
    | nil => simp
    | cons e _ ih =>
      cases parts with
      | nil => exact .nil
      | cons part parts => exact .cons (e.atPlace part.2) (ih parts)
  refine .withChildren ?_ (placed node.parts)
  rw [List.length_zipWith, l, Nat.min_self]
  exact (partOf_children node).length_eq.symm

/-! ## References come after their targets -/

lemma Scoped.mono {known known' : List String} {nodes : List Schema} (h : Scoped known nodes)
    (l : known ⊆ known') : Scoped known' nodes := by
  induction nodes generalizing known known' with
  | nil => trivial
  | cons node nodes ih =>
    refine ⟨fun target e => l (h.1 target e), ih h.2 ?_⟩
    exact List.append_subset.2 ⟨List.subset_append_left _ _,
      List.Subset.trans l (List.subset_append_right _ _)⟩

lemma Scoped.append {known : List String} {nodes others : List Schema}
    (h : Scoped known (nodes ++ others)) :
    Scoped known nodes ∧ Scoped (nodes.filterMap identifier ++ known) others := by
  induction nodes generalizing known with
  | nil => exact ⟨trivial, h⟩
  | cons node nodes ih =>
    obtain ⟨one, two⟩ := ih h.2
    refine ⟨⟨h.1, one⟩, two.mono ?_⟩
    rw [List.filterMap_cons]
    cases node.identifier <;> simp

/-- Only nodes that have parts are identified in a portable tree. -/
lemma Portable.identifier_eq_none (p : Portable name root) (m : node ∈ root.preorder)
    (n : ¬ node.mayBeIdentified) : node.identifier = none := by
  cases e : node.identifier with
  | none => rfl
  | some identifier => exact absurd (p.identified node m identifier e).2 n

/-- A union that marks an optional member is shared by sharing the type of the member. -/
lemma share_optional {type : Schema} {info info' : NodeInfo} (e : info.identifier = none)
    (e' : info'.identifier = none) :
    (composite .union [type, primitive .undefined info] info').share seen =
      (composite .union [(type.share seen).1, primitive .undefined info] info',
        (type.share seen).2) := by
  simp only [share, shareList, NodeInfo.once, e, e']

/-- A child unfolds like its part. -/
lemma unfolds_partOf (p : Portable name root) {places : List Schema} {child : Schema}
    {part : Schema × Bool} (h : PartOf places child part) (m : child ∈ root.preorder)
    (optional : ∀ place ∈ places, place.identifier = none →
      ∀ type, place.optionalType? = some type → type.admitsUndefined = false)
    (ih : ∀ seen, Scoped seen part.1.preorder →
      root.Settled identifier seen seen (sizeOf part.1 + 1) →
        ∃ x, Unfolds part.1 seen x (part.1.share seen).2 ∧ (part.1.share seen).1.Resembles x)
    (sc : Scoped seen child.preorder)
    (st : root.Settled identifier seen seen (sizeOf child + 1)) :
    ∃ x, Unfolds part.1 seen x (child.share seen).2 ∧
      (child.share seen).1.Resembles (x.atPlace part.2) := by
  cases h with
  | kept => exact ih seen sc st
  | @split type info info' mp e e' =>
    subst e
    have plain : info.identifier = none := p.identifier_eq_none
      (preorder_trans m (mem_preorder_of_child (List.mem_cons_of_mem _ List.mem_cons_self)
        mem_preorder_self)) fun h => h
    have sc' : Scoped seen type.preorder := by
      rw [preorder_eq] at sc
      have sc := sc.2
      rw [show (composite .union [type, primitive .undefined info] info').identifier = none from e']
        at sc
      exact (@Scoped.append seen type.preorder _ sc).1
    have smaller : sizeOf type + 1 ≤
        sizeOf (composite .union [type, primitive .undefined info] info') + 1 :=
      Nat.succ_le_succ (Nat.le_of_lt (sizeOf_children List.mem_cons_self))
    obtain ⟨x, h, r⟩ := ih seen sc' (st.mono smaller)
    rw [share_optional plain e']
    refine ⟨x, h, ?_⟩
    -- The type beside `undefined` does not admit it, so making it optional makes the pair again.
    have n : x.admitsUndefined = false := by
      rw [← r.admitsUndefined_eq]
      cases a : (type.share seen).1.admitsUndefined with
      | false => rfl
      | true =>
        have a' := admitsUndefined_of_share seen a
        rw [optional _ mp e' type rfl] at a'
        cases a'
    show Resembles _ x.toOptional
    unfold toOptional
    rw [n]
    show Eq _ _
    simp only [withoutDescriptions, withoutDescriptionsList, Bool.false_eq_true, if_false,
      undefinedNode]
    rw [r, plain, e']

/-- After a tree its identifiers are seen, and settled. -/
lemma settled_share (p : Portable name root) (m : node ∈ root.preorder) {size : Nat}
    (l : sizeOf node + 1 ≤ size) (st : root.Settled identifier seen seen size) :
    node.identifiers ++ seen ⊆ (node.share seen).2 ∧
      root.Settled identifier (node.share seen).2 (node.share seen).2 size := by
  obtain ⟨before, inside⟩ := share_seen node seen
  have all : seen ++ (node.share seen).1.identifiers ⊆ (node.share seen).2 :=
    List.append_subset.2 ⟨before, inside⟩
  obtain ⟨kept, settles⟩ := collect_share p.unambiguous (fun _ _ => identifier_withChildren) node m
    seen seen (st.mono l)
  refine ⟨List.append_subset.2 ⟨List.Subset.trans kept all, before⟩, st.settles before ?_⟩
  intro i mi
  exact (settles i mi).imp_right fun hosts host mh e => List.Subset.trans (hosts host mh e) all

/-- Children unfold one after the other, if each of their parts unfolds. -/
lemma unfolds_children (p : Portable name root) {places children shared : List Schema}
    {parts : List (Schema × Bool)} {size : Nat}
    (pairs : List.Forall₂ (PartOf places) children parts)
    (sub : ∀ child ∈ children, child ∈ root.preorder ∧ sizeOf child + 1 ≤ size)
    (optional : ∀ place ∈ places, place.identifier = none →
      ∀ type, place.optionalType? = some type → type.admitsUndefined = false)
    (ih : ∀ part ∈ parts, ∀ seen, Scoped seen part.1.preorder →
      root.Settled identifier seen seen (sizeOf part.1 + 1) →
        ∃ x, Unfolds part.1 seen x (part.1.share seen).2 ∧ (part.1.share seen).1.Resembles x)
    (h : Shares children seen shared seen') (sc : Scoped seen (children.flatMap preorder))
    (st : root.Settled identifier seen seen size) :
    ∃ nodes, Walk.Threads Unfolds (parts.map (·.1)) seen nodes seen' ∧
      List.Forall₂ Resembles shared
        (parts.zipWith (fun part node => node.atPlace part.2) nodes) := by
  induction h generalizing parts with
  | nil =>
    cases pairs
    exact ⟨[], .nil, .nil⟩
  | @cons child children seen x seen1 xs seen' e _ ih' =>
    cases pairs with
    | @cons _ part _ parts pair pairs =>
      obtain ⟨m, l⟩ := sub child List.mem_cons_self
      rw [List.flatMap_cons] at sc
      obtain ⟨one, rest⟩ := sc.append
      obtain ⟨y, u, r⟩ := unfolds_partOf p pair m optional (ih part List.mem_cons_self) one
        (st.mono l)
      obtain ⟨grow, st'⟩ := settled_share p m l st
      rw [e] at u r grow st'
      obtain ⟨ys, us, rs⟩ := ih' pairs (fun child m => sub child (List.mem_cons_of_mem _ m))
        (fun part m => ih part (List.mem_cons_of_mem _ m)) (rest.mono grow) st'
      exact ⟨y :: ys, .cons u us, .cons r rs⟩

/-- Parts of a node of a tree are nodes of the tree. -/
lemma mem_root_of_part {part : Schema × Bool} (m : node ∈ root.preorder) (mp : part ∈ node.parts) :
    part.1 ∈ root.preorder :=
  preorder_trans m (mem_preorder_of_exported (mem_exported_of_part mp mem_exported_self))

/-- A portable tree unfolds, and what it unfolds to resembles the shared tree. -/
theorem unfolds_of_portable (p : Portable name root) (m : node ∈ root.preorder)
    (sc : Scoped seen node.preorder) (st : root.Settled identifier seen seen (sizeOf node + 1)) :
    ∃ x, Unfolds node seen x (node.share seen).2 ∧ (node.share seen).1.Resembles x := by
  induction node using partsInduction generalizing seen with
  | step node ih =>
    rcases share_cases node seen with ⟨i, mi, e, s⟩ | ⟨n, shared, g, s⟩
    · rw [s]
      exact ⟨_, .copy e mi, rfl⟩
    by_cases k : node.mayBeIdentified
    · have sc' : Scoped (node.identifier.toList ++ seen) (node.children.flatMap preorder) := by
        rw [preorder_eq] at sc
        exact sc.2
      have st' : root.Settled identifier (node.identifier.toList ++ seen)
          (node.identifier.toList ++ seen) (sizeOf node) := by
        intro i mi host mh e
        refine (st.enter p.unambiguous m i mi host mh e).imp_right fun sub => ?_
        exact List.Subset.trans sub (List.subset_append_right _ _)
      obtain ⟨nodes, us, rs⟩ := unfolds_children p (partOf_children node)
        (fun child mc => ⟨preorder_trans m (mem_preorder_of_child mc mem_preorder_self),
          sizeOf_children mc⟩)
        (p.optional node m)
        (fun part mp seen sc st => ih part mp (mem_root_of_part m mp) sc st) g sc' st'
      rw [s]
      exact ⟨_, .parted k n us, .withChildren g.length rs⟩
    · have e := p.identifier_eq_none m k
      rw [e, Option.toList_none, List.nil_append] at g
      have leaf : node.children = [] := by
        cases node <;> first | rfl | exact absurd trivial k
      rw [leaf] at g
      obtain ⟨rfl, e'⟩ := Walk.threads_nil.1 g
      rw [s, ← e']
      cases node with
      | primitive => exact ⟨_, .primitive e, congrArg (Schema.primitive _ ⟨none, ·⟩) e⟩
      | literal => exact ⟨_, .literal e, congrArg (Schema.literal _ ⟨none, ·⟩) e⟩
      | reference target =>
        rw [preorder_eq] at sc
        exact ⟨_, .reference e (sc.1 target rfl), congrArg (Schema.reference _ ⟨none, ·⟩) e⟩
      | _ => exact absurd trivial k

end TypeSchema.Schema
