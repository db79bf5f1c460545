import TypeSchema.Proofs.Lists
import TypeSchema.Proofs.Walk
import TypeSchema.Proofs.Schema.Height
import TypeSchema.Proofs.Schema.Traversal

/-!
# Shared subtrees

In a shared tree each identified subtree stands once, where it is met first; its later copies are
references to it. `share` makes a tree into a shared one.
-/

namespace TypeSchema

/-- What is made of a node where the `seen` identifiers stand already: a reference if its own is one
of them, or else what is made of it when its identifier is seen too. -/
def NodeInfo.once (info : NodeInfo) (seen : List String)
    (make : List String → Schema × List String) : Schema × List String :=
  match info.identifier with
  | none => make seen
  | some identifier =>
    if identifier ∈ seen then (.reference identifier {}, seen) else make (identifier :: seen)

namespace Schema

mutual

/-- A tree that comes after the `seen` identifiers, shared, and the identifiers seen after it. -/
def share (seen : List String) : Schema → Schema × List String
  | primitive type info => info.once seen fun seen => (primitive type info, seen)
  | literal value info => info.once seen fun seen => (literal value info, seen)
  | object properties info => info.once seen fun seen =>
    let (properties, seen) := shareProperties seen properties
    (object properties info, seen)
  | array element info => info.once seen fun seen =>
    let (element, seen) := element.share seen
    (array element info, seen)
  | tuple elements info => info.once seen fun seen =>
    let (elements, seen) := shareList seen elements
    (tuple elements info, seen)
  | composite connective members info => info.once seen fun seen =>
    let (members, seen) := shareList seen members
    (composite connective members info, seen)
  | record key value info => info.once seen fun seen =>
    let (key, seen) := key.share seen
    let (value, seen) := value.share seen
    (record key value info, seen)
  | function arguments returns info => info.once seen fun seen =>
    let (arguments, seen) := shareList seen arguments
    let (returns, seen) := returns.share seen
    (function arguments returns info, seen)
  | reference target info => info.once seen fun seen => (reference target info, seen)

/-- A list of trees, shared one after the other. -/
def shareList (seen : List String) : List Schema → List Schema × List String
  | [] => ([], seen)
  | node :: rest =>
    let (node, seen) := node.share seen
    let (rest, seen) := shareList seen rest
    (node :: rest, seen)

/-- The values of a list of properties, shared one after the other. -/
def shareProperties (seen : List String) :
    List (String × Schema) → List (String × Schema) × List String
  | [] => ([], seen)
  | (name, node) :: rest =>
    let (node, seen) := node.share seen
    let (rest, seen) := shareProperties seen rest
    ((name, node) :: rest, seen)

end

/-- A node with other nodes in the places of its children. -/
def withChildren : Schema → List Schema → Schema
  | object properties info, nodes =>
    object (properties.zipWith (fun property node => (property.1, node)) nodes) info
  | array element info, nodes => array (nodes.headD element) info
  | tuple _ info, nodes => tuple nodes info
  | composite connective _ info, nodes => composite connective nodes info
  | record key value info, nodes => record (nodes.headD key) (nodes.tail.headD value) info
  | function _ returns info, nodes => function nodes.dropLast (nodes.getLastD returns) info
  | node, _ => node

/-- Trees are shared to the given ones, one after the other. -/
abbrev Shares : List Schema → List String → List Schema → List String → Prop :=
  Walk.Threads fun node seen shared seen' => node.share seen = (shared, seen')

variable {node : Schema} {nodes : List Schema} {seen seen' : List String}

lemma info_withChildren : (node.withChildren nodes).info = node.info := by
  cases node <;> rfl

@[simp] lemma identifier_withChildren :
    (node.withChildren nodes).identifier = node.identifier :=
  congrArg NodeInfo.identifier info_withChildren

@[simp] lemma target?_withChildren : (node.withChildren nodes).target? = node.target? := by
  cases node <;> rfl

/-- The children of a node are those it is given. -/
lemma children_withChildren (l : nodes.length = node.children.length) :
    (node.withChildren nodes).children = nodes := by
  cases node with
  | primitive => exact (List.length_eq_zero_iff.1 l).symm
  | literal => exact (List.length_eq_zero_iff.1 l).symm
  | object properties =>
    have l : nodes.length = properties.length := by simpa [children] using l
    show (properties.zipWith (fun property node => (property.1, node)) nodes).map (·.2) = nodes
    rw [List.map_zipWith]
    exact (zipWith_right l).trans (List.map_id' nodes)
  | array =>
    obtain ⟨element, rfl⟩ := List.length_eq_one_iff.1 l
    rfl
  | tuple => rfl
  | composite => rfl
  | record =>
    obtain ⟨key', value', rfl⟩ := List.length_eq_two.1 l
    rfl
  | function arguments returns =>
    have ne : nodes ≠ [] := by
      rintro rfl
      simp [children] at l
    show nodes.dropLast ++ [nodes.getLastD returns] = nodes
    rw [List.getLastD_eq_getLast?, List.getLast?_eq_some_getLast ne]
    exact List.dropLast_concat_getLast ne
  | reference => exact (List.length_eq_zero_iff.1 l).symm

lemma shares_shareList (nodes : List Schema) (seen : List String) :
    Shares nodes seen (shareList seen nodes).1 (shareList seen nodes).2 := by
  induction nodes generalizing seen with
  | nil => exact .nil
  | cons node nodes ih => exact .cons rfl (ih _)

lemma shares_shareProperties (properties : List (String × Schema)) (seen : List String) :
    ∃ shared, Shares (properties.map (·.2)) seen shared (shareProperties seen properties).2 ∧
      (shareProperties seen properties).1 =
        properties.zipWith (fun property node => (property.1, node)) shared := by
  induction properties generalizing seen with
  | nil => exact ⟨[], .nil, rfl⟩
  | cons property properties ih =>
    obtain ⟨shared, h, e⟩ := ih (property.2.share seen).2
    exact ⟨_, .cons rfl h, congrArg (_ :: ·) e⟩

/-- Lists that are shared one after the other are shared as one list. -/
lemma Shares.append {others shared shared' : List Schema} {seen'' : List String}
    (h : Shares nodes seen shared seen') (h' : Shares others seen' shared' seen'') :
    Shares (nodes ++ others) seen (shared ++ shared') seen'' := by
  induction h with
  | nil => exact h'
  | cons e _ ih => exact .cons e (ih h')

/-- What a node is made into keeps the node and shares its children. -/
lemma share_eq (node : Schema) :
    ∃ make : List String → Schema × List String,
      (∀ seen, node.share seen = node.info.once seen make) ∧
        ∀ seen, ∃ shared, Shares node.children seen shared (make seen).2 ∧
          (make seen).1 = node.withChildren shared := by
  cases node with
  | primitive => exact ⟨_, fun _ => by rw [share]; rfl, fun _ => ⟨[], .nil, rfl⟩⟩
  | literal => exact ⟨_, fun _ => by rw [share]; rfl, fun _ => ⟨[], .nil, rfl⟩⟩
  | object properties =>
    refine ⟨_, fun _ => by rw [share]; rfl, fun seen => ?_⟩
    obtain ⟨shared, h, e⟩ := shares_shareProperties properties seen
    exact ⟨shared, h, by dsimp only; rw [e]; rfl⟩
  | array =>
    refine ⟨_, fun _ => by rw [share]; rfl, fun _ => ?_⟩
    exact ⟨_, .cons rfl .nil, rfl⟩
  | tuple => exact ⟨_, fun _ => by rw [share]; rfl, fun _ => ⟨_, shares_shareList _ _, rfl⟩⟩
  | composite => exact ⟨_, fun _ => by rw [share]; rfl, fun _ => ⟨_, shares_shareList _ _, rfl⟩⟩
  | record =>
    refine ⟨_, fun _ => by rw [share]; rfl, fun _ => ?_⟩
    exact ⟨_, .cons rfl (.cons rfl .nil), rfl⟩
  | function arguments returns =>
    refine ⟨_, fun _ => by rw [share]; rfl, fun seen => ?_⟩
    refine ⟨_, (shares_shareList arguments seen).append (.cons rfl .nil), ?_⟩
    simp [withChildren]
  | reference => exact ⟨_, fun _ => by rw [share]; rfl, fun _ => ⟨[], .nil, rfl⟩⟩

/-- A node becomes a reference if its identifier is seen already. -/
lemma share_of_mem {identifier : String} (e : node.identifier = some identifier)
    (m : identifier ∈ seen) : node.share seen = (.reference identifier {}, seen) := by
  obtain ⟨make, h, -⟩ := share_eq node
  have e : node.info.identifier = some identifier := e
  rw [h, NodeInfo.once, e]
  exact if_pos m

/-- A node whose identifier is not seen yet stays, its children shared. -/
lemma share_of_not_mem (node : Schema) {seen : List String}
    (n : ∀ identifier ∈ seen, node.identifier ≠ some identifier) :
    ∃ shared, Shares node.children (node.identifier.toList ++ seen) shared (node.share seen).2 ∧
      (node.share seen).1 = node.withChildren shared := by
  obtain ⟨make, h, g⟩ := share_eq node
  have e : node.share seen = make (node.identifier.toList ++ seen) := by
    rw [h, NodeInfo.once]
    show (match node.identifier with | none => _ | some identifier => _) = _
    cases e : node.identifier with
    | none => rfl
    | some identifier => exact if_neg fun m => n identifier m e
  rw [e]
  exact g _

/-- A node becomes a reference, or stays with its children shared. -/
lemma share_cases (node : Schema) (seen : List String) :
    (∃ identifier ∈ seen, node.identifier = some identifier ∧
        node.share seen = (.reference identifier {}, seen)) ∨
      (∀ identifier ∈ seen, node.identifier ≠ some identifier) ∧
        ∃ shared, Shares node.children (node.identifier.toList ++ seen) shared (node.share seen).2 ∧
          (node.share seen).1 = node.withChildren shared := by
  by_cases h : ∃ identifier ∈ seen, node.identifier = some identifier
  · obtain ⟨identifier, m, e⟩ := h
    exact .inl ⟨identifier, m, e, share_of_mem e m⟩
  · have n : ∀ identifier ∈ seen, node.identifier ≠ some identifier :=
      fun identifier m e => h ⟨identifier, m, e⟩
    exact .inr ⟨n, share_of_not_mem node n⟩

/-- What is collected in a node with other children is read off the node and collected in them. -/
lemma collect_withChildren {α : Type} {f : Schema → Option α}
    (keeps : f (node.withChildren nodes) = f node) (l : nodes.length = node.children.length) :
    (node.withChildren nodes).collect f = (f node).toList ++ nodes.flatMap (collect f) := by
  rw [collect_eq, children_withChildren l, keeps]

/-- What is seen after trees that are shared one after the other. -/
lemma seen_of_shares {shared : List Schema}
    (ih : ∀ node ∈ nodes, ∀ seen, seen ⊆ (node.share seen).2 ∧
      (node.share seen).1.identifiers ⊆ (node.share seen).2)
    (h : Shares nodes seen shared seen') :
    seen ⊆ seen' ∧ shared.flatMap identifiers ⊆ seen' := by
  induction h with
  | nil => exact ⟨fun _ m => m, fun _ m => absurd m List.not_mem_nil⟩
  | @cons node nodes seen x seen1 xs seen' e _ ih' =>
    obtain ⟨one, two⟩ := ih node List.mem_cons_self seen
    rw [e] at one two
    obtain ⟨rest, rest'⟩ := ih' fun node m => ih node (List.mem_cons_of_mem _ m)
    refine ⟨fun _ m => rest (one m), ?_⟩
    intro i m
    rcases List.mem_append.1 m with m | m
    · exact rest (two m)
    · exact rest' m

/-- Identifiers that are seen stay so, and those of a shared tree are seen after it. -/
theorem share_seen (node : Schema) (seen : List String) :
    seen ⊆ (node.share seen).2 ∧ (node.share seen).1.identifiers ⊆ (node.share seen).2 := by
  induction node using childrenInduction generalizing seen with
  | step node ih =>
    rcases share_cases node seen with ⟨identifier, _, _, s⟩ | ⟨_, shared, h, s⟩
    · rw [s]
      exact ⟨fun _ m => m, fun _ m => absurd m List.not_mem_nil⟩
    · obtain ⟨before, inside⟩ := seen_of_shares ih h
      rw [s, identifiers_eq_collect, collect_withChildren identifier_withChildren h.length]
      refine ⟨fun _ m => before (List.mem_append_right _ m), ?_⟩
      intro i m
      rcases List.mem_append.1 m with m | m
      · exact before (List.mem_append_left _ m)
      · exact inside m

lemma anyAdmitsUndefined_eq : anyAdmitsUndefined nodes = nodes.any admitsUndefined := by
  induction nodes with
  | nil => rw [anyAdmitsUndefined]; rfl
  | cons node nodes ih => rw [anyAdmitsUndefined, ih]; rfl

/-- Only `undefined` and unions of which a member admits `undefined` do. -/
lemma admitsUndefined_eq (node : Schema) :
    node.admitsUndefined =
      (node.kind == .undefined || node.kind == .union && node.children.any admitsUndefined) := by
  cases node with
  | primitive type => cases type <;> simp [admitsUndefined, kind, Primitive.kind]
  | composite connective =>
    cases connective <;>
      simp [admitsUndefined, anyAdmitsUndefined_eq, kind, Connective.kind, children]
  | _ => simp [admitsUndefined, kind]

lemma kind_withChildren : (node.withChildren nodes).kind = node.kind := by
  cases node <;> rfl

/-- A shared tree admits `undefined` only if the tree does. -/
lemma admitsUndefined_of_share (seen : List String)
    (h : (node.share seen).1.admitsUndefined = true) :
    node.admitsUndefined = true := by
  induction node using childrenInduction generalizing seen with
  | step node ih =>
    rcases share_cases node seen with ⟨identifier, _, _, s⟩ | ⟨_, shared, g, s⟩
    · rw [s, admitsUndefined_eq] at h
      cases h
    · rw [s, admitsUndefined_eq, kind_withChildren, children_withChildren g.length] at h
      rw [admitsUndefined_eq]
      simp only [Bool.or_eq_true, Bool.and_eq_true] at h ⊢
      refine h.imp_right (And.imp_right ?_)
      intro a
      obtain ⟨x, mx, a⟩ := List.any_eq_true.1 a
      obtain ⟨child, mc, t, t', e⟩ := g.exists_of_mem x mx
      refine List.any_eq_true.2 ⟨child, mc, ih child mc t ?_⟩
      rw [e]
      exact a

/-! ## Nothing is lost -/

/-- Nodes of a tree that carry one identifier are equal. -/
def Unambiguous (root : Schema) : Prop :=
  ∀ a ∈ root.preorder, ∀ b ∈ root.preorder,
    a.identifier ≠ none → a.identifier = b.identifier → a = b

section

variable {α : Type} {f : Schema → Option α} {root : Schema} {told : List α} {size : Nat}

/-- What is collected in the subtrees of the seen identifiers is told, except for the subtrees of at
least the given size: a walk may still be inside of those. -/
def Settled (root : Schema) (f : Schema → Option α) (seen : List String) (told : List α)
    (size : Nat) : Prop :=
  ∀ identifier ∈ seen, ∀ host ∈ root.preorder, host.identifier = some identifier →
    size ≤ sizeOf host ∨ host.collect f ⊆ told

/-- Inside of a node its own subtree need not be settled. -/
lemma Settled.enter (u : root.Unambiguous) (m : node ∈ root.preorder)
    (h : root.Settled f seen told (sizeOf node + 1)) :
    root.Settled f (node.identifier.toList ++ seen) told (sizeOf node) := by
  intro i mi host mh e
  rcases List.mem_append.1 mi with mi | mi
  · have e' : node.identifier = some i := Option.mem_toList.1 mi
    obtain rfl := u node m host mh (by simp [e']) (e'.trans e.symm)
    exact .inl (Nat.le_refl _)
  · exact (h i mi host mh e).imp_left Nat.le_of_succ_le

/-- Smaller trees leave less open. -/
lemma Settled.mono {size' : Nat} (h : root.Settled f seen told size) (l : size' ≤ size) :
    root.Settled f seen told size' :=
  fun i mi host mh e => (h i mi host mh e).imp_left (Nat.le_trans l)

/-- What is settled by a tree beside those that come before it. -/
def Settles (root : Schema) (f : Schema → Option α) (seen : List String) (told : List α)
    (seen' : List String) : Prop :=
  ∀ identifier ∈ seen', identifier ∈ seen ∨
    ∀ host ∈ root.preorder, host.identifier = some identifier → host.collect f ⊆ told

/-- What is settled already and what is settled anew is settled together. -/
lemma Settled.settles {told' : List α} (h : root.Settled f seen told size) (l : told ⊆ told')
    (n : root.Settles f seen told' seen') : root.Settled f seen' told' size := by
  intro i mi host mh e
  rcases n i mi with mi | all
  · exact (h i mi host mh e).imp_right fun c => List.Subset.trans c l
  · exact .inr (all host mh e)

/-- Trees that are shared one after the other lose nothing if none of them does. -/
lemma collect_shares {shared : List Schema} {told : List α}
    (ih : ∀ node ∈ nodes, ∀ (seen : List String) (told : List α),
      root.Settled f seen told size →
        node.collect f ⊆ told ++ (node.share seen).1.collect f ∧
          root.Settles f seen (told ++ (node.share seen).1.collect f) (node.share seen).2)
    (h : Shares nodes seen shared seen') (st : root.Settled f seen told size) :
    nodes.flatMap (collect f) ⊆ told ++ shared.flatMap (collect f) ∧
      root.Settles f seen (told ++ shared.flatMap (collect f)) seen' := by
  induction h generalizing told with
  | nil => exact ⟨fun _ m => absurd m List.not_mem_nil, fun _ m => .inl m⟩
  | @cons node nodes seen x seen1 xs seen' e _ ih' =>
    obtain ⟨kept, settles⟩ := ih node List.mem_cons_self seen told st
    rw [e] at kept settles
    obtain ⟨kept', settles'⟩ := ih' (fun node m => ih node (List.mem_cons_of_mem _ m))
      (st.settles (List.subset_append_left _ _) settles)
    rw [List.append_assoc] at kept' settles'
    have grow : told ++ x.collect f ⊆ told ++ (x.collect f ++ xs.flatMap (collect f)) := by
      rw [← List.append_assoc]
      exact List.subset_append_left _ _
    refine ⟨?_, ?_⟩
    · rw [List.flatMap_cons, List.flatMap_cons]
      exact List.append_subset.2 ⟨List.Subset.trans kept grow, kept'⟩
    · intro i mi
      rw [List.flatMap_cons]
      rcases settles' i mi with mi | all
      · refine (settles i mi).imp_right fun all host mh e => ?_
        exact List.Subset.trans (all host mh e) grow
      · exact .inr all

/-- Sharing a tree loses nothing: what is left out of it stands in the first copy. -/
theorem collect_share (u : root.Unambiguous)
    (keeps : ∀ node nodes, f (withChildren node nodes) = f node) (node : Schema)
    (m : node ∈ root.preorder) (seen : List String) (told : List α)
    (h : root.Settled f seen told (sizeOf node + 1)) :
    node.collect f ⊆ told ++ (node.share seen).1.collect f ∧
      root.Settles f seen (told ++ (node.share seen).1.collect f) (node.share seen).2 := by
  induction node using childrenInduction generalizing seen told with
  | step node ih =>
    rcases share_cases node seen with ⟨identifier, mi, e, s⟩ | ⟨_, shared, g, s⟩
    -- A node that stood before is a reference now, and what it holds was told there.
    · rw [s]
      refine ⟨?_, fun _ m => .inl m⟩
      rcases h identifier mi node m e with l | l
      · exact absurd l (Nat.not_succ_le_self _)
      · exact List.Subset.trans l (List.subset_append_left _ _)
    · have inner : ∀ child ∈ node.children, ∀ (seen : List String) (told : List α),
          root.Settled f seen told (sizeOf node) →
            child.collect f ⊆ told ++ (child.share seen).1.collect f ∧
              root.Settles f seen (told ++ (child.share seen).1.collect f) (child.share seen).2 :=
        fun child mc seen told st =>
          ih child mc (preorder_trans m (mem_preorder_of_child mc mem_preorder_self)) seen told
            (st.mono (sizeOf_children mc))
      obtain ⟨kept, settles⟩ := collect_shares inner g (h.enter u m)
      have grow : told ++ shared.flatMap (collect f) ⊆
          told ++ ((f node).toList ++ shared.flatMap (collect f)) :=
        List.append_subset.2 ⟨List.subset_append_left _ _,
          List.Subset.trans (List.subset_append_right _ _) (List.subset_append_right _ _)⟩
      have self : node.collect f ⊆ told ++ ((f node).toList ++ shared.flatMap (collect f)) := by
        rw [collect_eq]
        exact List.append_subset.2 ⟨List.Subset.trans (List.subset_append_left _ _)
          (List.subset_append_right _ _), List.Subset.trans kept grow⟩
      rw [s, collect_withChildren (keeps _ _) g.length]
      refine ⟨self, ?_⟩
      intro i mi
      rcases settles i mi with mi | all
      · rcases List.mem_append.1 mi with mi | mi
        · right
          intro host mh e
          have e' : node.identifier = some i := Option.mem_toList.1 mi
          obtain rfl := u node m host mh (by simp [e']) (e'.trans e.symm)
          exact self
        · exact .inl mi
      · exact .inr fun host mh e => List.Subset.trans (all host mh e) grow

end

/-! ## References -/

/-- The references of a shared tree are references of the tree, or stand for copies. -/
lemma references_share (node : Schema) (seen : List String) :
    (node.share seen).1.references ⊆ node.references ++ node.identifiers := by
  induction node using childrenInduction generalizing seen with
  | step node ih =>
    rcases share_cases node seen with ⟨identifier, _, e, s⟩ | ⟨_, shared, g, s⟩
    · rw [s]
      intro target m
      obtain rfl := List.mem_singleton.1 m
      exact List.mem_append_right _ (mem_identifiers mem_preorder_self e)
    · rw [s, references_eq_collect, collect_withChildren target?_withChildren g.length,
        references_eq_collect, identifiers_eq_collect, collect_eq, @collect_eq _ identifier]
      intro target m
      rcases List.mem_append.1 m with m | m
      · exact List.mem_append_left _ (List.mem_append_left _ m)
      · obtain ⟨x, mx, m⟩ := List.mem_flatMap.1 m
        obtain ⟨child, mc, t, t', e⟩ := g.exists_of_mem x mx
        have m' := ih child mc t (by rw [e]; exact m)
        rcases List.mem_append.1 m' with m' | m'
        · exact List.mem_append_left _
            (List.mem_append_right _ (List.mem_flatMap.2 ⟨child, mc, m'⟩))
        · exact List.mem_append_right _
            (List.mem_append_right _ (List.mem_flatMap.2 ⟨child, mc, m'⟩))

/-- What a tree refers to is referred to in the shared tree. -/
lemma references_subset_share {root : Schema} (u : root.Unambiguous) :
    root.references ⊆ (root.share []).1.references :=
  (collect_share u (fun _ _ => target?_withChildren) root mem_preorder_self [] []
    fun _ m => absurd m List.not_mem_nil).1

/-- The identifiers of a tree are those of the shared tree. -/
lemma identifiers_subset_share {root : Schema} (u : root.Unambiguous) :
    root.identifiers ⊆ (root.share []).1.identifiers :=
  (collect_share u (fun _ _ => identifier_withChildren) root mem_preorder_self [] []
    fun _ m => absurd m List.not_mem_nil).1

/-- The shared tree refers to its root if the tree does: no copy of the root is inside of it. -/
theorem mem_references_share {root : Schema} (u : root.Unambiguous) {identifier : String}
    (e : root.identifier = some identifier) :
    identifier ∈ (root.share []).1.references ↔ identifier ∈ root.references := by
  refine ⟨fun m => ?_, fun m => references_subset_share u m⟩
  obtain ⟨shared, g, s⟩ := share_of_not_mem root fun _ m => absurd m List.not_mem_nil
  rw [s, references_eq_collect, collect_withChildren target?_withChildren g.length] at m
  rw [references_eq_collect, collect_eq]
  rcases List.mem_append.1 m with m | m
  · exact List.mem_append_left _ m
  obtain ⟨x, mx, m⟩ := List.mem_flatMap.1 m
  obtain ⟨child, mc, t, t', e'⟩ := g.exists_of_mem x mx
  have m' := references_share child t (by rw [e']; exact m)
  rcases List.mem_append.1 m' with m' | m'
  · exact List.mem_append_right _ (List.mem_flatMap.2 ⟨child, mc, m'⟩)
  · obtain ⟨host, mh, eh⟩ := List.mem_filterMap.1 m'
    have mr : host ∈ root.preorder := mem_preorder_of_child mc mh
    obtain rfl := u host mr root mem_preorder_self (by simp [eh]) (eh.trans e.symm)
    have small : sizeOf host < sizeOf host :=
      Nat.lt_of_le_of_lt (sizeOf_of_mem mh) (sizeOf_children mc)
    exact absurd small (Nat.lt_irrefl _)

end Schema

end TypeSchema
