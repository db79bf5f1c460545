import Mathlib.Data.Finite.Defs
import Mathlib.Data.Set.Finite.List
import Mathlib.Order.WellFounded
import TypeSchema.Proofs.Import.Integrity

/-!
# Grounded references

A reference of an imported tree names a node that may be a reference itself, since a union or
intersection of a single member is imported as that member's node. Following references from node
to node ends unless such types lead back to themselves, and only then is there no node to end at.
-/

namespace TypeSchema

namespace Schema

/-- Following references from a node to the nodes of the tree that carry the targets ends at a node
that is not a reference. -/
inductive Grounds (tree : Schema) : Schema → Prop
  | node {node : Schema} :
    node.target? = none →
    Grounds tree node
  | reference {node carrier : Schema} {target : String} :
    node.target? = some target →
    carrier ∈ tree.preorder →
    carrier.identifier = some target →
    Grounds tree carrier →
    Grounds tree node

/-- References can be followed to their end from every node of the tree. -/
def Grounded (tree : Schema) : Prop := ∀ node ∈ tree.preorder, tree.Grounds node

/-- The identifier of a node, and what it refers to if it is a reference. -/
def label? (node : Schema) : Option (String × Option String) :=
  node.identifier.map (·, node.target?)

variable {tree node inner : Schema} {identifier : String}

lemma mark_label? : Mark label? where
  plain node h _ := by simp [label?, h]
  withDescription node description := by
    unfold label?
    rw [identifier_withDescription]
    unfold withDescription
    rw [target?_withInfo]

/-- The nodes that carry identifiers are collected with their identifiers. -/
lemma mem_collect_label? (m : inner ∈ tree.preorder) (e : inner.identifier = some identifier) :
    (identifier, inner.target?) ∈ tree.collect label? :=
  List.mem_filterMap.2 ⟨inner, m, by simp [label?, e]⟩

/-- Every reference of a tree is one of its nodes. -/
lemma mem_references {target : String} (m : inner ∈ tree.preorder)
    (e : inner.target? = some target) : target ∈ tree.references :=
  List.mem_filterMap.2 ⟨inner, m, e⟩

lemma target?_under {identifier : Option String} :
    (node.under identifier).target? = node.target? := by
  cases identifier with
  | none => rfl
  | some => exact target?_withInfo

/-- A node that is given an identifier is collected with it in place of an earlier one. -/
lemma mem_collect_under {identifier : Option String} {entry : String × Option String}
    (h : entry ∈ (node.under identifier).collect label?) :
    (∃ i, identifier = some i ∧ entry = (i, node.target?)) ∨ entry ∈ node.collect label? := by
  cases identifier with
  | none => exact .inr h
  | some i =>
    rw [collect_eq] at h
    rcases List.mem_append.1 h with m | m
    · have e : (node.under (some i)).label? = some (i, node.target?) := by
        unfold label?
        rw [target?_under]
        unfold under
        rw [identifier_withIdentifier]
        rfl
      rw [e] at m
      exact .inl ⟨i, rfl, List.mem_singleton.1 m⟩
    · unfold under withIdentifier at m
      rw [children_withInfo] at m
      rw [collect_eq]
      exact .inr (List.mem_append_right _ m)

end Schema

namespace Importer

open ImportState

variable {importer : Importer} {id root member : TypeId} {s s' : ImportState} {node : Schema}

/-! ## Types of a single member -/

/-- Taking off unions and intersections of a single member ends at a type that is none. -/
def Ends (importer : Importer) (id : TypeId) : Prop :=
  ∃ t, importer.Collapses id t ∧ ∀ member, ¬ importer.Link t member

/-- A type has one single member at most. -/
lemma Link.unique {other : TypeId} (h : importer.Link id member) (h' : importer.Link id other) :
    member = other := by
  obtain ⟨-, e⟩ := h
  obtain ⟨-, e'⟩ := h'
  exact (List.cons.inj (e.symm.trans e')).1

/-- A single member is a part. -/
lemma Link.edge (h : importer.Link id member) : importer.Edge id member := by
  obtain ⟨⟨connective, r⟩, e⟩ := h
  unfold Edge steps
  cases connective <;> simp [r, Connective.rule, e, compositeSteps]

/-- What a type collapses to, it reaches. -/
lemma Collapses.reaches {t : TypeId} (h : importer.Collapses id t) : importer.Reaches id t :=
  Relation.ReflTransGen.mono (fun _ _ => Link.edge) _ _ h

/-- A type that ends does not lead back to itself. -/
lemma Ends.acyclic (h : importer.Ends id) : ¬ Relation.TransGen importer.Link id id := by
  obtain ⟨t, collapses, sink⟩ := h
  intro cycle
  induction collapses using Relation.ReflTransGen.head_induction_on with
  | refl =>
    obtain ⟨member, link, -⟩ := Relation.TransGen.head'_iff.1 cycle
    exact sink member link
  | head link _ ih =>
    obtain ⟨member, link', back⟩ := Relation.TransGen.head'_iff.1 cycle
    obtain rfl := link.unique link'
    exact ih (.tail' back link)

/-- A type with another rule than those of unions and intersections has no single member. -/
lemma not_link_of_rule {rule : ImportRule} (r : importer.checker.ruleFor? id = some rule)
    (other : ∀ connective : Connective, rule ≠ connective.rule) :
    ¬ importer.Link id member := by
  rintro ⟨⟨connective, r'⟩, -⟩
  exact other connective (Option.some.inj (r.symm.trans r'))

/-- A leaf has no members. -/
lemma LeafNode.ends (l : importer.LeafNode id node) : importer.Ends id := by
  refine ⟨id, .refl, fun member => ?_⟩
  cases l with
  | literal r _ => exact not_link_of_rule r (by rintro ⟨⟩ <;> nofun)
  | primitive r _ => exact not_link_of_rule r (by rintro ⟨⟩ <;> nofun)

/-- A leaf has no parts. -/
lemma LeafNode.not_edge {part : TypeId} (l : importer.LeafNode id node) :
    ¬ importer.Edge id part := by
  unfold Edge steps
  cases l with
  | literal r _ => simp [r, refusal]
  | primitive r _ => simp [r, refusal]

/-- A type has a single member, whose node is built, or its node refers to nothing. -/
lemma Shape.link_or_plain {ids : List TypeId} {nodes : List Schema}
    (h : importer.Shape id ids nodes node) :
    (∃ member, importer.Link id member ∧ ids = [member] ∧ nodes = [node]) ∨
      ((∀ member, ¬ importer.Link id member) ∧ node.target? = none) := by
  cases h with
  | single link => exact .inl ⟨_, link, rfl, rfl⟩
  | composite _ two _ =>
    refine .inr ⟨?_, rfl⟩
    rintro member ⟨-, e⟩
    rw [e] at two
    simp at two
  | function r | tuple r | array r | record r | object r | indexed r =>
    exact .inr ⟨fun _ => not_link_of_rule r (by rintro ⟨⟩ <;> nofun), rfl⟩

/-! ## What the node of a type refers to -/

/-- The node of the type is no reference, and then the type ends; or it refers to a type that is
related to the type. -/
def Refers (importer : Importer) (R : TypeId → TypeId → Prop) (s : ImportState) (id : TypeId) :
    Option String → Prop
  | none => importer.Ends id
  | some target => ∃ b, s.Assigned b target ∧ R id b

variable {target? : Option String} {R R' : TypeId → TypeId → Prop}

lemma Refers.imp (h : importer.Refers R s id target?) (r : ∀ b, R id b → R' id b)
    (a : ∀ j i, s.Assigned j i → s'.Assigned j i) : importer.Refers R' s' id target? := by
  cases target? with
  | none => exact h
  | some target =>
    obtain ⟨b, ab, rb⟩ := h
    exact ⟨b, a b target ab, r b rb⟩

/-- What the node of a single member refers to, that of the union or intersection refers to. -/
lemma Refers.link (l : importer.Link id member)
    (h : importer.Refers importer.Collapses s member target?) :
    importer.Refers (Relation.TransGen importer.Link) s id target? := by
  cases target? with
  | none =>
    obtain ⟨t, collapses, sink⟩ := h
    exact ⟨t, .head l collapses, sink⟩
  | some target =>
    obtain ⟨b, ab, collapses⟩ := h
    exact ⟨b, ab, .head' l collapses⟩

/-- What a built node refers to is known from that of a single member. -/
lemma Shape.refers {P : TypeId → ImportState → Schema → ImportState → Prop} {ids : List TypeId}
    {nodes : List Schema} (h : importer.Shape id ids nodes node)
    (all : Walk.Threads P ids s nodes s')
    (step : ∀ part node, P part s node s' →
      importer.Refers importer.Collapses s' part node.target?) :
    importer.Refers (Relation.TransGen importer.Link) s' id node.target? := by
  rcases h.link_or_plain with ⟨member, link, rfl, rfl⟩ | ⟨sink, e⟩
  · cases all with
    | cons r rest =>
      cases rest with
      | nil => exact (step _ _ r).link link
  · rw [e]
    exact ⟨id, .refl, sink⟩

/-- The node of an import is no reference, or refers to a type that the imported one collapses
to. -/
theorem Imports.refers (h : importer.Imports id s node s') (c : s.Consistent) :
    importer.Refers importer.Collapses s' id node.target? := by
  induction h using Imports.induct with
  | leaf l =>
    have ends := l.ends
    cases l <;> exact ends
  | named _ e _ => exact ⟨_, .inl (mem_of_lookup e), .refl⟩
  | cycle _ _ _ _ => exact ⟨_, assigned_refer, .refl⟩
  | entered _ n e p all l f ih =>
    have cb := c.begin n e
    obtain ⟨ci, x⟩ := threads_consistent all cb
    obtain ⟨-, -, -, -, forth, -⟩ :=
      complete_of_conclude ci (x.visiting.trans (visiting_begin e)) l f
    rw [Schema.target?_under]
    have inside := (shape_build p all.length).refers ih fun part node ⟨_, h⟩ => h cb
    exact inside.imp (fun _ => Relation.TransGen.to_reflTransGen) forth

/-- What is collected in the nodes of parts, if it has a type and refers as said, does so when all
parts are imported. -/
lemma owned_of_threads {P : TypeId → ImportState → Schema → ImportState → Prop}
    {ids : List TypeId} {nodes : List Schema} (h : Walk.Threads P ids s nodes s')
    (step : ∀ part t node t', P part t node t' → t.Consistent →
      (t'.Consistent ∧ t.Extends t') ∧ ∀ entry ∈ node.collect Schema.label?,
        ∃ a, t'.Assigned a entry.1 ∧ importer.Reaches part a ∧
          importer.Refers (Relation.TransGen importer.Link) t' a entry.2)
    (c : s.Consistent) : ∀ entry ∈ nodes.flatMap (Schema.collect Schema.label?),
      ∃ part ∈ ids, ∃ a, s'.Assigned a entry.1 ∧ importer.Reaches part a ∧
        importer.Refers (Relation.TransGen importer.Link) s' a entry.2 := by
  have parts := h.forall₂ .refl (fun _ _ _ => .trans) (fun _ _ _ _ h c => (step _ _ _ _ h c).1) c
  intro entry m
  obtain ⟨node, mn, m⟩ := List.mem_flatMap.1 m
  obtain ⟨part, mp, t, t', h, ct, -, x'⟩ := exists_of_forall₂ parts.flip node mn
  obtain ⟨a, assigned, reached, refers⟩ := (step _ _ _ _ h ct).2 entry m
  exact ⟨part, mp, a, x'.assigned _ _ assigned, reached, refers.imp (fun _ r => r) x'.assigned⟩

/-- Every identifier of an import is that of a type which is reached, and its node refers to what
that type collapses to in one step or more. -/
theorem Imports.owned (h : importer.Imports id s node s') (c : s.Consistent) :
    ∀ entry ∈ node.collect Schema.label?, ∃ a, s'.Assigned a entry.1 ∧ importer.Reaches id a ∧
      importer.Refers (Relation.TransGen importer.Link) s' a entry.2 := by
  induction h using Imports.induct with
  | leaf l => cases l <;> exact fun _ m => absurd m List.not_mem_nil
  | named _ _ _ => exact fun _ m => absurd m List.not_mem_nil
  | cycle _ _ _ _ => exact fun _ m => absurd m List.not_mem_nil
  | entered _ n e p all l f ih =>
    have cb := c.begin n e
    obtain ⟨ci, x⟩ := threads_consistent all cb
    obtain ⟨-, -, -, -, forth, -⟩ :=
      complete_of_conclude ci (x.visiting.trans (visiting_begin e)) l f
    have shape := shape_build p all.length
    intro entry m
    -- The entry is that of the node, which is no longer entered, or it is that of a part.
    rcases Schema.mem_collect_under m with ⟨i, rfl, rfl⟩ | m
    · have inside := shape.refers all fun part node h => h.refers cb
      exact ⟨_, assigned_complete, .refl, inside.imp (fun _ r => r) forth⟩
    · rw [shape.collect Schema.mark_label?] at m
      obtain ⟨part, mp, a, assigned, reached, refers⟩ := owned_of_threads ih
        (fun _ _ _ _ ⟨h, o⟩ c => ⟨h.consistent c, o c⟩) cb entry m
      exact ⟨a, forth _ _ assigned, .head (edge_of_mem p mp) reached,
        refers.imp (fun _ r => r) forth⟩

/-! ## Types that are reached -/

/-- The import has dealt with the type: it has an identifier, or it ends and the import has dealt
with its parts. -/
inductive Settled (importer : Importer) (s : ImportState) : TypeId → Prop
  | assigned {id : TypeId} {identifier : String} :
    s.Assigned id identifier →
    Settled importer s id
  | parts {id : TypeId} :
    importer.Ends id →
    (∀ part, importer.Edge id part → Settled importer s part) →
    Settled importer s id

/-- The import has dealt with the parts of the types that are completed under an identifier. -/
def Covered (importer : Importer) (s : ImportState) : Prop :=
  ∀ id identifier, (id, identifier) ∈ s.named →
    importer.Ends id ∧ ∀ part, importer.Edge id part → importer.Settled s part

lemma Settled.mono (h : importer.Settled s id) (a : ∀ j i, s.Assigned j i → s'.Assigned j i) :
    importer.Settled s' id := by
  induction h with
  | assigned b => exact .assigned (a _ _ b)
  | parts e _ ih => exact .parts e ih

lemma Covered.mono (h : importer.Covered s) (n : s'.named = s.named)
    (a : ∀ j i, s.Assigned j i → s'.Assigned j i) : importer.Covered s' := by
  intro j i m
  rw [n] at m
  obtain ⟨e, parts⟩ := h j i m
  exact ⟨e, fun part edge => (parts part edge).mono a⟩

/-- Every type that a target of the node belongs to ends. -/
def TargetsEnd (importer : Importer) (s : ImportState) (references : List String) : Prop :=
  ∀ target ∈ references, ∀ b, s.Assigned b target → importer.Ends b

/-- What a node refers to ends, and so does its type. -/
lemma Refers.ends (h : importer.Refers importer.Collapses s id node.target?)
    (t : importer.TargetsEnd s node.references) : importer.Ends id := by
  cases e : node.target? with
  | none =>
    rw [e] at h
    exact h
  | some target =>
    rw [e] at h
    obtain ⟨b, assigned, collapses⟩ := h
    obtain ⟨t, collapses', sink⟩ := t target (Schema.mem_references Schema.mem_preorder_self e) b
      assigned
    exact ⟨t, collapses.trans collapses', sink⟩

/-- Parts that are dealt with one after the other are dealt with in the end. -/
lemma settled_of_threads {P : TypeId → ImportState → Schema → ImportState → Prop}
    {ids : List TypeId} {nodes : List Schema} (h : Walk.Threads P ids s nodes s')
    (step : ∀ part t node t', P part t node t' → t.Consistent →
      (t'.Consistent ∧ t.Extends t') ∧ (importer.TargetsEnd t' node.references →
        importer.Covered t → importer.Settled t' part ∧ importer.Covered t'))
    (c : s.Consistent) (t : importer.TargetsEnd s' (nodes.flatMap Schema.references))
    (v : importer.Covered s) :
    (∀ part ∈ ids, importer.Settled s' part) ∧ importer.Covered s' := by
  induction h with
  | nil => exact ⟨fun _ m => absurd m List.not_mem_nil, v⟩
  | cons r rest ih =>
    obtain ⟨⟨c1, -⟩, settles⟩ := step _ _ _ _ r c
    have x := (rest.preserves .refl (fun _ _ _ => .trans)
      (fun _ _ _ _ h c => (step _ _ _ _ h c).1) c1).2
    obtain ⟨first, v1⟩ := settles (fun target m b assigned =>
      t target (List.mem_append_left _ m) b (x.assigned _ _ assigned)) v
    obtain ⟨others, v'⟩ := ih c1 (fun target m => t target (List.mem_append_right _ m)) v1
    refine ⟨fun part m => ?_, v'⟩
    cases m with
    | head => exact first.mono x.assigned
    | tail _ m => exact others part m

/-- An import deals with its type, and with the parts of those that it completes, if the types that
it refers to end. -/
theorem Imports.settled (h : importer.Imports id s node s') (c : s.Consistent)
    (t : importer.TargetsEnd s' node.references) (v : importer.Covered s) :
    importer.Settled s' id ∧ importer.Covered s' := by
  induction h using Imports.induct with
  | leaf l => exact ⟨.parts l.ends fun part edge => absurd edge l.not_edge, v⟩
  | named _ e _ => exact ⟨.assigned (.inl (mem_of_lookup e)), v⟩
  | cycle n f e ne =>
    have x := ((Imports.cycle n f e ne).consistent c).2
    exact ⟨.assigned assigned_refer, v.mono refer_named x.assigned⟩
  | @entered id s guard ids nodes inside guard' identifier s' n f e p all l o ih =>
    have ends := ((Imports.entered n f e p all l o).refers c).ends t
    obtain ⟨-, fresh, -, -⟩ := WalkGuard.enter_eq_entered.1 e
    have cb := c.begin f e
    have vb : importer.Covered (s.begin guard id) :=
      v.mono rfl fun j i a => (c.assigned_begin fresh).2 a
    obtain ⟨ci, x⟩ := threads_consistent all cb
    obtain ⟨-, -, named, -, forth, -⟩ :=
      complete_of_conclude ci (x.visiting.trans (visiting_begin e)) l o
    -- What the parts refer to, the node refers to, so that it ends.
    rw [references_under, (shape_build p all.length).references] at t
    obtain ⟨parts, vi⟩ := settled_of_threads ih (fun _ _ _ _ ⟨h, o⟩ c => ⟨h.consistent c, o c⟩) cb
      (fun target m b a => t target m b (forth b target a)) vb
    have settled : ∀ part, importer.Edge id part →
        importer.Settled (s'.complete id identifier) part := by
      intro part edge
      rw [Edge, p] at edge
      obtain ⟨_, m, e⟩ := List.mem_map.1 edge
      cases e
      exact (parts part m).mono forth
    refine ⟨.parts ends settled, fun j i m => ?_⟩
    rw [named, List.mem_append] at m
    rcases m with m | m
    · obtain ⟨_, rfl, e⟩ := Option.map_eq_some_iff.1 (Option.mem_toList.1 m)
      cases e
      exact ⟨ends, settled⟩
    · obtain ⟨e, parts⟩ := vi j i m
      exact ⟨e, fun part edge => (parts part edge).mono forth⟩

/-! ## When an import is grounded -/

/-- When an import ends, the types that have identifiers are completed. -/
lemma named_of_assigned {i : String} {j : TypeId} (h : importer.Imports id importer.start node s')
    (a : s'.Assigned j i) : (j, i) ∈ s'.named := by
  obtain ⟨c, x⟩ := h.consistent consistent_start
  rcases a with a | a
  · exact a
  · have v := c.entered j i a
    rw [x.visiting] at v
    exact absurd v List.not_mem_nil

/-- A type whose identifier is carried by a node from which references can be followed to their end
ends. -/
lemma ends_of_grounds (h : importer.Imports root importer.start node s') {inner : Schema}
    (g : node.Grounds inner) (m : inner ∈ node.preorder) {i : String}
    (e : inner.identifier = some i) (a : s'.Assigned id i) : importer.Ends id := by
  obtain ⟨c, -⟩ := h.consistent consistent_start
  induction g generalizing i id with
  | node t =>
    obtain ⟨b, assigned, -, refers⟩ := h.owned consistent_start _ (Schema.mem_collect_label? m e)
    obtain rfl := c.unique _ _ _ assigned a
    rw [t] at refers
    exact refers
  | reference t mc ec _ ih =>
    obtain ⟨b, assigned, -, refers⟩ := h.owned consistent_start _ (Schema.mem_collect_label? m e)
    obtain rfl := c.unique _ _ _ assigned a
    rw [t] at refers
    obtain ⟨next, assigned', path⟩ := refers
    obtain ⟨t, collapses, sink⟩ := ih mc ec assigned'
    exact ⟨t, path.to_reflTransGen.trans collapses, sink⟩

/-- If references can be followed to their end from every node, every type that is reached ends. -/
lemma ends_of_grounded (h : importer.Imports root importer.start node s')
    (refs : ∀ r ∈ node.references, r ∈ node.identifiers) (g : node.Grounded)
    (r : importer.Reaches root id) : importer.Ends id := by
  obtain ⟨c, -⟩ := h.consistent consistent_start
  have targets : importer.TargetsEnd s' node.references := by
    intro target m b a
    obtain ⟨carrier, mc, e⟩ := List.mem_filterMap.1 (refs target m)
    exact ends_of_grounds h (g carrier mc) mc e a
  obtain ⟨settled, covered⟩ := h.settled consistent_start targets fun _ _ m =>
    absurd m List.not_mem_nil
  have all : importer.Settled s' id := by
    induction r with
    | refl => exact settled
    | tail _ edge ih =>
      cases ih with
      | assigned a => exact (covered _ _ (named_of_assigned h a)).2 _ edge
      | parts _ parts => exact parts _ edge
  cases all with
  | assigned a => exact (covered _ _ (named_of_assigned h a)).1
  | parts ends _ => exact ends

/-- Where no type that is reached leads back to itself, what holds of a type if it holds of those
that it collapses to holds of all types of a list. -/
lemma linkInduction {ids : List TypeId} {P : TypeId → Prop}
    (acyclic : ∀ id, importer.Reaches root id → ¬ Relation.TransGen importer.Link id id)
    (step : ∀ id, importer.Reaches root id →
      (∀ b ∈ ids, importer.Reaches root b → Relation.TransGen importer.Link id b → P b) → P id) :
    ∀ id ∈ ids, importer.Reaches root id → P id := by
  -- Collapsing is well-founded, as it does not return to a type and the list is finite.
  have finite : Finite {id // id ∈ ids ∧ importer.Reaches root id} :=
    (List.finite_toSet ids).subset fun _ m => m.1
  have below : WellFounded fun b a : {id // id ∈ ids ∧ importer.Reaches root id} =>
      Relation.TransGen importer.Link a.1 b.1 :=
    @Finite.wellFounded_of_trans_of_irrefl _ finite _ ⟨fun _ _ _ h h' => h'.trans h⟩
      ⟨fun a => acyclic a.1 a.2.2⟩
  have all : ∀ a : {id // id ∈ ids ∧ importer.Reaches root id}, P a.1 := by
    intro a
    induction a using below.induction with
    | _ a ih => exact step a.1 a.2.2 fun b m r path => ih ⟨b, m, r⟩ path
  exact fun id m r => all ⟨id, m, r⟩

/-- If no type that is reached leads back to itself, references can be followed to their end. -/
lemma grounded_of_acyclic (h : importer.Imports root importer.start node s')
    (refs : ∀ r ∈ node.references, r ∈ node.identifiers)
    (acyclic : ∀ id, importer.Reaches root id → ¬ Relation.TransGen importer.Link id id) :
    node.Grounded := by
  obtain ⟨c, -⟩ := h.consistent consistent_start
  have completed : ∀ {a i}, s'.Assigned a i → a ∈ s'.named.map (·.1) := fun assigned =>
    List.mem_map.2 ⟨_, named_of_assigned h assigned, rfl⟩
  -- From a node to the one it refers to, the type that has the identifier collapses.
  have carriers : ∀ a ∈ s'.named.map (·.1), importer.Reaches root a →
      ∀ inner ∈ node.preorder, ∀ i, inner.identifier = some i → s'.Assigned a i →
        node.Grounds inner := by
    refine linkInduction acyclic fun a reached ih inner m i e assigned => ?_
    obtain ⟨b, assigned', -, refers⟩ := h.owned consistent_start _ (Schema.mem_collect_label? m e)
    obtain rfl := c.unique _ _ _ assigned' assigned
    cases t : inner.target? with
    | none => exact .node t
    | some target =>
      rw [t] at refers
      obtain ⟨next, an, path⟩ := refers
      obtain ⟨carrier, mc, ec⟩ := List.mem_filterMap.1 (refs target (Schema.mem_references m t))
      have further := reached.trans (Collapses.reaches path.to_reflTransGen)
      exact .reference t mc ec (ih next (completed an) further path carrier mc target ec an)
  intro inner m
  cases t : inner.target? with
  | none => exact .node t
  | some target =>
    obtain ⟨carrier, mc, ec⟩ := List.mem_filterMap.1 (refs target (Schema.mem_references m t))
    obtain ⟨a, assigned, reached, -⟩ :=
      h.owned consistent_start _ (Schema.mem_collect_label? mc ec)
    exact .reference t mc ec (carriers a (completed assigned) reached carrier mc target ec assigned)

/--
References of an imported tree can be followed to a node that is none exactly if no type that the
root reaches is, through unions and intersections of a single member, a member of itself.
-/
theorem fromType_grounded_iff (h : importer.fromType root = .ok node) :
    node.Grounded ↔
      ∀ id, importer.Reaches root id → ¬ Relation.TransGen importer.Link id id := by
  obtain ⟨s', imports, refs⟩ := imports_of_fromType h
  constructor
  · exact fun g id r => (ends_of_grounded imports refs g r).acyclic
  · exact grounded_of_acyclic imports refs

/-- A store in which `W` is declared as `V`, an object, and a tuple that holds both. -/
def renamedObject : TypeStore :=
  let store := (TypeStore.new.object []).2.setAliasName ⟨13⟩ "V"
  let store := (store.union [⟨13⟩]).2.setAliasName ⟨14⟩ "W"
  (store.tuple [⟨⟨13⟩, false, false⟩, ⟨⟨14⟩, false, false⟩, ⟨⟨14⟩, false, false⟩]).2

/-- The importer of the store. -/
def renamedImporter : Importer := ⟨renamedObject.checker, "types.ts", {}⟩

/-- The tree of the tuple, whose third element refers to the second one, and that to the first. -/
def renamedTree : Schema :=
  .tuple [.object [] { identifier := some "V" }, .reference "V" { identifier := some "W" },
    .reference "W" {}] {}

/-- The references of the tree can be followed if its types do not lead back to themselves. -/
theorem fromType_renamedObject_grounded :
    renamedImporter.fromType ⟨15⟩ = .ok renamedTree ∧ (renamedTree.Grounded ↔
      ∀ id, renamedImporter.Reaches ⟨15⟩ id →
        ¬ Relation.TransGen renamedImporter.Link id id) :=
  ⟨by rfl, fromType_grounded_iff (by rfl)⟩

/-- A union whose only member is itself is imported as a reference to itself. -/
example :
    let store := TypeStore.new.reserve.2
    let store := (store.define ⟨13⟩ (.composite .union [⟨13⟩])).2
    fromType ⟨store.checker, "types.ts", {}⟩ ⟨13⟩ =
      .ok (.reference "Recursive1" { identifier := some "Recursive1" }) := by rfl

end Importer

end TypeSchema
