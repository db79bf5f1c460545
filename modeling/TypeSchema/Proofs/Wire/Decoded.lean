import TypeSchema.Proofs.Json.Finite
import TypeSchema.Proofs.Schema.Equality
import TypeSchema.Proofs.Schema.Nesting

/-!
# The nodes that are read

Whatever the text, a node that is read of it is well-formed, has finite numbers and is nested no
more deeply than the reader allows.
-/

namespace TypeSchema

open Json Json.Reader

/-- The nodes that are read where `room` containers may be opened. -/
structure Schema.Decoded (room : Nat) (node : Schema) : Prop where
  wellFormed : node.WellFormed
  finite : node.Finite
  nesting_le : node.nesting ≤ room

/-- What is read of the fields of a node inside which `room` containers may still be opened. A list
or shape is one of them itself. -/
structure WireNode.Decoded (room : Nat) (fields : WireNode) : Prop where
  type : ∀ number, fields.type = some (.number number) → number.isFinite = true
  shape : ∀ shape, fields.shape = some shape → 0 < room ∧ (shape.map (·.1)).Nodup ∧
    ∀ property ∈ shape, property.2.Decoded (room - 1)
  types : ∀ nodes, fields.types = some nodes → 0 < room ∧ ∀ node ∈ nodes, node.Decoded (room - 1)
  key : ∀ node, fields.key = some node → node.Decoded room
  value : ∀ node, fields.value = some node → node.Decoded room
  arguments : ∀ nodes, fields.arguments = some nodes →
    0 < room ∧ ∀ node ∈ nodes, node.Decoded (room - 1)
  returns : ∀ node, fields.returns = some node → node.Decoded room

/-! ### The node of its fields -/

section

variable {room : Nat} {node : Schema} {fields : WireNode}

/-- A node is decoded if its children are and it is well-formed itself. -/
lemma Schema.Decoded.of_children (w : node.RootWellFormed)
    (f : ∀ number info, node = .literal (.number number) info → number.isFinite = true)
    (c : ∀ child ∈ node.children, child.WellFormed ∧ child.Finite)
    (n : node.nesting ≤ room) : node.Decoded room where
  wellFormed := forall_preorder_iff.2 ⟨w, fun child m => (c child m).1⟩
  finite := forall_preorder_iff.2 ⟨f, fun child m => (c child m).2⟩
  nesting_le := n

lemma require_eq_ok {α : Type} {field : PayloadField} {content : Option α} {a : α} :
    fields.require field content = .ok a ↔ content = some a := by
  cases content <;> simp [WireNode.require]

/-- Nodes in a list with room are nested one container less deeply than the list. -/
lemma nestingList_of_decoded {nodes : List Schema} (pos : 0 < room)
    (h : ∀ node ∈ nodes, node.Decoded (room - 1)) : Schema.nestingList nodes + 1 ≤ room := by
  have := Schema.nestingList_le_iff.2 fun node m => (h node m).nesting_le
  omega

lemma nestingProperties_of_decoded {properties : List (String × Schema)} (pos : 0 < room)
    (h : ∀ property ∈ properties, property.2.Decoded (room - 1)) :
    Schema.nestingProperties properties + 1 ≤ room := by
  have := Schema.nestingProperties_le_iff.2 fun property m => (h property m).nesting_le
  omega

lemma decoded_primitiveNode {type : Primitive} (e : fields.primitiveNode type = .ok node) :
    node.Decoded (room + 1) := by
  have made : node = .primitive type fields.info := by
    unfold WireNode.primitiveNode at e
    split at e
    · cases e
      rfl
    · split_ifs at e
      cases e
      rfl
  subst made
  exact .of_children trivial nofun nofun (Nat.le_add_left _ _)

lemma decoded_referenceNode (e : fields.referenceNode = .ok node) : node.Decoded (room + 1) := by
  obtain ⟨target, _, e⟩ := bind_eq_ok.1 e
  obtain ⟨reference, c, e⟩ := bind_eq_ok.1 e
  unfold Schema.referenceTo at c
  split_ifs at c with empty
  cases c
  cases e
  exact .of_children empty nofun nofun (Nat.le_add_left _ _)

namespace WireNode.Decoded

variable (h : fields.Decoded room)

include h

lemma compositeNode {connective : Connective} (e : fields.compositeNode connective = .ok node) :
    node.Decoded (room + 1) := by
  obtain ⟨members, r, e⟩ := bind_eq_ok.1 e
  obtain ⟨pos, all⟩ := h.types members (require_eq_ok.1 r)
  obtain ⟨composite, c, e⟩ := bind_eq_ok.1 e
  unfold Schema.compositeOf at c
  split_ifs at c with few
  cases c
  cases e
  exact .of_children (Nat.le_of_not_lt few) nofun
    (fun child m => ⟨(all child m).wellFormed, (all child m).finite⟩)
    (Nat.succ_le_succ (nestingList_of_decoded pos all))

lemma arrayNode (e : fields.arrayNode = .ok node) : node.Decoded (room + 1) := by
  obtain ⟨types, r, e⟩ := bind_eq_ok.1 e
  obtain ⟨pos, all⟩ := h.types types (require_eq_ok.1 r)
  split at e
  · rename_i element
    cases e
    have d := all element List.mem_cons_self
    have n := nestingList_of_decoded pos all
    refine .of_children trivial nofun (fun child m => ?_) ?_
    · exact ⟨(all child m).wellFormed, (all child m).finite⟩
    · have := d.nesting_le
      rw [Schema.nesting]
      omega
  · cases e

/-- Fields that are read make a node that could be written. -/
theorem toSchema (e : fields.toSchema = .ok node) : node.Decoded (room + 1) := by
  unfold WireNode.toSchema at e
  split at e
  · cases e
  unfold payloadNode at e
  split at e
  iterate 5 exact decoded_primitiveNode e
  · obtain ⟨value, r, e⟩ := bind_eq_ok.1 e
    cases e
    refine .of_children trivial ?_ (fun _ m => absurd m List.not_mem_nil) (Nat.le_add_left _ _)
    intro number info e
    cases e
    exact h.type number (require_eq_ok.1 r)
  · obtain ⟨shape, r, e⟩ := bind_eq_ok.1 e
    cases e
    obtain ⟨pos, distinct, all⟩ := h.shape shape (require_eq_ok.1 r)
    refine .of_children distinct (fun _ _ e => by cases e) ?_
      (Nat.succ_le_succ (nestingProperties_of_decoded pos all))
    intro child m
    obtain ⟨property, mp, rfl⟩ := List.mem_map.1 m
    exact ⟨(all property mp).wellFormed, (all property mp).finite⟩
  · exact h.arrayNode e
  · obtain ⟨elements, r, e⟩ := bind_eq_ok.1 e
    cases e
    obtain ⟨pos, all⟩ := h.types elements (require_eq_ok.1 r)
    exact .of_children trivial (fun _ _ e => by cases e)
      (fun child m => ⟨(all child m).wellFormed, (all child m).finite⟩)
      (Nat.succ_le_succ (nestingList_of_decoded pos all))
  · exact h.compositeNode e
  · exact h.compositeNode e
  · obtain ⟨key, rk, e⟩ := bind_eq_ok.1 e
    obtain ⟨value, rv, e⟩ := bind_eq_ok.1 e
    cases e
    have dk := h.key key (require_eq_ok.1 rk)
    have dv := h.value value (require_eq_ok.1 rv)
    refine .of_children trivial (fun _ _ e => by cases e) ?_
      (Nat.succ_le_succ (Nat.max_le.2 ⟨dk.nesting_le, dv.nesting_le⟩))
    intro child m
    obtain rfl | rfl : child = key ∨ child = value := by simpa [Schema.children] using m
    · exact ⟨dk.wellFormed, dk.finite⟩
    · exact ⟨dv.wellFormed, dv.finite⟩
  · obtain ⟨arguments, ra, e⟩ := bind_eq_ok.1 e
    obtain ⟨returns, rr, e⟩ := bind_eq_ok.1 e
    cases e
    obtain ⟨pos, all⟩ := h.arguments arguments (require_eq_ok.1 ra)
    have dr := h.returns returns (require_eq_ok.1 rr)
    refine .of_children trivial (fun _ _ e => by cases e) ?_
      (Nat.succ_le_succ (Nat.max_le.2 ⟨nestingList_of_decoded pos all, dr.nesting_le⟩))
    intro child m
    cases List.mem_append.1 m with
    | inl m => exact ⟨(all child m).wellFormed, (all child m).finite⟩
    | inr m =>
      cases List.mem_singleton.1 m
      exact ⟨dr.wellFormed, dr.finite⟩
  · exact decoded_referenceNode e

end WireNode.Decoded

end

/-! ### Readers of values -/

/-- A number in a head is finite. -/
def Json.Head.Finite (found : Head) : Prop :=
  ∀ numeral, found = .number numeral → numeral.toBinary64.isFinite = true

lemma yields_head : head.Yields Head.Finite := by
  rintro text found rest r numeral rfl
  obtain ⟨c, start, _, ⟨_, e⟩ | ⟨_, e⟩⟩ := reads_head_number.1 r
  · exact isFinite_numeralAfterSign e
  · exact isFinite_numeralAfterSign e

/-- A reader of values gives values with a property, whatever their heads. -/
def Json.Reader.GivesAll {α : Type} (value : Head → Reader α) (P : α → Prop) : Prop :=
  ∀ found, found.Finite → (value found).Yields P

section

variable {α : Type} {room : Nat} {value : Head → Reader α} {node : Head → Reader Schema}
  {P : α → Prop} {Q : Schema → Prop}

lemma yields_optional (h : GivesAll value P) :
    (optional value).Yields fun a => ∀ x, a = some x → P x := by
  refine yields_head.bind fun found finite => ?_
  cases found with
  | null => exact yields_pure nofun
  | _ =>
    refine (h _ finite).bind fun a ha => yields_pure ?_
    rintro x e
    cases e
    exact ha

lemma yields_nextField (h : GivesAll value P) :
    (nextField value).Yields fun a => ∀ x, a.join = some x → P x := by
  refine .after fun has => ?_
  cases has with
  | false => exact yields_pure nofun
  | true => exact (yields_optional h).bind fun a ha => yields_pure ha

lemma givesAll_literalValue : GivesAll (literalValue room) fun literal =>
    ∀ number, literal = .number number → number.isFinite = true := by
  intro found finite
  cases found with
  | boolean => exact yields_pure nofun
  | string => exact yields_pure nofun
  | number numeral =>
    refine yields_pure fun number e => ?_
    cases e
    exact finite numeral rfl
  | _ => exact .after fun _ => yields_refuse

lemma mem_insertProperty {name : String} {node : Schema} {shape : List (String × Schema)}
    {property : String × Schema} (m : property ∈ insertProperty name node shape) :
    property = (name, node) ∨ property ∈ shape := by
  induction shape with
  | nil => exact .inl (List.mem_singleton.1 m)
  | cons first shape ih =>
    rw [insertProperty] at m
    split_ifs at m with same
    · cases List.mem_cons.1 m with
      | inl e => exact .inl (same ▸ e)
      | inr m => exact .inr (List.mem_cons_of_mem _ m)
    · cases List.mem_cons.1 m with
      | inl e => exact .inr (e ▸ List.mem_cons_self)
      | inr m => exact (ih m).imp_right (List.mem_cons_of_mem _)

lemma nodup_insertProperty {name : String} {node : Schema} {shape : List (String × Schema)}
    (distinct : (shape.map (·.1)).Nodup) :
    ((insertProperty name node shape).map (·.1)).Nodup := by
  induction shape with
  | nil => exact List.nodup_singleton name
  | cons first shape ih =>
    rw [List.map_cons, List.nodup_cons] at distinct
    rw [insertProperty]
    split_ifs with same
    · rw [List.map_cons, List.nodup_cons]
      exact distinct
    · rw [List.map_cons, List.nodup_cons]
      refine ⟨fun m => ?_, ih distinct.2⟩
      obtain ⟨property, m, e⟩ := List.mem_map.1 m
      cases mem_insertProperty m with
      | inl h =>
        rw [h] at e
        exact same e.symm
      | inr m => exact distinct.1 (e ▸ List.mem_map_of_mem m)

lemma givesAll_shapeValue (h : GivesAll node Q) : GivesAll (shapeValue room node) fun shape =>
    0 < room ∧ (shape.map (·.1)).Nodup ∧ ∀ property ∈ shape, Q property.2 := by
  intro found _
  cases found with
  | object =>
    refine .nested fun pos => .imp (.objectEnd (I := fun shape : List (String × Schema) =>
      (shape.map (·.1)).Nodup ∧ ∀ property ∈ shape, Q property.2) ?_ ⟨List.nodup_nil, nofun⟩)
      fun _ kept => ⟨pos, kept⟩
    rintro name shape ⟨distinct, all⟩
    refine .after fun _ => yields_head.bind fun found finite => (h found finite).bind fun node q =>
      yields_pure ⟨nodup_insertProperty distinct, fun property m => ?_⟩
    cases mem_insertProperty m with
    | inl e => exact e ▸ q
    | inr m => exact all property m
  | _ => exact yields_refuse

lemma givesAll_nodesValue (h : GivesAll node Q) : GivesAll (nodesValue room node) fun nodes =>
    0 < room ∧ ∀ node ∈ nodes, Q node := by
  intro found _
  cases found with
  | array =>
    refine .nested fun pos => .imp (.arrayEnd ?_) fun _ all => ⟨pos, all⟩
    exact yields_head.bind h
  | _ => exact yields_refuse

end

/-! ### Readers of nodes -/

section

variable {room : Nat} {child member : Head → Reader Schema}

/-- The fields that are read so far are decoded, of whatever kind the node is. -/
def WireDraft.Decoded (room : Nat) (draft : WireDraft) : Prop :=
  ∀ kind, (draft.finishAs kind).Decoded room

lemma yields_finish {draft : WireDraft} (h : draft.Decoded room) :
    draft.finish.Yields (WireNode.Decoded room) := by
  unfold WireDraft.finish
  split
  · exact yields_pure (h _)
  · exact yields_refuse

/-- The value of a field is read behind a check that does not change the draft. -/
lemma yields_field {α β : Type} {value : Head → Reader α} {P : α → Prop} {name : String}
    {field : Option β} {put : Option α → WireDraft} (h : GivesAll value P)
    (kept : ∀ a, (∀ x, a = some x → P x) → (put a).Decoded room) :
    (do once name field; colon; return put (← optional value)).Yields (WireDraft.Decoded room) :=
  .after fun _ => .after fun _ => (yields_optional h).bind fun a ha => yields_pure (kept a ha)

variable (hc : GivesAll child (Schema.Decoded room))
  (hm : GivesAll member (Schema.Decoded (room - 1)))

include hc hm

/-- Reading a field keeps the fields decoded. -/
lemma yields_readField {name : String} {draft : WireDraft} (h : draft.Decoded room) :
    (readField room child member name draft).Yields (WireDraft.Decoded room) := by
  unfold readField
  split
  · exact .after fun _ => .after fun _ => .after fun kind => yields_pure fun kind =>
      { h kind with }
  · refine yields_field givesAll_literalValue fun a ha kind => { h kind with type := ?_ }
    intro number e
    exact ha _ e number rfl
  · exact yields_field (givesAll_shapeValue hm) fun a ha kind => { h kind with shape := ha }
  · exact yields_field (givesAll_nodesValue hm) fun a ha kind => { h kind with types := ha }
  · exact yields_field hc fun a ha kind => { h kind with key := ha }
  · exact yields_field hc fun a ha kind => { h kind with value := ha }
  · exact yields_field (givesAll_nodesValue hm) fun a ha kind => { h kind with arguments := ha }
  · exact yields_field hc fun a ha kind => { h kind with returns := ha }
  · exact yields_field (P := fun _ => True) (fun _ _ => yields_true) fun a _ kind => { h kind with }
  · exact yields_field (P := fun _ => True) (fun _ _ => yields_true) fun a _ kind => { h kind with }
  · exact yields_field (P := fun _ => True) (fun _ _ => yields_true) fun a _ kind => { h kind with }
  · exact yields_refuse

/-- The fields of a list are decoded. -/
lemma yields_listedNode : (listedNode room child member).Yields (WireNode.Decoded room) := by
  refine .after fun has => ?_
  cases has with
  | false => exact yields_refuse
  | true =>
    refine .after fun kind => (yields_nextField givesAll_literalValue).bind fun type ht => ?_
    refine (yields_nextField (givesAll_shapeValue hm)).bind fun shape hs => ?_
    refine (yields_nextField (givesAll_nodesValue hm)).bind fun types hts => ?_
    refine (yields_nextField hc).bind fun key hk => (yields_nextField hc).bind fun value hv => ?_
    refine (yields_nextField (givesAll_nodesValue hm)).bind fun arguments ha => ?_
    refine (yields_nextField hc).bind fun returns hr => ?_
    refine .after fun reference => .after fun description => .after fun identifier => ?_
    exact .after fun _ => yields_finish fun kind => {
      type := fun number e => ht _ e number rfl
      shape := hs
      types := hts
      key := hk
      value := hv
      arguments := ha
      returns := hr }

lemma givesAll_openNode : GivesAll (openNode room child member) (WireNode.Decoded room) := by
  intro found _
  have empty : ({} : WireDraft).Decoded room := fun kind =>
    ⟨nofun, nofun, nofun, nofun, nofun, nofun, nofun⟩
  cases found with
  | array => exact yields_listedNode hc hm
  | object =>
    refine Yields.bind (.objectEnd (fun name draft h => yields_readField hc hm h) empty) ?_
    exact fun draft h => yields_finish h
  | _ => exact yields_refuse

end

lemma givesAll_madeNode {room : Nat} {fields : Head → Reader WireNode}
    (h : GivesAll fields (WireNode.Decoded room)) :
    GivesAll (madeNode fields) (Schema.Decoded (room + 1)) := by
  intro found finite
  refine (h found finite).bind fun fields hf => ?_
  split
  · rename_i node e
    exact yields_pure (hf.toSchema e)
  · exact yields_refuse

/-- The nodes that are read are decoded, with the room they are read in. -/
theorem givesAll_madeNode_wireNode (room : Nat) :
    GivesAll (madeNode (wireNode room)) (Schema.Decoded room) := by
  -- children are read with less room than their node
  induction room using Nat.strong_induction_on with
  | _ room ih =>
    cases room with
    | zero =>
      intro found _
      have none : (wireNode 0 found).Yields fun _ => False := by
        cases found <;> exact yields_fail
      exact none.bind fun _ no => no.elim
    | succ room =>
      apply givesAll_madeNode
      rw [wireNode_succ]
      exact givesAll_openNode (ih room (Nat.lt_succ_self _))
        (ih (room - 1) (Nat.lt_succ_of_le (Nat.sub_le _ _)))

/-- A node that is read of a whole text is one that could be written. -/
theorem decoded_of_ofText {text : String} {node : Schema} (h : Schema.ofText text = .ok node) :
    node.Decoded Reader.maxDepth := by
  have fields : GivesAll (wireNode Reader.maxDepth) (WireNode.Decoded 126) := by
    rw [Reader.maxDepth, wireNode_succ]
    exact givesAll_openNode (givesAll_madeNode_wireNode 126) (givesAll_madeNode_wireNode 125)
  unfold Schema.ofText at h
  split at h
  · cases h
  rename_i found rest front
  split at h
  · cases h
  rename_i made
  split_ifs at h
  cases h
  exact (yields_head.bind fields _ _ _ front).toSchema made

end TypeSchema
