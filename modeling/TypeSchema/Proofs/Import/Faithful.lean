import Mathlib.Data.List.Forall2
import Mathlib.Logic.Relation
import TypeSchema.Graph.Queries
import TypeSchema.Proofs.Import.Consistent
import TypeSchema.Proofs.Import.Shape

/-!
# Faithfulness of an import

`Describes` assigns types to the nodes of a tree: every node is what the first rule that applies to
its type prescribes, and every reference names a node of the same type. A type is counted as the
same as the only member of a union or intersection. The tree that an import gives is described so.
-/

namespace TypeSchema

namespace Importer

variable (importer : Importer)

/-- The other type is what is left of the type when unions and intersections of a single member are
taken off. -/
def Collapses : TypeId → TypeId → Prop := Relation.ReflTransGen importer.Link

/-- The types are counted as the same. -/
def Same : TypeId → TypeId → Prop := Relation.EqvGen importer.Link

/-- The identifier, if there is one, belongs to a type that is counted as the same. -/
def Names (owner : String → TypeId) (identifier : Option String) (id : TypeId) : Prop :=
  ∀ name, identifier = some name → importer.Same (owner name) id

/-- The node is the one that the type prescribes, given which type every identifier belongs to. -/
inductive Describes (owner : String → TypeId) : TypeId → Schema → Prop
  | literal {id t value identifier} :
    importer.Collapses id t →
    importer.checker.ruleFor? t = some .literal →
    importer.checker.literalValue? t = some value →
    importer.Names owner identifier id →
    Describes owner id (.literal value { identifier })
  | primitive {id t type identifier} :
    importer.Collapses id t →
    importer.checker.ruleFor? t = some .primitive →
    (importer.checker.flags t).primitive? = some type →
    importer.Names owner identifier id →
    Describes owner id (.primitive type { identifier })
  | function {id t signature overloads arguments returns identifier} :
    importer.Collapses id t →
    importer.checker.ruleFor? t = some .function →
    importer.checker.callSignatures t = signature :: overloads →
    List.Forall₂ (fun parameter : ParameterInfo => Describes owner parameter.type)
      signature.parameters arguments →
    Describes owner signature.returns returns →
    importer.Names owner identifier id →
    Describes owner id (.function
      (signature.parameters.zipWith (fun parameter => Schema.atPlace parameter.isOptional)
        arguments)
      returns { identifier })
  | tuple {id t elements nodes identifier} :
    importer.Collapses id t →
    importer.checker.ruleFor? t = some .tuple →
    importer.checker.tupleElements? t = some elements →
    List.Forall₂ (fun element : TupleElement => Describes owner element.type) elements nodes →
    importer.Names owner identifier id →
    Describes owner id (.tuple
      (elements.zipWith (fun element => Schema.atPlace element.isOptional) nodes) { identifier })
  | array {id t element node identifier} :
    importer.Collapses id t →
    importer.checker.ruleFor? t = some .array →
    importer.checker.arrayElement? t = some element →
    Describes owner element node →
    importer.Names owner identifier id →
    Describes owner id (.array node { identifier })
  | composite {id t nodes identifier} {connective : Connective} :
    importer.Collapses id t →
    importer.checker.ruleFor? t = some connective.rule →
    2 ≤ (importer.checker.constituents t).length →
    List.Forall₂ (Describes owner) (importer.checker.constituents t) nodes →
    importer.Names owner identifier id →
    Describes owner id (.composite connective nodes { identifier })
  | record {id t signature key value identifier} :
    importer.Collapses id t →
    importer.checker.ruleFor? t = some .record →
    importer.checker.indexSignatures t = [signature] →
    Describes owner signature.key key →
    Describes owner signature.value value →
    importer.Names owner identifier id →
    Describes owner id (.record key value { identifier })
  | object {id t nodes identifier} :
    importer.Collapses id t →
    importer.checker.ruleFor? t = some .object →
    importer.checker.indexSignatures t = [] →
    List.Forall₂ (fun property : PropertyInfo => Describes owner property.type)
      (importer.checker.properties t) nodes →
    importer.Names owner identifier id →
    Describes owner id (.object
      ((importer.checker.properties t).zipWith PropertyInfo.node nodes) { identifier })
  /-- An object with index signatures is the intersection of its properties, if it has any, and of
  one record for every index signature. -/
  | indexed {id t nodes keys values identifier} :
    importer.Collapses id t →
    importer.checker.ruleFor? t = some .object →
    importer.checker.indexSignatures t ≠ [] →
    List.Forall₂ (fun property : PropertyInfo => Describes owner property.type)
      (importer.checker.properties t) nodes →
    List.Forall₂ (fun signature : IndexSignature => Describes owner signature.key)
      (importer.checker.indexSignatures t) keys →
    List.Forall₂ (fun signature : IndexSignature => Describes owner signature.value)
      (importer.checker.indexSignatures t) values →
    importer.Names owner identifier id →
    Describes owner id (.composite .intersection
      ((if importer.checker.properties t = [] then []
        else [.object ((importer.checker.properties t).zipWith PropertyInfo.node nodes) {}]) ++
        keys.zipWith Schema.recordOf values) { identifier })
  /-- A reference stands for the type that its target belongs to. -/
  | reference {id target identifier} :
    importer.Same (owner target) id →
    importer.Names owner identifier id →
    Describes owner id (.reference target { identifier })

variable {importer}

section

variable {owner : String → TypeId} {id m : TypeId} {node : Schema} {identifier : Option String}

lemma Same.of_link (h : importer.Link id m) : importer.Same m id :=
  .symm _ _ (.rel _ _ h)

lemma Names.link (h : importer.Link id m) (n : importer.Names owner identifier m) :
    importer.Names owner identifier id :=
  fun name e => (n name e).trans _ _ _ (Same.of_link h)

/-- What a type prescribes, a union or intersection of it alone prescribes too. -/
lemma Describes.link (h : importer.Link id m) (d : importer.Describes owner m node) :
    importer.Describes owner id node := by
  cases d with
  | literal c r v n => exact .literal (.head h c) r v (n.link h)
  | primitive c r v n => exact .primitive (.head h c) r v (n.link h)
  | function c r v a t n => exact .function (.head h c) r v a t (n.link h)
  | tuple c r v a n => exact .tuple (.head h c) r v a (n.link h)
  | array c r v a n => exact .array (.head h c) r v a (n.link h)
  | composite c r v a n => exact .composite (.head h c) r v a (n.link h)
  | record c r v k a n => exact .record (.head h c) r v k a (n.link h)
  | object c r v a n => exact .object (.head h c) r v a (n.link h)
  | indexed c r v a k b n => exact .indexed (.head h c) r v a k b (n.link h)
  | reference s n => exact .reference (s.trans _ _ _ (Same.of_link h)) (n.link h)

/-- A node may be given an identifier that belongs to its type. -/
lemma Describes.under (d : importer.Describes owner id node)
    (n : importer.Names owner identifier id) :
    importer.Describes owner id (node.under identifier) := by
  cases identifier with
  | none => exact d
  | some name =>
    cases d with
    | literal c r v _ => exact .literal c r v n
    | primitive c r v _ => exact .primitive c r v n
    | function c r v a t _ => exact .function c r v a t n
    | tuple c r v a _ => exact .tuple c r v a n
    | array c r v a _ => exact .array c r v a n
    | composite c r v a _ => exact .composite c r v a n
    | record c r v k a _ => exact .record c r v k a n
    | object c r v a _ => exact .object c r v a n
    | indexed c r v a k b _ => exact .indexed c r v a k b n
    | reference s _ => exact .reference s n

lemma names_none : importer.Names owner none id := by
  intro name e
  cases e

/-- Pairs that are described in turn are described as keys and as values. -/
lemma forall₂_entries {R : TypeId → Schema → Prop} {signatures : List IndexSignature}
    {entries : List (Schema × Schema)} (l : entries.length = signatures.length)
    (d : List.Forall₂ R
      (signatures.flatMap fun signature => [signature.key, signature.value])
      (entries.flatMap fun entry => [entry.1, entry.2])) :
    List.Forall₂ (fun signature : IndexSignature => R signature.key) signatures
        (entries.map (·.1)) ∧
      List.Forall₂ (fun signature : IndexSignature => R signature.value) signatures
        (entries.map (·.2)) := by
  induction signatures generalizing entries with
  | nil =>
    obtain rfl := List.length_eq_zero_iff.1 l
    exact ⟨.nil, .nil⟩
  | cons signature signatures ih =>
    cases entries with
    | nil => simp at l
    | cons entry entries =>
      cases d with
      | cons dk d =>
        cases d with
        | cons dv d =>
          obtain ⟨k, v⟩ := ih (Nat.succ.inj l) d
          exact ⟨.cons dk k, .cons dv v⟩

/-- Lists that are described together are described in their two parts. -/
lemma forall₂_append {R : TypeId → Schema → Prop} {ids others : List TypeId}
    {nodes rest : List Schema} (l : nodes.length = ids.length)
    (d : List.Forall₂ R (ids ++ others) (nodes ++ rest)) :
    List.Forall₂ R ids nodes ∧ List.Forall₂ R others rest := by
  have d1 := List.forall₂_take ids.length d
  have d2 := List.forall₂_drop ids.length d
  rw [List.take_left, List.take_left' l] at d1
  rw [List.drop_left, List.drop_left' l] at d2
  exact ⟨d1, d2⟩

/-- A node built of described parts is what the type prescribes. -/
theorem Shape.describes {ids : List TypeId} {nodes : List Schema}
    (h : importer.Shape id ids nodes node)
    (d : List.Forall₂ (importer.Describes owner) ids nodes) :
    importer.Describes owner id node := by
  cases h with
  | function r c l =>
    obtain ⟨da, dr⟩ := forall₂_append (by simp [l]) d
    cases dr with
    | cons dr _ => exact .function .refl r c (List.forall₂_map_left_iff.1 da) dr names_none
  | tuple r e _ => exact .tuple .refl r e (List.forall₂_map_left_iff.1 d) names_none
  | array r e =>
    cases d with
    | cons d _ => exact .array .refl r e d names_none
  | single k =>
    cases d with
    | cons d _ => exact d.link k
  | composite r two _ => exact .composite .refl r two d names_none
  | record r e =>
    cases d with
    | cons dk d =>
      cases d with
      | cons dv _ => exact .record .refl r e dk dv names_none
  | object r c _ => exact .object .refl r c (List.forall₂_map_left_iff.1 d) names_none
  | indexed r ne l le =>
    obtain ⟨dp, de⟩ := forall₂_append (by simp [l]) d
    obtain ⟨dk, dv⟩ := forall₂_entries le de
    have i := Describes.indexed .refl r ne (List.forall₂_map_left_iff.1 dp) dk dv names_none
    rw [List.zipWith_map, List.zipWith_self] at i
    exact i

end

/-! ## Imports -/

variable {id : TypeId} {s s' : ImportState} {node : Schema} {owner : String → TypeId}

/-- A type that is referred to has the identifier it is referred to by. -/
lemma assigned_refer : (importer.refer id s).2.Assigned id (importer.refer id s).1 := by
  rcases refer_cases importer id s with ⟨h, e⟩ | ⟨-, t, -, e⟩
  · rw [e]
    exact .inr h
  · rw [e]
    right
    simp

/-- A type has the identifier that it is completed under. -/
lemma assigned_complete {identifier : String} :
    (s.complete id (some identifier)).Assigned id identifier :=
  .inl List.mem_cons_self

/-- The node of an import is what its type prescribes, if every identifier that a type has in the
end belongs to that type. -/
theorem Imports.describes (h : importer.Imports id s node s') (c : s.Consistent)
    (o : ∀ j i, s'.Assigned j i → importer.Same (owner i) j) :
    importer.Describes owner id node := by
  induction h using Imports.induct with
  | leaf l =>
    cases l with
    | literal r v => exact .literal .refl r v names_none
    | primitive r v => exact .primitive .refl r v names_none
  | named _ e _ => exact .reference (o _ _ (.inl (mem_of_lookup e))) names_none
  | cycle _ _ _ _ => exact .reference (o _ _ assigned_refer) names_none
  | @entered id s guard ids nodes inside guard' identifier s' _ n e p all l f ih =>
    obtain ⟨ci, x⟩ := threads_consistent all (c.begin n e)
    obtain ⟨-, -, -, -, forth, -⟩ :=
      complete_of_conclude ci (x.visiting.trans (visiting_begin e)) l f
    have parts := ih.forall₂ .refl (fun _ _ _ => .trans) (fun _ _ _ _ ⟨h, _⟩ c => h.consistent c)
      (c.begin n e)
    have d : List.Forall₂ (importer.Describes owner) ids nodes := by
      apply parts.imp
      rintro part node ⟨t, t', ⟨h, hd⟩, ct, -, x'⟩
      exact hd ct fun j i a => o j i (forth j i (x'.assigned j i a))
    have names : importer.Names owner identifier id := by
      rintro i rfl
      exact o id i assigned_complete
    exact ((shape_build p all.length).describes d).under names

/-! ## Identifiers -/

/-- What a node carries under an identifier is that identifier and what its children carry. -/
lemma identifiers_under {identifier : String} :
    (node.under (some identifier)).identifiers =
      identifier :: node.children.flatMap Schema.identifiers := by
  unfold Schema.under
  rw [Schema.identifiers_eq_collect, Schema.collect_eq, Schema.identifier_withIdentifier]
  unfold Schema.withIdentifier
  rw [Schema.children_withInfo]
  rfl

/-- What the children of a node carry, the node carries. -/
lemma children_identifiers_sublist :
    List.Sublist (node.children.flatMap Schema.identifiers) node.identifiers := by
  rw [Schema.identifiers_eq_collect, Schema.collect_eq]
  exact List.sublist_append_right _ _

/-- The identifiers of a built node are those of the nodes it is built of. -/
lemma Shape.identifiers {ids : List TypeId} {nodes : List Schema}
    (h : importer.Shape id ids nodes node) :
    node.identifiers = nodes.flatMap Schema.identifiers :=
  h.collect Schema.mark_identifier

/-- An import carries different identifiers, each of a type that it completes. -/
def CarriesNew (identifiers : List String) (s s' : ImportState) : Prop :=
  ∃ new, s'.named = new ++ s.named ∧ identifiers.Nodup ∧ ∀ i ∈ identifiers, i ∈ new.map (·.2)

/-- Two imports one after the other carry different identifiers. -/
lemma CarriesNew.append {t : ImportState} {is js : List String} (c : t.Consistent)
    (h : CarriesNew is s s') (h' : CarriesNew js s' t) : CarriesNew (is ++ js) s t := by
  obtain ⟨new, e, n, m⟩ := h
  obtain ⟨new', e', n', m'⟩ := h'
  have d := c.distinct
  rw [e', e, ← List.append_assoc, List.map_append, List.map_append] at d
  have d' := (List.nodup_append.1 (List.nodup_append.1 d).1).2.2
  refine ⟨new' ++ new, by rw [e', e, List.append_assoc], ?_, ?_⟩
  · refine List.nodup_append.2 ⟨n, n', ?_⟩
    rintro i hi j hj rfl
    exact d' i (m' i hj) i (m i hi) rfl
  · intro i hi
    rw [List.map_append, List.mem_append]
    cases List.mem_append.1 hi with
    | inl hi => exact .inr (m i hi)
    | inr hi => exact .inl (m' i hi)

/-- Imports one after the other carry different identifiers. -/
lemma carriesNew_of_threads {R : TypeId → ImportState → Schema → ImportState → Prop}
    {ids : List TypeId} {nodes : List Schema} (h : Walk.Threads R ids s nodes s')
    (step : ∀ id s node s', R id s node s' → importer.Imports id s node s' ∧
      (s.Consistent → CarriesNew node.identifiers s s'))
    (c : s.Consistent) : CarriesNew (nodes.flatMap Schema.identifiers) s s' := by
  induction h with
  | nil => exact ⟨[], rfl, .nil, fun _ m => absurd m List.not_mem_nil⟩
  | cons r t ih =>
    obtain ⟨h, n⟩ := step _ _ _ _ r
    have c' := (h.consistent c).1
    have t' := t.imp fun _ _ _ _ r => (step _ _ _ _ r).1
    exact (n c).append (threads_consistent t' c').1 (ih c')

/-- No identifier is carried twice by the node of an import. -/
theorem Imports.carriesNew (h : importer.Imports id s node s') (c : s.Consistent) :
    CarriesNew node.identifiers s s' := by
  induction h using Imports.induct with
  | leaf l => cases l <;> exact ⟨[], rfl, .nil, fun _ m => absurd m List.not_mem_nil⟩
  | named _ _ _ => exact ⟨[], rfl, .nil, fun _ m => absurd m List.not_mem_nil⟩
  | cycle _ _ _ _ =>
    exact ⟨[], refer_named, .nil, fun _ m => absurd m List.not_mem_nil⟩
  | @entered id s guard ids nodes inside guard' identifier s' _ n e p all l f ih =>
    obtain ⟨ci, x⟩ := threads_consistent all (c.begin n e)
    obtain ⟨new, en, nodup, mem⟩ := carriesNew_of_threads ih
      (fun _ _ _ _ ⟨h, n⟩ => ⟨h, n⟩) (c.begin n e)
    obtain ⟨cf, -, named, -⟩ := complete_of_conclude ci (x.visiting.trans (visiting_begin e)) l f
    rw [en] at named
    rw [← (shape_build p all.length).identifiers] at nodup mem
    cases identifier with
    | none => exact ⟨new, named, nodup, mem⟩
    | some i =>
      have named : (s'.complete id (some i)).named = (id, i) :: (new ++ s.named) := named
      have d := cf.distinct
      rw [named, List.map_cons] at d
      have fresh := (List.nodup_cons.1 d).1
      rw [List.map_append, List.mem_append, not_or] at fresh
      have sub := @children_identifiers_sublist (importer.build id nodes)
      rw [identifiers_under]
      refine ⟨(id, i) :: new, named, List.nodup_cons.2 ⟨?_, nodup.sublist sub⟩, ?_⟩
      · exact fun m => fresh.1 (mem i (sub.subset m))
      · intro j m
        rw [List.map_cons]
        cases m with
        | head => exact List.mem_cons_self
        | tail _ m => exact List.mem_cons_of_mem _ (mem j (sub.subset m))

/--
An import is faithful to the type graph: its tree is described by the graph from the root on, no two
nodes carry one identifier, and every reference names the node that carries its target.
-/
theorem fromType_faithful {root : TypeId} (h : importer.fromType root = .ok node) :
    ∃ owner : String → TypeId, importer.Describes owner root node ∧
      node.identifiers.Nodup ∧ ∀ r ∈ node.references, r ∈ node.identifiers := by
  obtain ⟨s', i, refs⟩ := imports_of_fromType h
  obtain ⟨c, -⟩ := i.consistent consistent_start
  obtain ⟨-, -, nodup, -⟩ := i.carriesNew consistent_start
  classical
  let owner : String → TypeId := fun name =>
    if o : ∃ id, s'.Assigned id name then o.choose else default
  refine ⟨owner, i.describes consistent_start ?_, nodup, refs⟩
  intro id name a
  have o : ∃ id, s'.Assigned id name := ⟨id, a⟩
  have e : owner name = o.choose := dif_pos o
  rw [e, c.unique _ _ _ o.choose_spec a]
  exact .refl _

/-- A store with the type of linked lists of strings. -/
def linkedList : TypeStore :=
  ((TypeStore.new.object [⟨"value", .string, false, false, none⟩,
    ⟨"next", ⟨13⟩, true, false, none⟩]).2).setAliasName ⟨13⟩ "Node"

/-- The import of linked lists is faithful. -/
theorem fromType_linkedList_faithful :
    ∃ owner : String → TypeId, Describes ⟨linkedList.checker, "types.ts", {}⟩ owner ⟨13⟩
      (.object [("value", .primitive .string {}),
        ("next", .composite .union [.reference "Node" {}, .primitive .undefined {}] {})]
        { identifier := some "Node" }) ∧
      ["Node"].Nodup ∧ ∀ r ∈ ["Node"], r ∈ ["Node"] :=
  fromType_faithful (by rfl)

end Importer

end TypeSchema
