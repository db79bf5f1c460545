import Mathlib.Data.List.Pairwise
import TypeSchema.Proofs.Export.SelfContained
import TypeSchema.Proofs.Lowering.Origins
import TypeSchema.Proofs.RoundTrip.Expression
import TypeSchema.Proofs.RoundTrip.Layout
import TypeSchema.RoundTrip

/-!
# Trees whose types a store holds

Once the declarations of a tree are lowered, the store holds its types: the handle of an identifier
denotes the node that carries it, and the handle of any part of the tree stands for the node laid
out over the handles of its own parts. Nothing is asked here of how the handles are imported.
-/

namespace TypeSchema

namespace Schema

variable {root node : Schema} {name : String}

/-- Nodes are told apart by identifiers that are all different. -/
lemma unambiguous_of_nodup (n : root.identifiers.Nodup) : root.Unambiguous := by
  intro a ma b mb ne e
  obtain ⟨identifier, ea⟩ := Option.ne_none_iff_exists'.1 ne
  have pairwise := List.pairwise_filterMap.1 n
  have symmetric : Std.Symm fun a a' : Schema => ∀ i, a.identifier = some i →
      ∀ j, a'.identifier = some j → i ≠ j := ⟨fun _ _ h i e j e' => (h j e' i e).symm⟩
  by_contra apart
  exact pairwise.forall ma mb apart identifier ea identifier (e ▸ ea) rfl

/-- The declarations of identifiers of the tree have the type expressions of its nodes. -/
def DeclaresNodes (root : Schema) (declarations : List Declaration) : Prop :=
  ∀ declaration ∈ declarations, declaration.name ∈ root.identifiers →
    ∃ node ∈ root.preorder, node.identifier = some declaration.name ∧
      declaration.type = declaring.body node

/-- A tree that is exported is declared by its nodes. -/
lemma declaresNodes_of_toDeclarations {declarations : List Declaration}
    (h : root.toDeclarations {} name = .ok declarations) : root.DeclaresNodes declarations := by
  obtain ⟨-, c, hoisted, rfl, d⟩ := declares_of_toDeclarations h
  intro declaration m known
  cases m with
  | head =>
    rcases (isDeclared_iff_mem c known).1 List.mem_cons_self with e | m
    · exact ⟨root, mem_preorder_self, e, rfl⟩
    · exact absurd m (List.nodup_cons.1 (d.names_nodup c)).1
  | tail _ m =>
    obtain ⟨inner, mi, rfl⟩ := List.mem_map.1 m
    obtain ⟨me, e⟩ := d.exported inner mi
    exact ⟨inner.node, mem_preorder_of_exported me, e, rfl⟩

end Schema

open Schema

/-- The store of a state holds the types of a tree, and the importer asks this store. -/
structure Hosted (importer : Importer) (s : LowerState) (root : Schema) : Prop where
  checker : importer.checker = s.store.checker
  regular : s.store.Regular
  wellFormed : root.WellFormed
  references : ∀ target ∈ root.references, target ∈ root.identifiers
  /-- The handle of an identifier denotes the node that carries it. -/
  denotes : ∀ node ∈ root.preorder, ∀ identifier id, node.identifier = some identifier →
    s.resolved.lookup identifier = some id → s.Denotes (declaring.body node) id
  /-- A type with an identifier of the tree is a leaf, or has an alias name. -/
  named : ∀ identifier ∈ root.identifiers, ∀ id, s.resolved.lookup identifier = some id →
    importer.importLeaf? id (importer.checker.flags id) = none → importer.aliasName? id ≠ none

/-- What denotes an expression with a structure of its own is data over the handles of its parts. -/
lemma LowerState.Denotes.exists_hasShape {s : LowerState} {type : TypeExpr} {id : TypeId}
    (d : s.Denotes type id) (k : type.isStructural = true) :
    ∃ ids data, s.store.HasShape type ids data ∧ List.Forall₂ s.Denotes type.parts ids ∧
      s.store.lookup id = some data := by
  cases d with
  | parted shape parts found => exact ⟨_, _, shape, parts, found⟩
  | _ => cases k

/-- The types of keywords and literals are leaves. -/
lemma importLeaf?_ne_none {importer : Importer} {s : LowerState} {type : TypeExpr} {id : TypeId}
    (c : importer.checker = s.store.checker) (r : s.store.Regular) (d : s.Denotes type id)
    (k : (∃ type' : Primitive, type = .keyword type'.keyword) ∨ ∃ value, type = .literal value) :
    importer.importLeaf? id (importer.checker.flags id) ≠ none := by
  have leaf : ∃ node, importer.LeafNode id node := by
    rcases k with ⟨word, rfl⟩ | ⟨value, rfl⟩
    · cases d with
      | keyword => exact ⟨_, Importer.leafNode_primitive c r.intrinsics⟩
      | parted shape => cases shape
    · cases d with
      | literal _ found => exact ⟨_, Importer.leafNode_literal c found⟩
      | parted shape => cases shape
  obtain ⟨node, l⟩ := leaf
  exact l.importLeaf?_ne_none

namespace Hosted

variable {importer : Importer} {s : LowerState} {root node : Schema} {id : TypeId}
  {ids : List TypeId}

/-- A part is denoted as the node that it is, under a name of its own or not. -/
lemma denotes_body (h : Hosted importer s root) (m : node ∈ root.preorder)
    (d : s.Denotes (declaring.partType node) id) : s.Denotes (declaring.body node) id := by
  cases e : node.identifier with
  | none => rwa [partType_of_none e] at d
  | some identifier =>
    rw [partType_of_identifier e] at d
    exact h.denotes node m identifier id e d.resolved

/-- A part whose type is no leaf and has no alias name has a structure and no identifier. -/
lemma plain (h : Hosted importer s root) (m : node ∈ root.preorder)
    (d : s.Denotes (declaring.partType node) id)
    (n : importer.importLeaf? id (importer.checker.flags id) = none)
    (u : importer.aliasName? id = none) : node.identifier = none ∧ node.mayBeIdentified := by
  have unnamed : ∀ name ∈ root.identifiers, ¬ s.Denotes (.reference name) id :=
    fun name mn d => h.named name mn id d.resolved n u
  cases e : node.identifier with
  | some identifier =>
    rw [partType_of_identifier e] at d
    exact absurd d (unnamed identifier (mem_identifiers m e))
  | none =>
    rw [partType_of_none e, Exporter.body_eq] at d
    refine ⟨rfl, ?_⟩
    cases node with
    | primitive type =>
      exact absurd n (importLeaf?_ne_none h.checker h.regular d (.inl ⟨type, rfl⟩))
    | literal value =>
      exact absurd n (importLeaf?_ne_none h.checker h.regular d (.inr ⟨value, rfl⟩))
    | reference target =>
      have known := h.references target (List.mem_filterMap.2 ⟨_, m, rfl⟩)
      exact absurd d (unnamed target known)
    | _ => trivial

/-- A node with a structure is laid out over the handles in the data behind its own. Only a record of
given keys is not imported as a record. -/
lemma laidOut_of_hasShape {data : TypeData} (h : Hosted importer s root) (m : node ∈ root.preorder)
    (k : node.mayBeIdentified) (shape : s.store.HasShape (declaring.body node) ids data)
    (l : ids.length = node.parts.length) (found : s.store.lookup id = some data) :
    LaidOut importer node id ids ∨
      node.kind = .record ∧ ∀ nodes, (importer.build id nodes).kind = .object := by
  have assembled := TypeExpr.assemble?_of_hasShape h.regular shape
  have layout : (declaring.body node).assemble? s.store ids =
      some ((declaring.body node).layout ids) → LaidOut importer node id ids := fun e =>
    Schema.laidOut h.checker k (h.wellFormed node m) l (found.trans (assembled.symm.trans e))
  rw [Exporter.body_eq] at shape layout assembled
  cases node with
  | record key value info =>
    obtain ⟨keyId, valueId, rfl, ⟨-, rfl⟩ | ⟨names, -, rfl⟩⟩ := TypeStore.record_of_hasShape shape
    · exact .inl (layout assembled)
    · refine .inr ⟨rfl, fun nodes => ?_⟩
      have rule := TypeStore.ruleFor?_checker found TypeData.rule?_object
      have none : s.store.checker.indexSignatures id = [] := by
        simp [TypeStore.checker, TypeStore.indexSignatures, found]
      unfold Importer.build
      rw [h.checker, rule]
      dsimp only
      rw [none]
      rfl
  | object => exact .inl (layout rfl)
  | array => exact .inl (layout rfl)
  | tuple => exact .inl (layout rfl)
  | composite => exact .inl (layout rfl)
  | function => exact .inl (layout rfl)
  | _ => exact k.elim

/-- The handle of a node with a structure is laid out over the handles of its parts. -/
theorem laidOut (h : Hosted importer s root) (m : node ∈ root.preorder) (k : node.mayBeIdentified)
    (d : s.Denotes (declaring.body node) id) :
    ∃ ids, List.Forall₂ (fun part id => s.Denotes (declaring.partType part.1) id) node.parts ids ∧
      (LaidOut importer node id ids ∨
        node.kind = .record ∧ ∀ nodes, (importer.build id nodes).kind = .object) := by
  obtain ⟨ids, data, shape, denoted, found⟩ := d.exists_hasShape (isStructural_body k)
  rw [parts_body k, List.forall₂_map_left_iff] at denoted
  exact ⟨ids, denoted, h.laidOut_of_hasShape m k shape denoted.length_eq.symm found⟩

end Hosted

/-! ## Round trips -/

namespace Schema

variable {root back : Schema} {name file : String} {options : ImportOptions}
  {declarations : List Declaration} {last : Declaration} {identifier : String}

/-- A round trip exports the declarations of a tree, lowers them and imports the root's type. -/
lemma exists_of_roundTrip (h : root.roundTrip name file options = .ok back) :
    ∃ declarations ids store id, root.toDeclarations {} name = .ok declarations ∧
      lowerDeclarations .new declarations = (.ok ids, store) ∧
      ids.lookup (root.rootName name) = some id ∧
      Importer.fromType ⟨store.checker, file, options⟩ id = .ok back := by
  unfold roundTrip lowered at h
  cases exported : root.toDeclarations {} name with
  | error stop => simp [exported] at h
  | ok declarations =>
    rw [exported] at h
    dsimp only at h
    cases lowered : lowerDeclarations .new declarations with
    | mk result store =>
      rw [lowered] at h
      cases result with
      | error stop => simp at h
      | ok ids =>
        dsimp only at h
        cases found : ids.lookup (root.rootName name) with
        | none => simp [found] at h
        | some id =>
          rw [found] at h
          unfold ofLowered at h
          dsimp only at h
          split at h
          case h_1 => cases h
          case h_2 imported =>
            cases h
            exact ⟨declarations, ids, store, id, rfl, lowered, found, imported⟩

/-- The chains of identifiers end at identifiers, as the targets of references are identifiers. -/
lemma DeclaresNodes.mem_of_endsAt (declares : root.DeclaresNodes declarations)
    (references : ∀ target ∈ root.references, target ∈ root.identifiers)
    (e : Lowering.EndsAt declarations identifier last) (m : identifier ∈ root.identifiers) :
    last.name ∈ root.identifiers := by
  induction e with
  | own c _ =>
    obtain rfl := Lowering.name_of_declared? c
    exact m
  | @link identifier target declaration last c t _ ih =>
    obtain rfl := Lowering.name_of_declared? c
    obtain ⟨node, mn, -, e⟩ := declares declaration (List.mem_of_find?_eq_some c) m
    rw [Lowering.eq_named_of_aliasTarget? t, Exporter.body_eq] at e
    cases node with
    | reference =>
      cases e
      exact ih (references _ (List.mem_filterMap.2 ⟨_, mn, rfl⟩))
    | _ => cases e

end Schema

open Lowering

/-- A type with an identifier of the tree is a leaf, or has an identifier as its alias name. -/
lemma exists_aliasName? {importer : Importer} {s : LowerState} {labels : Labels} {root : Schema}
    {declarations : List Declaration} {identifier : String} {id : TypeId}
    (c : Complete declarations s labels) (checker : importer.checker = s.store.checker)
    (declares : root.DeclaresNodes declarations)
    (references : ∀ target ∈ root.references, target ∈ root.identifiers)
    (m : identifier ∈ root.identifiers) (r : s.resolved.lookup identifier = some id)
    (leaf : importer.importLeaf? id (importer.checker.flags id) = none) :
    ∃ name ∈ root.identifiers, s.store.aliasName? id = some name := by
  obtain ⟨type, means, d, bare⟩ := exists_means c.faithful c.grounded (.name r)
  cases means with
  | own n => exact absurd rfl (n _)
  | @name _ last ends =>
    have known := declares.mem_of_endsAt references ends m
    obtain ⟨node, -, -, e⟩ := declares last (List.mem_of_find?_eq_some ends.declared) known
    have structural : last.type.isStructural = true := by
      rw [e] at d bare ⊢
      by_cases k : node.mayBeIdentified
      · exact isStructural_body k
      rw [Exporter.body_eq] at d bare
      have regular := c.faithful.regular
      cases node with
      | primitive word =>
        exact absurd leaf (importLeaf?_ne_none checker regular d (.inl ⟨word, rfl⟩))
      | literal value =>
        exact absurd leaf (importLeaf?_ne_none checker regular d (.inr ⟨value, rfl⟩))
      | reference target => exact absurd rfl (bare target)
      | _ => exact absurd trivial k
    exact ⟨last.name, known, (c.labelled.named id last.name).2
      (c.labelled.known identifier id last r ends structural)⟩

/-- After a round trip the store holds the types of the tree, if its identifiers are names that tell
nodes apart. -/
theorem exists_hosted {root back : Schema} {name file : String} {options : ImportOptions}
    (w : root.WellFormed) (h : root.roundTrip name file options = .ok back)
    (n : root.identifiers.Nodup) (ne : "" ∉ root.identifiers) :
    ∃ importer s id, Hosted importer s root ∧ s.Denotes (declaring.body root) id ∧
      importer.fromType id = .ok back := by
  obtain ⟨declarations, ids, store, id, exported, lowered, found, imported⟩ := exists_of_roundTrip h
  obtain ⟨s, labels, rfl, c, handles⟩ := exists_complete lowered
  have declares := declaresNodes_of_toDeclarations exported
  obtain ⟨checked, -, hoisted, rfl, -⟩ := declares_of_toDeclarations exported
  have references := (checkIdentifiers_eq_ok_iff.1 checked).2
  have unambiguous := unambiguous_of_nodup n
  refine ⟨⟨s.store.checker, file, options⟩, s, id,
    ⟨rfl, c.faithful.regular, w, references, ?_, ?_⟩, ?_, imported⟩
  · intro node m identifier id e r
    obtain ⟨declaration, found, d, -⟩ := c.faithful.stands identifier id r List.not_mem_nil
    obtain rfl := name_of_declared? found
    obtain ⟨host, mh, eh, type⟩ := declares declaration (List.mem_of_find?_eq_some found)
      (mem_identifiers m e)
    obtain rfl := unambiguous node m host mh (by simp [e]) (e.trans eh.symm)
    rwa [type] at d
  · intro identifier m id r leaf
    obtain ⟨name, known, e⟩ := exists_aliasName? c rfl declares references m r leaf
    have named : name ≠ "" := fun empty => ne (empty ▸ known)
    show (s.store.aliasName? id).filter _ ≠ none
    rw [e]
    simp [named]
  · obtain ⟨id', found', r⟩ := handles _ List.mem_cons_self
    obtain rfl := Option.some.inj (found.symm.trans found')
    obtain ⟨declaration, found, d, -⟩ := c.faithful.stands _ id r List.not_mem_nil
    unfold declared? at found
    rw [List.find?_cons_of_pos (by simp)] at found
    obtain rfl := Option.some.inj found
    exact d

end TypeSchema
