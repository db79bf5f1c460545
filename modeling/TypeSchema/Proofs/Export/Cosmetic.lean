import TypeSchema.Export.Identifiers
import TypeSchema.Proofs.Export.Mapped
import TypeSchema.Proofs.Export.Queue
import TypeSchema.Proofs.Schema.Equality
import TypeSchema.Proofs.Schema.Resemblance

/-!
# Descriptions in an export

Descriptions become the documentation of properties and have no other part in what is exported: a
tree without them is exported as the tree is, but for the documentation. They take part in the check
that precedes an export, though, which tells nodes of one identifier apart by their descriptions.
-/

namespace TypeSchema

/-! ## Documentation -/

namespace TypeExpr

mutual

/-- A type expression without the documentation of its properties. -/
def undocumented : TypeExpr → TypeExpr
  | keyword word => keyword word
  | literal value => literal value
  | object members => object (undocumentedMembers members)
  | composite connective members => composite connective (undocumentedList members)
  | array element => array element.undocumented
  | tuple members => tuple (undocumentedElements members)
  | named name arguments => named name (undocumentedList arguments)
  | function parameters returns =>
    function (undocumentedParameters parameters) returns.undocumented

/-- Type expressions without documentation. -/
def undocumentedList : List TypeExpr → List TypeExpr
  | [] => []
  | type :: rest => type.undocumented :: undocumentedList rest

/-- Properties without documentation. -/
def undocumentedMembers : List (PropertySignature TypeExpr) → List (PropertySignature TypeExpr)
  | [] => []
  | ⟨name, isOptional, type, _⟩ :: rest =>
    ⟨name, isOptional, type.undocumented, none⟩ :: undocumentedMembers rest

/-- Elements of a tuple without documentation. -/
def undocumentedElements : List (TupleMember TypeExpr) → List (TupleMember TypeExpr)
  | [] => []
  | ⟨isOptional, type⟩ :: rest => ⟨isOptional, type.undocumented⟩ :: undocumentedElements rest

/-- Parameters without documentation. -/
def undocumentedParameters : List (Parameter TypeExpr) → List (Parameter TypeExpr)
  | [] => []
  | ⟨name, isOptional, type⟩ :: rest =>
    ⟨name, isOptional, type.undocumented⟩ :: undocumentedParameters rest

end

lemma undocumentedList_eq {types : List TypeExpr} :
    undocumentedList types = types.map undocumented := by
  induction types with
  | nil => rfl
  | cons type types ih => rw [undocumentedList, ih, List.map_cons]

end TypeExpr

/-- A declaration without documentation in its type. -/
def Declaration.undocumented (declaration : Declaration) : Declaration :=
  ⟨declaration.name, declaration.type.undocumented⟩

/-! ## Trees without descriptions -/

namespace Schema

variable {node : Schema} {nodes : List Schema} {place : Place}

lemma withoutDescriptionsProperties_eq {properties : List (String × Schema)} :
    withoutDescriptionsProperties properties =
      properties.map (Prod.map id withoutDescriptions) := by
  induction properties with
  | nil => rfl
  | cons property properties ih =>
    obtain ⟨name, node⟩ := property
    rw [withoutDescriptionsProperties, ih]
    rfl

@[simp] lemma description_withoutDescriptions : node.withoutDescriptions.description = none := by
  cases node <;> rfl

/-- The type of an optional member does not depend on descriptions. -/
lemma optionalType?_withoutDescriptions :
    node.withoutDescriptions.optionalType? = node.optionalType?.map withoutDescriptions := by
  cases node with
  | composite connective members info =>
    rw [withoutDescriptions, withoutDescriptionsList_eq]
    refine optionalType?_map fun _ _ last _ => ?_
    constructor
    · rintro ⟨mark, u⟩
      cases last <;> cases u
      exact ⟨_, rfl⟩
    · rintro ⟨mark, rfl⟩
      exact ⟨_, rfl⟩
  | _ => rfl

/-- Members are split alike without descriptions. -/
lemma splitOptional_withoutDescriptions :
    node.withoutDescriptions.splitOptional = node.splitOptional.map withoutDescriptions id := by
  unfold splitOptional
  rw [identifier_withoutDescriptions, optionalType?_withoutDescriptions]
  cases node.identifier with
  | some identifier => rfl
  | none => cases node.optionalType? <;> rfl

lemma keepsSplit_withoutDescriptions : KeepsSplit withoutDescriptions nodes :=
  fun _ _ => splitOptional_withoutDescriptions

/-- The parts of a tree without descriptions are those of the tree, without descriptions. -/
lemma parts_withoutDescriptions :
    node.withoutDescriptions.parts = node.parts.map (Prod.map withoutDescriptions id) := by
  -- The node's own description, which the parts do not see, is cleared before its children's.
  have bare : (node.withDescription none).parts = node.parts := by cases node <;> rfl
  have children : (node.withDescription none).children = node.children := children_withInfo
  rw [withoutDescriptions_eq, ← children, ← bare]
  exact parts_withChildren keepsSplit_withoutDescriptions

lemma placedParts_withoutDescriptions :
    node.withoutDescriptions.placedParts place =
      (node.placedParts place).map (Prod.map id withoutDescriptions) := by
  have general : ∀ (members : List (Schema × Bool)) position,
      place.members position (members.map (Prod.map withoutDescriptions id)) =
        (place.members position members).map (Prod.map id withoutDescriptions) := by
    intro members
    induction members with
    | nil => exact fun _ => rfl
    | cons member members ih =>
      intro position
      obtain ⟨node, isSplit⟩ := member
      simp [Place.members, ih]
  unfold placedParts
  rw [parts_withoutDescriptions, general]

lemma checkLiteral_withoutDescriptions :
    node.withoutDescriptions.checkLiteral = node.checkLiteral := by
  cases node with
  | literal value => cases value <;> rfl
  | _ => rfl

end Schema

namespace Exporter

variable {exporter : Exporter} {node : Schema}

/-- Without descriptions properties have no documentation. -/
lemma undocumentedMembers_propertySignature {properties : List (String × Schema)}
    {types : List TypeExpr} :
    (properties.map (Prod.map id Schema.withoutDescriptions)).zipWith Schema.propertySignature
        (types.map .undocumented) =
      TypeExpr.undocumentedMembers (properties.zipWith Schema.propertySignature types) := by
  induction properties generalizing types with
  | nil => rfl
  | cons property properties ih =>
    cases types with
    | nil => rfl
    | cons type types =>
      simp only [List.map_cons, List.zipWith_cons_cons, ih, TypeExpr.undocumentedMembers,
        Schema.propertySignature, Prod.map_fst, Prod.map_snd, id,
        Schema.splitOptional_withoutDescriptions, Schema.description_withoutDescriptions]
      rfl

lemma undocumentedElements_tupleMember {members : List (Schema × Bool)} {types : List TypeExpr} :
    (members.map (Prod.map .withoutDescriptions id)).zipWith Schema.tupleMember
        (types.map .undocumented) =
      TypeExpr.undocumentedElements (members.zipWith Schema.tupleMember types) := by
  induction members generalizing types with
  | nil => rfl
  | cons member members ih =>
    cases types with
    | nil => rfl
    | cons type types =>
      simp only [List.map_cons, List.zipWith_cons_cons, ih, TypeExpr.undocumentedElements,
        Schema.tupleMember, Prod.map_snd, id]

lemma undocumentedParameters_parameters {members : List (Schema × Bool)} {position : Nat}
    {types : List TypeExpr} :
    exporter.parameters position (members.map (Prod.map .withoutDescriptions id))
        (types.map .undocumented) =
      TypeExpr.undocumentedParameters (exporter.parameters position members types) := by
  induction members generalizing position types with
  | nil => cases types <;> rfl
  | cons member members ih =>
    cases types with
    | nil => rfl
    | cons type types => simp [Exporter.parameters, TypeExpr.undocumentedParameters, ih]

/-- Without descriptions a node is put together without documentation. -/
lemma assemble_withoutDescriptions {types : List TypeExpr} :
    exporter.assemble node.withoutDescriptions (types.map .undocumented) =
      (exporter.assemble node types).undocumented := by
  have split : ∀ nodes : List Schema, Schema.splitTrailing (nodes.map .withoutDescriptions) =
      (Schema.splitTrailing nodes).map (Prod.map .withoutDescriptions id) :=
    fun nodes => Schema.splitTrailing_map Schema.keepsSplit_withoutDescriptions
  cases node with
  | primitive => rfl
  | literal => rfl
  | object properties =>
    rw [Schema.withoutDescriptions, Schema.withoutDescriptionsProperties_eq]
    exact congrArg TypeExpr.object undocumentedMembers_propertySignature
  | array => cases types <;> rfl
  | tuple elements =>
    rw [Schema.withoutDescriptions, Schema.withoutDescriptionsList_eq]
    simp only [assemble, split]
    exact congrArg TypeExpr.tuple undocumentedElements_tupleMember
  | composite => simp only [Schema.withoutDescriptions, assemble, TypeExpr.undocumented,
      TypeExpr.undocumentedList_eq]
  | record => simp only [Schema.withoutDescriptions, assemble, TypeExpr.undocumented,
      TypeExpr.undocumentedList_eq]
  | function arguments returns =>
    rw [Schema.withoutDescriptions, Schema.withoutDescriptionsList_eq]
    simp only [assemble, TypeExpr.undocumented, split, undocumentedParameters_parameters]
    congr 1
    rw [List.getLastD_eq_getLast?, List.getLastD_eq_getLast?, List.getLast?_map]
    cases types.getLast? <;> rfl
  | reference => rfl

end Exporter

/-- A node that waits for its declaration, without descriptions. -/
def HoistedNode.undescribed (hoisted : HoistedNode) : HoistedNode :=
  { hoisted with node := hoisted.node.withoutDescriptions }

/-- What an export remembers of a tree without descriptions. -/
def ExportState.undescribed (s : ExportState) : ExportState :=
  { s with pending := s.pending.map .undescribed }

lemma ExportState.guard_undescribed {s : ExportState} : s.undescribed.guard = s.guard := rfl

lemma ExportState.pending_undescribed {s : ExportState} :
    s.undescribed.pending = s.pending.map .undescribed := rfl

namespace Exporter

variable {exporter : Exporter} {node : Schema} {place : Place}

/-- A part of an export on a tree and the same part on the tree without descriptions. -/
abbrev Mirrors {α β : Type} (f : α → β) (walk : ExportWalk α) (walk' : ExportWalk β) : Prop :=
  Walk.Mirrors ExportState.undescribed f walk walk'

lemma mirrors_hoist {identifier : String} :
    Mirrors id (hoist identifier place node) (hoist identifier place node.withoutDescriptions) := by
  refine Walk.mirrors_modify fun s => ?_
  show (if identifier ∈ s.seen then _ else _) = _
  split
  · rfl
  · simp [ExportState.undescribed, HoistedNode.undescribed]

/-- Walks inside of a place mirror each other if they do so outside. -/
lemma mirrors_within {α β : Type} {f : α → β} {walk : ExportWalk α} {walk' : ExportWalk β}
    (m : Mirrors f walk walk') : Mirrors f (within place walk) (within place walk') := by
  intro s
  unfold Walk.run within
  rw [ExportState.guard_undescribed]
  cases s.guard.enter place with
  | mk answer guard =>
    cases answer with
    | entered =>
      dsimp only
      have e : walk'.run ({ s.undescribed with guard }) = _ := m { s with guard }
      rw [e]
      cases walk.run { s with guard } with
      | mk result inside =>
        dsimp only
        rw [ExportState.guard_undescribed]
        cases inside.guard.leave place with
        | ok guard => rfl
        | error misuse => rfl
    | _ => rfl

lemma mirrors_exportPlaced {exportPart : Place → Schema → ExportWalk TypeExpr}
    (m : Mirrors .undocumented (exportPart place node)
      (exportPart place node.withoutDescriptions)) :
    Mirrors .undocumented (exporter.exportPlaced exportPart (place, node))
      (exporter.exportPlaced exportPart (place, node.withoutDescriptions)) := by
  unfold exportPlaced
  rw [exportMember_eq, exportMember_eq]
  have e : exporter.hoisted? node.withoutDescriptions = exporter.hoisted? node := by
    unfold hoisted?
    rw [Schema.identifier_withoutDescriptions]
  rw [e]
  cases exporter.hoisted? node with
  | none => exact m
  | some identifier => exact mirrors_hoist.bind fun _ => Walk.mirrors_pure

/-- A tree without descriptions is exported as the tree is, without documentation. -/
theorem mirrors_exportNode {room : Nat} :
    Mirrors .undocumented (exporter.exportNode room place node)
      (exporter.exportNode room place node.withoutDescriptions) := by
  induction room generalizing place node with
  | zero => exact mirrors_within Walk.mirrors_fail
  | succ room ih =>
    refine mirrors_within ?_
    rw [exportStructure_eq, exportStructure_eq, Schema.checkLiteral_withoutDescriptions,
      Schema.placedParts_withoutDescriptions]
    have check : Mirrors id node.checkLiteral node.checkLiteral := by
      unfold Schema.checkLiteral
      split
      · split
        · exact Walk.mirrors_pure
        · exact Walk.mirrors_fail
      · exact Walk.mirrors_pure
    refine check.bind fun _ => ?_
    refine Walk.Mirrors.bind (.mapM fun part _ => mirrors_exportPlaced ih) fun types => ?_
    rw [assemble_withoutDescriptions]
    exact Walk.mirrors_pure

end Exporter

namespace Schema

variable {exporter : Exporter} {node : Schema} {nodes : List Schema} {options : ExportOptions}
  {name : String}

/-! ## Declarations -/

/-- The queue of a tree without descriptions is exported without documentation. -/
lemma mirrors_exportPending {count : Nat} :
    Exporter.Mirrors (List.map .undocumented) (exportPending exporter count)
      (exportPending exporter count) := by
  induction count with
  | zero => exact Walk.mirrors_pure
  | succ count ih =>
    have state : Exporter.Mirrors ExportState.undescribed Walk.get Walk.get := fun _ => rfl
    refine state.bind fun s => ?_
    rw [ExportState.pending_undescribed]
    cases s.pending with
    | nil => exact Walk.mirrors_pure
    | cons hoisted rest =>
      refine Walk.Mirrors.bind (Walk.mirrors_modify fun s => rfl) fun _ => ?_
      refine Walk.Mirrors.bind Exporter.mirrors_exportNode fun type => ?_
      refine ih.bind fun declarations => ?_
      exact Walk.mirrors_pure

lemma identifiers_withoutDescriptions : node.withoutDescriptions.identifiers = node.identifiers :=
  collect_withoutDescriptions (fun _ => identifier_withoutDescriptions) node

lemma references_withoutDescriptions : node.withoutDescriptions.references = node.references :=
  collect_withoutDescriptions (fun _ => target?_withoutDescriptions) node

/-- The declarations of a tree without descriptions are those of the tree, without documentation. -/
lemma mirrors_exportDeclarations :
    Exporter.Mirrors (List.map .undocumented) (exportDeclarations exporter name node)
      (exportDeclarations exporter name node.withoutDescriptions) := by
  have rest : Exporter.Mirrors (List.map .undocumented)
      (do
        let type ← exporter.exportRoot .root node
        let declarations ← exportPending exporter node.identifiers.length
        return ⟨name, type⟩ :: declarations : ExportWalk (List Declaration))
      (do
        let type ← exporter.exportRoot .root node.withoutDescriptions
        let declarations ← exportPending exporter node.identifiers.length
        return ⟨name, type⟩ :: declarations) := by
    refine Walk.Mirrors.bind Exporter.mirrors_exportNode fun type => ?_
    refine mirrors_exportPending.bind fun declarations => ?_
    exact Walk.mirrors_pure
  unfold exportDeclarations
  rw [identifier_withoutDescriptions, identifiers_withoutDescriptions]
  cases node.identifier with
  | none => exact rest
  | some identifier => exact Walk.Mirrors.bind (Walk.mirrors_modify fun s => rfl) fun _ => rest

/-- What comes of an export of a tree without descriptions comes of that of the tree. -/
lemma finish_of_mirrors {α β : Type} {f : α → β} {walk : ExportWalk α} {walk' : ExportWalk β}
    (m : Exporter.Mirrors f walk walk') :
    Exporter.finish (walk'.run exporter.start) =
      (Exporter.finish (walk.run exporter.start)).map f := by
  have e : walk'.run exporter.start = _ := m exporter.start
  rw [e]
  unfold Exporter.finish
  dsimp only
  rw [ExportState.guard_undescribed]
  cases (walk.run exporter.start).2.guard.close <;> rfl

/-! ## The check of identifiers -/

lemma preorder_withoutDescriptions :
    node.withoutDescriptions.preorder = node.preorder.map withoutDescriptions := by
  induction node using childrenInduction with
  | step node ih =>
    rw [preorder_eq, preorder_eq, children_withoutDescriptions, List.map_cons, List.flatMap_map,
      List.map_flatMap]
    exact congrArg _ (List.flatMap_congr ih)

variable {a b : Schema} {held : List (String × Schema)} {identifier : String}

/-- Being the same is kept when descriptions are cleared in the node. -/
def KeepsSame (a : Schema) : Prop :=
  ∀ b : Schema, a.same b = true → a.withoutDescriptions.same b.withoutDescriptions = true

lemma sameList_withoutDescriptions {as bs : List Schema} (keeps : ∀ a ∈ as, a.KeepsSame)
    (h : sameList as bs = true) :
    sameList (withoutDescriptionsList as) (withoutDescriptionsList bs) = true := by
  induction as generalizing bs with
  | nil =>
    cases bs with
    | nil => rfl
    | cons => cases h
  | cons a as ih =>
    cases bs with
    | nil => cases h
    | cons b bs =>
      simp only [sameList, withoutDescriptionsList, Bool.and_eq_true] at h ⊢
      exact ⟨keeps a List.mem_cons_self b h.1,
        ih (fun a m => keeps a (List.mem_cons_of_mem _ m)) h.2⟩

lemma sameProperties_withoutDescriptions {properties others : List (String × Schema)}
    (keeps : ∀ a ∈ properties.map (·.2), a.KeepsSame)
    (h : sameProperties properties others = true) :
    sameProperties (withoutDescriptionsProperties properties)
      (withoutDescriptionsProperties others) = true := by
  induction properties with
  | nil => rfl
  | cons property properties ih =>
    obtain ⟨name, node⟩ := property
    simp only [sameProperties, withoutDescriptionsProperties, Bool.and_eq_true] at h ⊢
    refine ⟨?_, ih (fun a m => keeps a (List.mem_cons_of_mem _ m)) h.2⟩
    rw [@withoutDescriptionsProperties_eq others, lookup_map_snd]
    cases e : others.lookup name with
    | none => simp [e] at h
    | some other =>
      simp only [e] at h
      exact keeps node List.mem_cons_self other h.1

/-- Trees that are the same are so without descriptions. -/
lemma keepsSame (a : Schema) : a.KeepsSame := by
  induction a using childrenInduction with
  | step a ih =>
    intro b h
    cases a with
    | primitive =>
      cases b with
      | primitive =>
        simp only [same, withoutDescriptions, Bool.and_eq_true, beq_iff_eq] at h ⊢
        simp [h]
      | _ => simp [same] at h
    | literal =>
      cases b with
      | literal =>
        simp only [same, withoutDescriptions, Bool.and_eq_true, beq_iff_eq] at h ⊢
        simp [h]
      | _ => simp [same] at h
    | object =>
      cases b with
      | object =>
        simp only [same, withoutDescriptions, Bool.and_eq_true, beq_iff_eq] at h ⊢
        refine ⟨⟨?_, sameProperties_withoutDescriptions ih h.1.2⟩, by simp [h]⟩
        simp [withoutDescriptionsProperties_eq, h]
      | _ => simp [same] at h
    | array =>
      cases b with
      | array =>
        simp only [same, withoutDescriptions, Bool.and_eq_true, beq_iff_eq] at h ⊢
        exact ⟨ih _ List.mem_cons_self _ h.1, by simp [h]⟩
      | _ => simp [same] at h
    | tuple =>
      cases b with
      | tuple =>
        simp only [same, withoutDescriptions, Bool.and_eq_true, beq_iff_eq] at h ⊢
        exact ⟨sameList_withoutDescriptions ih h.1, by simp [h]⟩
      | _ => simp [same] at h
    | composite =>
      cases b with
      | composite =>
        simp only [same, withoutDescriptions, Bool.and_eq_true, beq_iff_eq] at h ⊢
        exact ⟨⟨h.1.1, sameList_withoutDescriptions ih h.1.2⟩, by simp [h]⟩
      | _ => simp [same] at h
    | record key value =>
      cases b with
      | record =>
        simp only [same, withoutDescriptions, Bool.and_eq_true, beq_iff_eq] at h ⊢
        have k : key.KeepsSame := ih key (by simp [children])
        have v : value.KeepsSame := ih value (by simp [children])
        exact ⟨⟨k _ h.1.1, v _ h.1.2⟩, by simp [h]⟩
      | _ => simp [same] at h
    | function arguments returns =>
      cases b with
      | function =>
        simp only [same, withoutDescriptions, Bool.and_eq_true, beq_iff_eq] at h ⊢
        have all : ∀ a ∈ arguments, a.KeepsSame := fun a m => ih a (List.mem_append_left _ m)
        have r : returns.KeepsSame := ih returns (by simp [children])
        exact ⟨⟨sameList_withoutDescriptions all h.1.1, r _ h.1.2⟩, by simp [h]⟩
      | _ => simp [same] at h
    | reference =>
      cases b with
      | reference =>
        simp only [same, withoutDescriptions, Bool.and_eq_true, beq_iff_eq] at h ⊢
        simp [h]
      | _ => simp [same] at h

/-- Two nodes of the tree carry the identifier and differ in their descriptions alone. -/
def DifferInDescriptions (node : Schema) (identifier : String) : Prop :=
  ∃ a ∈ node.preorder, ∃ b ∈ node.preorder, a.identifier = some identifier ∧
    b.identifier = some identifier ∧ a.same b = false ∧
      a.withoutDescriptions.same b.withoutDescriptions = true

lemma firstConflict?_of_none (e : node.identifier = none) :
    firstConflict? held (node :: nodes) = firstConflict? held nodes := by
  rw [firstConflict?, e]

lemma firstConflict?_of_new (e : node.identifier = some identifier)
    (l : held.lookup identifier = none) :
    firstConflict? held (node :: nodes) = firstConflict? ((identifier, node) :: held) nodes := by
  rw [firstConflict?, e]
  simp only [l]

lemma firstConflict?_of_held {holder : Schema} (e : node.identifier = some identifier)
    (l : held.lookup identifier = some holder) :
    firstConflict? held (node :: nodes) =
      if holder.same node then firstConflict? held nodes else some identifier := by
  rw [firstConflict?, e]
  simp only [l]

/-- If descriptions matter for the first conflict, two nodes differ in them alone. -/
lemma firstConflict?_withoutDescriptions (root : Schema)
    (h : firstConflict? (held.map (Prod.map id withoutDescriptions))
      (nodes.map withoutDescriptions) ≠ firstConflict? held nodes)
    (sub : ∀ node ∈ nodes, node ∈ root.preorder)
    (known : ∀ entry ∈ held, entry.2 ∈ root.preorder ∧ entry.2.identifier = some entry.1) :
    ∃ identifier, firstConflict? held nodes = some identifier ∧
      root.DifferInDescriptions identifier := by
  induction nodes generalizing held with
  | nil => exact absurd rfl h
  | cons node rest ih =>
    have m := sub node List.mem_cons_self
    have sub : ∀ node ∈ rest, node ∈ root.preorder := fun _ m => sub _ (List.mem_cons_of_mem _ m)
    rw [List.map_cons] at h
    have stripped : node.withoutDescriptions.identifier = node.identifier :=
      identifier_withoutDescriptions
    cases i : node.identifier with
    | none =>
      rw [firstConflict?_of_none (stripped.trans i), firstConflict?_of_none i] at h
      rw [firstConflict?_of_none i]
      exact ih h sub known
    | some identifier =>
      have l : (held.map (Prod.map id withoutDescriptions)).lookup identifier = _ := lookup_map_snd
      cases e : held.lookup identifier with
      | none =>
        rw [e] at l
        rw [firstConflict?_of_new (stripped.trans i) l, firstConflict?_of_new i e] at h
        rw [firstConflict?_of_new i e]
        refine @ih ((identifier, node) :: held) h sub fun entry me => ?_
        cases me with
        | head => exact ⟨m, i⟩
        | tail _ me => exact known entry me
      | some holder =>
        rw [e] at l
        rw [firstConflict?_of_held (stripped.trans i) l, firstConflict?_of_held i e] at h
        rw [firstConflict?_of_held i e]
        obtain ⟨mh, holds⟩ := known _ (mem_of_lookup e)
        -- A conflict can only be lost: nodes that are the same are so without descriptions.
        cases s : holder.same node with
        | true =>
          rw [s, keepsSame holder node s] at h
          exact ih h sub known
        | false =>
          refine ⟨identifier, rfl, holder, mh, node, m, holds, i, s, ?_⟩
          cases s' : holder.withoutDescriptions.same node.withoutDescriptions with
          | true => rfl
          | false =>
            rw [s, s'] at h
            exact absurd rfl h

/-- The check of identifiers and that of the root's name do not see descriptions, but where nodes
of one identifier differ in them alone. -/
lemma checkIdentifiers_withoutDescriptions
    (h : node.withoutDescriptions.checkIdentifiers ≠ node.checkIdentifiers) :
    ∃ identifier, node.checkIdentifiers = .error (.duplicateIdentifier identifier) ∧
      node.DifferInDescriptions identifier := by
  have dangling : node.withoutDescriptions.firstDangling? = node.firstDangling? := by
    unfold firstDangling?
    rw [identifiers_withoutDescriptions, references_withoutDescriptions]
  have conflict : firstConflict? [] node.withoutDescriptions.preorder ≠
      firstConflict? [] node.preorder := by
    intro e
    unfold checkIdentifiers at h
    rw [e, dangling] at h
    exact h rfl
  rw [preorder_withoutDescriptions] at conflict
  obtain ⟨identifier, e, differ⟩ := @firstConflict?_withoutDescriptions node.preorder [] node
    conflict (fun _ m => m) fun _ m => absurd m List.not_mem_nil
  refine ⟨identifier, ?_, differ⟩
  unfold checkIdentifiers
  rw [e]

lemma checkRootName_withoutDescriptions :
    node.withoutDescriptions.checkRootName name = node.checkRootName name := by
  unfold checkRootName
  rw [identifier_withoutDescriptions, identifiers_withoutDescriptions]

/--
A tree without descriptions is exported as the tree is, both as a type expression and as
declarations, but for the documentation; and it is refused with the same error where the tree is
refused. The one exception is a tree that is refused for an identifier which two of its nodes carry
that differ in descriptions alone.
-/
theorem export_withoutDescriptions (options : ExportOptions) (name : String) (node : Schema) :
    (node.withoutDescriptions.toTypeExpr options =
        (node.toTypeExpr options).map .undocumented ∧
      node.withoutDescriptions.toDeclarations options name =
        (node.toDeclarations options name).map (List.map .undocumented)) ∨
    ∃ identifier, node.DifferInDescriptions identifier ∧
      node.toTypeExpr options = .error (.failed (.duplicateIdentifier identifier)) ∧
      node.toDeclarations options name = .error (.failed (.duplicateIdentifier identifier)) ∧
      node.withoutDescriptions.checkIdentifiers ≠ .error (.duplicateIdentifier identifier) := by
  by_cases e : node.withoutDescriptions.checkIdentifiers = node.checkIdentifiers
  · left
    unfold toTypeExpr toDeclarations toTypeExprUnchecked rootName
    rw [e, checkRootName_withoutDescriptions, identifier_withoutDescriptions]
    constructor
    · cases node.checkIdentifiers with
      | ok => exact finish_of_mirrors Exporter.mirrors_exportNode
      | error => rfl
    · cases node.checkIdentifiers with
      | error => rfl
      | ok =>
        cases node.checkRootName name with
        | error => rfl
        | ok => exact finish_of_mirrors mirrors_exportDeclarations
  · right
    obtain ⟨identifier, refused, differ⟩ := checkIdentifiers_withoutDescriptions e
    refine ⟨identifier, differ, ?_, ?_, refused ▸ e⟩
    · unfold toTypeExpr
      rw [refused]
    · unfold toDeclarations
      rw [refused]
      rfl

/-- An object that is described in one place and not in another, under one identifier. -/
def describedOnce : Schema :=
  .object [("a", .object [] { description := some "first", identifier := some "X" }),
    ("b", .object [] { identifier := some "X" })] {}

/-- The tree is refused, but is exported without its description. -/
example :
    describedOnce.toDeclarations {} "Root" = .error (.failed (.duplicateIdentifier "X")) ∧
      describedOnce.withoutDescriptions.toDeclarations {} "Root" = .ok [
        ⟨"Root", .object [⟨"a", false, .reference "X", none⟩, ⟨"b", false, .reference "X", none⟩]⟩,
        ⟨"X", .object []⟩] :=
  ⟨by rfl, by rfl⟩

end Schema

end TypeSchema
