import TypeSchema.Proofs.Export.Alike
import TypeSchema.Proofs.Export.Mapped
import TypeSchema.Proofs.Export.Success

/-!
# Abridged trees

In an abridged tree the outermost of the identified nodes below the root are references to them.
Where declarations are made, a node is exported as its abridged tree is where none are, and the
nodes that are exposed are those that the abridged tree leaves out.
-/

namespace TypeSchema

namespace Schema

/-- A reference to a node that carries an identifier, with the description of the node; another node
as it is. -/
def orReference (node : Schema) : Schema :=
  match node.identifier with
  | some identifier => .reference identifier { description := node.description }
  | none => node

mutual

/-- A tree with the outermost identified nodes below its root replaced by references. -/
def abridged : Schema → Schema
  | primitive type info => primitive type info
  | literal value info => literal value info
  | object properties info => object (abridgedProperties properties) info
  | array element info => array element.abridged.orReference info
  | tuple elements info => tuple (abridgedList elements) info
  | composite connective members info => composite connective (abridgedList members) info
  | record key value info => record key.abridged.orReference value.abridged.orReference info
  | function arguments returns info =>
    function (abridgedList arguments) returns.abridged.orReference info
  | reference target info => reference target info

/-- The trees of a list that are below a root, abridged. -/
def abridgedList : List Schema → List Schema
  | [] => []
  | node :: rest => node.abridged.orReference :: abridgedList rest

/-- The values of properties, which are below a root, abridged. -/
def abridgedProperties : List (String × Schema) → List (String × Schema)
  | [] => []
  | (name, node) :: rest => (name, node.abridged.orReference) :: abridgedProperties rest

end

/-- A tree below a root, abridged. -/
def abridgedPart (node : Schema) : Schema := node.abridged.orReference

/-- A node that carries an identifier, or else what is given for it. -/
def orBelow (node : Schema) (below : List Schema) : List Schema :=
  match node.identifier with
  | some _ => [node]
  | none => below

mutual

/-- The outermost identified nodes below the root of a tree, in order. -/
def outermost : Schema → List Schema
  | primitive .. | literal .. | reference .. => []
  | object properties _ => outermostProperties properties
  | array element _ => element.orBelow element.outermost
  | tuple elements _ => outermostList elements
  | composite _ members _ => outermostList members
  | record key value _ => key.orBelow key.outermost ++ value.orBelow value.outermost
  | function arguments returns _ =>
    outermostList arguments ++ returns.orBelow returns.outermost

/-- The outermost identified nodes of a list of trees. -/
def outermostList : List Schema → List Schema
  | [] => []
  | node :: rest => node.orBelow node.outermost ++ outermostList rest

/-- The outermost identified nodes of the values of properties. -/
def outermostProperties : List (String × Schema) → List Schema
  | [] => []
  | (_, node) :: rest => node.orBelow node.outermost ++ outermostProperties rest

end

/-- The outermost identified nodes of a tree, which may be its root. -/
def outermostPart (node : Schema) : List Schema := node.orBelow node.outermost

variable {node inner : Schema}

lemma abridgedList_eq {nodes : List Schema} : abridgedList nodes = nodes.map abridgedPart := by
  induction nodes with
  | nil => rfl
  | cons node nodes ih => rw [abridgedList, ih]; rfl

lemma abridgedProperties_eq {properties : List (String × Schema)} :
    abridgedProperties properties = properties.map (Prod.map id abridgedPart) := by
  induction properties with
  | nil => rfl
  | cons property properties ih =>
    obtain ⟨name, node⟩ := property
    rw [abridgedProperties, ih]
    rfl

/-- A tree is abridged in its children. -/
theorem abridged_eq (node : Schema) :
    node.abridged = node.withChildren (node.children.map abridgedPart) := by
  cases node with
  | object => rw [abridged, abridgedProperties_eq, children, withChildren, zipWith_values]
  | tuple => rw [abridged, abridgedList_eq]; rfl
  | composite => rw [abridged, abridgedList_eq]; rfl
  | function =>
    rw [abridged, abridgedList_eq]
    simp [children, withChildren, abridgedPart]
  | _ => rfl

lemma outermostList_eq {nodes : List Schema} :
    outermostList nodes = nodes.flatMap outermostPart := by
  induction nodes with
  | nil => rfl
  | cons node nodes ih => rw [outermostList, ih]; rfl

lemma outermostProperties_eq {properties : List (String × Schema)} :
    outermostProperties properties = (properties.map (·.2)).flatMap outermostPart := by
  induction properties with
  | nil => rfl
  | cons property properties ih => rw [outermostProperties, ih]; rfl

/-- The outermost identified nodes are found in the children. -/
theorem outermost_eq (node : Schema) : node.outermost = node.children.flatMap outermostPart := by
  cases node with
  | primitive => rw [outermost]; rfl
  | literal => rw [outermost]; rfl
  | reference => rw [outermost]; rfl
  | object => rw [outermost, outermostProperties_eq]; rfl
  | tuple => rw [outermost, outermostList_eq]; rfl
  | composite => rw [outermost, outermostList_eq]; rfl
  | array => rw [outermost]; simp [children, outermostPart]
  | record => rw [outermost]; simp [children, outermostPart]
  | function => rw [outermost, outermostList_eq]; simp [children, outermostPart]

@[simp] lemma info_abridged : node.abridged.info = node.info := by
  rw [abridged_eq, info_withChildren]

lemma abridgedPart_of_identifier {identifier : String} (e : node.identifier = some identifier) :
    node.abridgedPart = .reference identifier { description := node.description } := by
  have i : node.abridged.identifier = some identifier := by
    unfold Schema.identifier at e ⊢
    rw [info_abridged, e]
  unfold abridgedPart orReference description
  rw [i, info_abridged]

lemma abridgedPart_of_none (e : node.identifier = none) : node.abridgedPart = node.abridged := by
  have i : node.abridged.identifier = none := by
    unfold Schema.identifier at e ⊢
    rw [info_abridged, e]
  unfold abridgedPart orReference
  rw [i]

@[simp] lemma description_abridgedPart : node.abridgedPart.description = node.description := by
  cases e : node.identifier with
  | some identifier =>
    rw [abridgedPart_of_identifier e]
    rfl
  | none =>
    rw [abridgedPart_of_none e]
    unfold description
    rw [info_abridged]

lemma outermostPart_of_identifier {identifier : String} (e : node.identifier = some identifier) :
    node.outermostPart = [node] := by
  unfold outermostPart orBelow
  rw [e]

lemma outermostPart_of_none (e : node.identifier = none) : node.outermostPart = node.outermost := by
  unfold outermostPart orBelow
  rw [e]

/-! ## Marks of optional members -/

/-- In a union of two members that has no identifier, no `undefined` carries one. -/
def PlainMarks (node : Schema) : Prop :=
  ∀ members info, composite .union members info ∈ node.preorder → members.length = 2 →
    info.identifier = none → ∀ mark, primitive .undefined mark ∈ members → mark.identifier = none

lemma PlainMarks.of_mem (p : node.PlainMarks) (m : inner ∈ node.preorder) : inner.PlainMarks :=
  fun members info m' => p members info (preorder_trans m m')

/-- The type of an optional member is abridged with it. -/
lemma optionalType?_abridged (p : node.PlainMarks) (e : node.identifier = none) :
    node.abridged.optionalType? = node.optionalType?.map abridgedPart := by
  cases node with
  | composite connective members info =>
    rw [abridged, abridgedList_eq]
    refine optionalType?_map fun union two last m => ?_
    subst union
    constructor
    · rintro ⟨mark, u⟩
      cases i : last.identifier with
      | some identifier =>
        rw [abridgedPart_of_identifier i] at u
        cases u
      | none =>
        rw [abridgedPart_of_none i] at u
        cases last <;> cases u
        exact ⟨_, rfl⟩
    · rintro ⟨mark, rfl⟩
      exact ⟨mark, abridgedPart_of_none (p members info mem_preorder_self two e mark m)⟩
  | _ => rfl

/-- Members are split alike in an abridged tree. -/
lemma splitOptional_abridgedPart (p : node.PlainMarks) :
    node.abridgedPart.splitOptional = node.splitOptional.map abridgedPart id := by
  cases e : node.identifier with
  | some identifier =>
    -- Neither an identified node is split, nor the reference in its place.
    have kept : node.splitOptional = (node, false) := by simp [splitOptional, e]
    rw [kept, abridgedPart_of_identifier e]
    simp [splitOptional, Schema.identifier, info, optionalType?, abridgedPart_of_identifier e]
  | none =>
    have e' : node.abridged.identifier = none := by
      unfold Schema.identifier at e ⊢
      rw [info_abridged, e]
    rw [abridgedPart_of_none e]
    unfold splitOptional
    rw [e, e', optionalType?_abridged p e]
    cases node.optionalType? with
    | some type => rfl
    | none => simp [abridgedPart_of_none e]

lemma keepsSplit_abridgedPart {nodes : List Schema} (p : ∀ node ∈ nodes, node.PlainMarks) :
    KeepsSplit abridgedPart nodes :=
  fun node m => splitOptional_abridgedPart (p node m)

lemma PlainMarks.children (p : node.PlainMarks) : ∀ child ∈ node.children, child.PlainMarks :=
  fun _ m => p.of_mem (mem_preorder_of_child m mem_preorder_self)

/-- The parts of a tree are abridged in the abridged tree. -/
lemma parts_abridged (p : node.PlainMarks) :
    node.abridged.parts = node.parts.map (Prod.map abridgedPart id) := by
  rw [abridged_eq]
  exact parts_withChildren (keepsSplit_abridgedPart p.children)

/-- A mark of being optional is no identified node. -/
lemma outermostPart_splitOptional (p : node.PlainMarks) :
    node.splitOptional.1.outermostPart = node.outermostPart := by
  unfold splitOptional
  split
  case h_1 type e t =>
    obtain ⟨mark, info, rfl⟩ := optionalType?_eq_some.1 t
    have plain := p _ info mem_preorder_self rfl e mark (by simp)
    have last : (primitive .undefined mark).outermostPart = [] := outermostPart_of_none plain
    rw [outermostPart_of_none e, outermost_eq, children]
    simp [last]
  case h_2 => rfl

/-- The outermost identified nodes are found in the parts. -/
lemma outermost_parts (p : node.PlainMarks) :
    node.outermost = node.parts.flatMap fun part => part.1.outermostPart := by
  rw [outermost_eq]
  have all := forall₂_parts node
  have plain := p.children
  generalize node.children = children, node.parts = parts at all plain
  induction all with
  | nil => rfl
  | @cons child part children parts e _ ih =>
    have first : part.1.outermostPart = child.outermostPart := by
      rcases e with rfl | rfl
      · rfl
      · exact outermostPart_splitOptional (plain child List.mem_cons_self)
    rw [List.flatMap_cons, List.flatMap_cons, first,
      ih fun child m => plain child (List.mem_cons_of_mem _ m)]

end Schema

namespace Exporter

variable {options : ExportOptions} {node : Schema} {place : Place}

/-- Parameters are named and marked, whatever their nodes are. -/
lemma parameters_congr {exporter exporter' : Exporter} {members members' : List (Schema × Bool)}
    {position : Nat} {types : List TypeExpr}
    (e : exporter.options.parameterPrefix = exporter'.options.parameterPrefix)
    (marks : members.map (·.2) = members'.map (·.2)) :
    exporter.parameters position members types = exporter'.parameters position members' types := by
  induction members generalizing members' position types with
  | nil => rw [List.map_eq_nil_iff.1 marks.symm, parameters, parameters] <;> simp
  | cons member members ih =>
    obtain ⟨member', members', rfl, mark, rest⟩ := List.map_eq_cons_iff.1 marks.symm
    cases types with
    | nil => rfl
    | cons type types => rw [parameters, parameters, e, mark, ih rest.symm]

/-- Properties are marked and documented as those of the abridged tree. -/
lemma zipWith_propertySignature {properties : List (String × Schema)} {types : List TypeExpr}
    (p : ∀ property ∈ properties, property.2.PlainMarks) :
    (properties.map (Prod.map id Schema.abridgedPart)).zipWith Schema.propertySignature types =
      properties.zipWith Schema.propertySignature types := by
  induction properties generalizing types with
  | nil => rfl
  | cons property properties ih =>
    cases types with
    | nil => rfl
    | cons type types =>
      have rest := @ih types fun property m => p property (List.mem_cons_of_mem _ m)
      have split := Schema.splitOptional_abridgedPart (p property List.mem_cons_self)
      simp [Schema.propertySignature, split, rest]

/-- A node and its abridged tree are put together alike. -/
lemma assemble_abridged (p : node.PlainMarks) (types : List TypeExpr) :
    assemble ⟨options, false⟩ node.abridged types = assemble ⟨options, true⟩ node types := by
  cases node with
  | object properties info =>
    rw [Schema.abridged, Schema.abridgedProperties_eq]
    simp only [assemble]
    rw [zipWith_propertySignature fun property m => p.children _ (List.mem_map_of_mem m)]
  | tuple elements info =>
    have split := Schema.splitTrailing_map (Schema.keepsSplit_abridgedPart p.children)
    rw [Schema.abridged, Schema.abridgedList_eq]
    simp only [assemble]
    rw [show Schema.splitTrailing (elements.map Schema.abridgedPart) = _ from split,
      List.zipWith_map_left]
    rfl
  | function arguments returns info =>
    have plain : ∀ argument ∈ arguments, argument.PlainMarks :=
      fun argument m => p.children argument (List.mem_append_left _ m)
    rw [Schema.abridged, Schema.abridgedList_eq]
    simp only [assemble, Schema.splitTrailing_map (Schema.keepsSplit_abridgedPart plain)]
    exact congrArg (TypeExpr.function · _) (parameters_congr rfl (by simp [Function.comp_def]))
  | _ => rfl

/-- Where declarations are made, the type expression of a node is that of its abridged tree where
none are. -/
theorem body_abridged (p : node.PlainMarks) :
    body ⟨options, true⟩ node = body ⟨options, false⟩ node.abridged := by
  induction node using Schema.partsInduction with
  | step node ih =>
    rw [body_eq, body_eq, assemble_abridged p, Schema.parts_abridged p, List.map_map]
    congr 1
    refine List.map_congr_left fun part m => ?_
    have plain := p.of_mem (Schema.mem_preorder_of_part m)
    show partType ⟨options, true⟩ part.1 = body ⟨options, false⟩ part.1.abridgedPart
    -- A part with a declaration of its own is named here, and is a reference by that name there.
    cases e : part.1.identifier with
    | some identifier =>
      rw [Schema.abridgedPart_of_identifier e, body_eq]
      simp [partType, hoisted?, e, assemble]
    | none =>
      rw [Schema.abridgedPart_of_none e, ← ih part m plain]
      simp [partType, hoisted?, e]

/-- The nodes that are exposed are the outermost identified ones. -/
theorem exposed_outermost (p : node.PlainMarks) :
    (exposed ⟨options, true⟩ place node).map (·.node) = node.outermost := by
  induction node using Schema.partsInduction generalizing place with
  | step node ih =>
    have parts := congrArg (List.flatMap Schema.outermostPart) (node.placedParts_map place)
    rw [List.flatMap_map, List.flatMap_map, ← Schema.outermost_parts p] at parts
    rw [← parts, exposed_eq, List.map_flatMap]
    refine List.flatMap_congr fun part m => ?_
    obtain ⟨isSplit, mp⟩ := Schema.mem_placedParts m
    have plain := p.of_mem (Schema.mem_preorder_of_part mp)
    cases e : part.2.identifier with
    | some identifier =>
      rw [Schema.outermostPart_of_identifier e]
      simp [exposedPart, hoisted?, e]
    | none =>
      rw [Schema.outermostPart_of_none e, ← @ih _ mp part.1 plain]
      simp [exposedPart, hoisted?, e]

end Exporter

/-! ## Exports without declarations -/

namespace Schema

variable {node : Schema}

lemma finite_iff : node.Finite ↔
    (∀ number info, node = .literal (.number number) info → number.isFinite = true) ∧
      ∀ child ∈ node.children, child.Finite :=
  forall_preorder_iff

/-- A reference has no numbers in it. -/
lemma finite_abridgedPart_of_identifier {identifier : String}
    (e : node.identifier = some identifier) : node.abridgedPart.Finite := by
  rw [abridgedPart_of_identifier e]
  exact finite_iff.2 ⟨nofun, nofun⟩

/-- The numbers of an optional member are those of its type. -/
lemma finite_abridgedPart_of_split (f : node.splitOptional.1.abridgedPart.Finite) :
    node.abridgedPart.Finite := by
  unfold splitOptional at f
  split at f
  case h_1 type e t =>
    obtain ⟨mark, info, rfl⟩ := optionalType?_eq_some.1 t
    have last : (primitive .undefined mark).abridgedPart.Finite := by
      cases i : mark.identifier with
      | some identifier =>
        exact finite_abridgedPart_of_identifier
          (show (primitive .undefined mark).identifier = some identifier from i)
      | none =>
        rw [abridgedPart_of_none (show (primitive .undefined mark).identifier = none from i)]
        exact finite_iff.2 ⟨nofun, nofun⟩
    rw [abridgedPart_of_none e, abridged, abridgedList_eq]
    refine finite_iff.2 ⟨nofun, fun child m => ?_⟩
    rcases List.mem_pair.1 m with rfl | rfl
    · exact f
    · exact last
  case h_2 => exact f

/-- The numbers of an abridged tree are those of its root and of its parts. -/
lemma finite_abridged (root : ∀ number info, node = .literal (.number number) info →
      number.isFinite = true) (parts : ∀ part ∈ node.parts, part.1.abridgedPart.Finite) :
    node.abridged.Finite := by
  refine finite_iff.2 ⟨?_, fun child m => ?_⟩
  · intro number info e
    cases node <;> cases e
    exact root _ _ rfl
  · rw [abridged_eq, children_withChildren (List.length_map _)] at m
    obtain ⟨child, mc, rfl⟩ := List.mem_map.1 m
    obtain ⟨part, mp, e⟩ := exists_of_forall₂ (forall₂_parts node) child mc
    have f := parts part mp
    rcases e with rfl | rfl
    · exact f
    · exact finite_abridgedPart_of_split f

end Schema

namespace Exporter

variable {options : ExportOptions} {node : Schema} {place : Place} {room : Nat}
  {s s' : ExportState} {type : TypeExpr}

/-- Where a node is exported, the numbers of its abridged tree are finite. -/
theorem finite_abridged_of_gives
    (h : (exportNode ⟨options, true⟩ room place node).Gives s type s') : node.abridged.Finite := by
  induction room generalizing place node s type s' with
  | zero =>
    obtain ⟨_, _, _, -, h, -⟩ := gives_within.1 h
    exact absurd h Walk.not_gives_fail
  | succ room ih =>
    obtain ⟨_, _, _, -, h, -, -⟩ := gives_within.1 h
    rw [exportStructure_eq] at h
    -- The numbers that the export does not check are below identified parts, and not in the tree.
    obtain ⟨_, _, check, h⟩ := Walk.gives_bind.1 h
    obtain ⟨types, _, h, -⟩ := Walk.gives_bind.1 h
    refine Schema.finite_abridged ?_ fun part m => ?_
    · rintro number info rfl
      unfold Schema.checkLiteral at check
      dsimp only at check
      split at check
      case isTrue finite => exact finite
      case isFalse => exact absurd check Walk.not_gives_fail
    · have placed : part.1 ∈ (node.placedParts place).map (·.2) := by
        rw [Schema.placedParts_map]
        exact List.mem_map_of_mem m
      obtain ⟨⟨inner, child⟩, mp, e⟩ := List.mem_map.1 placed
      obtain rfl : child = part.1 := e
      obtain ⟨_, _, _, h⟩ := (Walk.gives_mapM.1 h).exists_result _ mp
      cases i : part.1.identifier with
      | some identifier => exact Schema.finite_abridgedPart_of_identifier i
      | none =>
        have direct : exportPlaced ⟨options, true⟩ (exportNode ⟨options, true⟩ room)
            (inner, part.1) = exportNode ⟨options, true⟩ room inner part.1 := by
          unfold exportPlaced
          rw [exportMember_eq]
          simp [hoisted?, i]
        rw [direct] at h
        rw [Schema.abridgedPart_of_none i]
        exact ih h

/-- The depth limit has no part in the type expression of a node. -/
lemma body_maxDepth {hoists : Bool} {limit : UInt32} :
    body ⟨{ options with maxDepth := limit }, hoists⟩ node = body ⟨options, hoists⟩ node := by
  induction node using Schema.partsInduction with
  | step node ih =>
    have types : (node.parts.map fun part =>
        partType ⟨{ options with maxDepth := limit }, hoists⟩ part.1) =
          node.parts.map fun part => partType ⟨options, hoists⟩ part.1 := by
      refine List.map_congr_left fun part m => ?_
      unfold partType
      rw [ih part m]
      rfl
    rw [body_eq, body_eq, types]
    cases node with
    | function arguments returns info =>
      exact congrArg (TypeExpr.function · _) (parameters_congr rfl rfl)
    | _ => rfl

end Exporter

namespace Schema

variable {options : ExportOptions} {node : Schema} {type : TypeExpr}

/-- Without declarations a tree is exported as its body. -/
lemma body_of_toTypeExprUnchecked (h : node.toTypeExprUnchecked options = .ok type) :
    type = Exporter.body ⟨options, false⟩ node := by
  unfold toTypeExprUnchecked Exporter.finish at h
  dsimp only at h
  split at h
  case h_1 => exact (Exporter.gives_exportNode (Prod.ext h rfl)).1
  case h_2 => cases h

/-- A tree of finite numbers is exported if it is not too high. -/
lemma toTypeExprUnchecked_of_finite (f : node.Finite)
    (h : node.height ≤ options.maxDepth.toNat) :
    node.toTypeExprUnchecked options = .ok (Exporter.body ⟨options, false⟩ node) := by
  have ready : (Exporter.start ⟨options, false⟩).guard.ReadyAt .root node.height :=
    readyAt_start h mem_preorder_self rfl
  obtain ⟨type, s', g⟩ := Exporter.exists_gives_exportNode f ready h
  obtain ⟨n, closed⟩ := Exporter.guarded_of_exportNode g
  obtain ⟨rfl, -⟩ := Exporter.gives_exportNode g
  unfold toTypeExprUnchecked Exporter.finish
  dsimp only
  rw [show (Exporter.exportRoot ⟨options, false⟩ .root node).run _ = _ from g, closed]
  rfl

/-- Without declarations, and whatever the depth limit is, the tree is exported as the type
expression, or it is higher than the limit and stopped. -/
def ExportsAs (options : ExportOptions) (node : Schema) (type : TypeExpr) : Prop :=
  ∀ limit : UInt32,
    node.toTypeExprUnchecked { options with maxDepth := limit } = .ok type ∨
      limit.toNat < node.height ∧
        ∃ stop, node.toTypeExprUnchecked { options with maxDepth := limit } = .error stop

/-- A tree of finite numbers is exported as its body. -/
lemma exportsAs_of_finite (f : node.Finite) :
    node.ExportsAs options (Exporter.body ⟨options, false⟩ node) := by
  intro limit
  cases e : node.toTypeExprUnchecked { options with maxDepth := limit } with
  | ok type =>
    rw [body_of_toTypeExprUnchecked e, Exporter.body_maxDepth]
    exact .inl rfl
  | error stop =>
    refine .inr ⟨?_, stop, rfl⟩
    by_contra h
    rw [toTypeExprUnchecked_of_finite f (Nat.le_of_not_lt h)] at e
    cases e

end Schema

end TypeSchema
