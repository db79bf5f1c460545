import TypeSchema.Proofs.Export.Alike

/-!
# Self-contained declarations

Declarations are self-contained when every name in them that has no type arguments is declared. A
tree gives such declarations exactly when every identifier is carried by a node that the export
comes to: it does not come to the `undefined` of an optional member, whose identifier is lost.
-/

namespace TypeSchema

namespace TypeExpr

mutual

/-- The names without type arguments that occur in a type expression. -/
def bareNames : TypeExpr → List String
  | keyword _ | literal _ => []
  | object members => bareNamesProperties members
  | composite _ members => bareNamesList members
  | array element => element.bareNames
  | tuple members => bareNamesElements members
  | named name [] => [name]
  | named _ arguments => bareNamesList arguments
  | function parameters returns => bareNamesParameters parameters ++ returns.bareNames

/-- The names in a list of type expressions. -/
def bareNamesList : List TypeExpr → List String
  | [] => []
  | type :: rest => type.bareNames ++ bareNamesList rest

/-- The names in the properties of an object type. -/
def bareNamesProperties : List (PropertySignature TypeExpr) → List String
  | [] => []
  | ⟨_, _, type, _⟩ :: rest => type.bareNames ++ bareNamesProperties rest

/-- The names in the elements of a tuple type. -/
def bareNamesElements : List (TupleMember TypeExpr) → List String
  | [] => []
  | ⟨_, type⟩ :: rest => type.bareNames ++ bareNamesElements rest

/-- The names in the parameters of a function type. -/
def bareNamesParameters : List (Parameter TypeExpr) → List String
  | [] => []
  | ⟨_, _, type⟩ :: rest => type.bareNames ++ bareNamesParameters rest

end

lemma bareNamesList_eq {types : List TypeExpr} :
    bareNamesList types = types.flatMap bareNames := by
  induction types with
  | nil => rfl
  | cons type types ih => rw [bareNamesList, ih, List.flatMap_cons]

lemma mem_bareNamesProperties {properties : List (String × Schema)} {types : List TypeExpr}
    {name : String}
    (h : name ∈ bareNamesProperties (properties.zipWith Schema.propertySignature types)) :
    ∃ type ∈ types, name ∈ type.bareNames := by
  induction properties generalizing types with
  | nil => cases h
  | cons property properties ih =>
    cases types with
    | nil => cases h
    | cons type types =>
      rw [List.zipWith_cons_cons, Schema.propertySignature, bareNamesProperties] at h
      rcases List.mem_append.1 h with h | h
      · exact ⟨type, List.mem_cons_self, h⟩
      · obtain ⟨type', m, h⟩ := ih h
        exact ⟨type', List.mem_cons_of_mem _ m, h⟩

lemma mem_bareNamesElements {members : List (Schema × Bool)} {types : List TypeExpr}
    {name : String} (h : name ∈ bareNamesElements (members.zipWith Schema.tupleMember types)) :
    ∃ type ∈ types, name ∈ type.bareNames := by
  induction members generalizing types with
  | nil => cases h
  | cons member members ih =>
    cases types with
    | nil => cases h
    | cons type types =>
      rw [List.zipWith_cons_cons, Schema.tupleMember, bareNamesElements] at h
      rcases List.mem_append.1 h with h | h
      · exact ⟨type, List.mem_cons_self, h⟩
      · obtain ⟨type', m, h⟩ := ih h
        exact ⟨type', List.mem_cons_of_mem _ m, h⟩

lemma mem_bareNamesParameters {exporter : Exporter} {position : Nat}
    {members : List (Schema × Bool)} {types : List TypeExpr} {name : String}
    (h : name ∈ bareNamesParameters (exporter.parameters position members types)) :
    ∃ type ∈ types, name ∈ type.bareNames := by
  induction members generalizing position types with
  | nil =>
    simp only [Exporter.parameters, bareNamesParameters] at h
    cases h
  | cons member members ih =>
    cases types with
    | nil =>
      simp only [Exporter.parameters, bareNamesParameters] at h
      cases h
    | cons type types =>
      rw [Exporter.parameters, bareNamesParameters] at h
      rcases List.mem_append.1 h with h | h
      · exact ⟨type, List.mem_cons_self, h⟩
      · obtain ⟨type', m, h⟩ := ih h
        exact ⟨type', List.mem_cons_of_mem _ m, h⟩

end TypeExpr

namespace Exporter

variable {exporter : Exporter} {place : Place} {node : Schema} {name : String}

/-- A name in the expression of a node is in the expression of a part, or is what the node refers
to. -/
lemma mem_bareNames_assemble {types : List TypeExpr} (l : types.length = node.parts.length)
    (h : name ∈ (exporter.assemble node types).bareNames) :
    (∃ type ∈ types, name ∈ type.bareNames) ∨ node.target? = some name := by
  cases node with
  | primitive => rw [assemble, TypeExpr.bareNames] at h; cases h
  | literal => rw [assemble, TypeExpr.bareNames] at h; cases h
  | object =>
    rw [assemble, TypeExpr.bareNames] at h
    exact .inl (TypeExpr.mem_bareNamesProperties h)
  | array element info =>
    obtain ⟨type, rfl⟩ := List.length_eq_one_iff.1 l
    rw [assemble, TypeExpr.bareNames] at h
    exact .inl ⟨type, List.mem_cons_self, h⟩
  | tuple =>
    rw [assemble, TypeExpr.bareNames] at h
    exact .inl (TypeExpr.mem_bareNamesElements h)
  | composite =>
    rw [assemble, TypeExpr.bareNames, TypeExpr.bareNamesList_eq] at h
    exact .inl (List.mem_flatMap.1 h)
  | record key value info =>
    obtain ⟨key', value', rfl⟩ := List.length_eq_two.1 l
    rw [assemble, TypeExpr.bareNames, TypeExpr.bareNamesList_eq] at h
    · exact .inl (List.mem_flatMap.1 h)
    · intro e
      cases e
  | function arguments returns info =>
    rw [assemble, TypeExpr.bareNames] at h
    rcases List.mem_append.1 h with h | h
    · exact .inl (TypeExpr.mem_bareNamesParameters h)
    · have ne : types ≠ [] := by
        rintro rfl
        simp [Schema.parts] at l
      rw [List.getLastD_eq_getLast?, List.getLast?_eq_some_getLast ne] at h
      exact .inl ⟨_, List.getLast_mem ne, h⟩
  | reference target info =>
    rw [assemble, TypeExpr.reference, TypeExpr.bareNames] at h
    exact .inr (congrArg some (List.mem_singleton.1 h).symm)

/-- What a part exposes is exposed by the node. -/
lemma exposed_of_part (place : Place) {part : Schema × Bool} (m : part ∈ node.parts) :
    ∃ inner : Place, (inner, part.1) ∈ node.placedParts place := by
  have e : part.1 ∈ (node.placedParts place).map (·.2) := by
    rw [Schema.placedParts_map]
    exact List.mem_map_of_mem m
  obtain ⟨⟨inner, _⟩, m, rfl⟩ := List.mem_map.1 e
  exact ⟨inner, m⟩

/-- A part with a declaration of its own is exposed. -/
lemma mem_exposed_of_hoisted? {inner : Place} {part : Schema} {identifier : String}
    (m : (inner, part) ∈ node.placedParts place) (e : exporter.hoisted? part = some identifier) :
    ⟨identifier, inner, part⟩ ∈ exporter.exposed place node := by
  rw [exposed_eq]
  refine List.mem_flatMap.2 ⟨_, m, ?_⟩
  unfold exposedPart
  rw [e]
  exact List.mem_singleton_self _

/-- What is exposed by a part without a declaration of its own is exposed. -/
lemma mem_exposed_of_exposed {inner : Place} {part : Schema} {hoisted : HoistedNode}
    (m : (inner, part) ∈ node.placedParts place) (e : exporter.hoisted? part = none)
    (h : hoisted ∈ exporter.exposed inner part) : hoisted ∈ exporter.exposed place node := by
  rw [exposed_eq]
  refine List.mem_flatMap.2 ⟨_, m, ?_⟩
  unfold exposedPart
  rw [e]
  exact h

/-- A name in the expression of a node is that of an exposed node, or of what a node refers to. -/
theorem mem_bareNames_body (h : name ∈ (exporter.body node).bareNames) (place : Place) :
    (∃ hoisted ∈ exporter.exposed place node, hoisted.identifier = name) ∨
      name ∈ node.references := by
  induction node using Schema.partsInduction generalizing place with
  | step node ih =>
    rw [body_eq] at h
    rcases mem_bareNames_assemble (by rw [List.length_map]) h with ⟨type, m, h⟩ | h
    · obtain ⟨part, mp, rfl⟩ := List.mem_map.1 m
      obtain ⟨inner, mi⟩ := exposed_of_part place mp
      unfold partType at h
      split at h
      case h_1 identifier e =>
        rw [TypeExpr.reference, TypeExpr.bareNames] at h
        obtain rfl := List.mem_singleton.1 h
        exact .inl ⟨_, mem_exposed_of_hoisted? mi e, rfl⟩
      case h_2 e =>
        rcases ih part mp h inner with ⟨hoisted, m, rfl⟩ | h
        · exact .inl ⟨hoisted, mem_exposed_of_exposed mi e m, rfl⟩
        · obtain ⟨node', m', t⟩ := List.mem_filterMap.1 h
          exact .inr (List.mem_filterMap.2
            ⟨node', Schema.preorder_trans (Schema.mem_preorder_of_part mp) m', t⟩)
    · exact .inr (List.mem_filterMap.2 ⟨node, Schema.mem_preorder_self, h⟩)

end Exporter

/-- Every name in the declarations that has no type arguments is declared. -/
def SelfContained (declarations : List Declaration) : Prop :=
  ∀ declaration ∈ declarations, ∀ name ∈ declaration.type.bareNames,
    name ∈ declarations.map (·.name)

namespace Schema

variable {options : ExportOptions} {name : String} {node : Schema} {hoisted : List HoistedNode}

/-- The identifier is that of the root or of another declared node. -/
def IsDeclared (node : Schema) (hoisted : List HoistedNode) (identifier : String) : Prop :=
  node.identifier = some identifier ∨ identifier ∈ hoisted.map (·.identifier)

/-- An identifier that is declared is carried by the root or a declared node, which exposes only
declared nodes. -/
lemma Declares.host (d : Declares ⟨options, true⟩ node hoisted) {identifier : String}
    (h : node.IsDeclared hoisted identifier) :
    ∃ (host : Schema) (place : Place), host ∈ node.preorder ∧ host.identifier = some identifier ∧
      ∀ inner ∈ Exporter.exposed ⟨options, true⟩ place host,
        node.IsDeclared hoisted inner.identifier := by
  rcases h with e | m
  · exact ⟨node, .root, mem_preorder_self, e, fun inner m =>
      d.closed inner (List.mem_append_left _ m)⟩
  · obtain ⟨host, mh, rfl⟩ := List.mem_map.1 m
    obtain ⟨me, e⟩ := d.exported host mh
    exact ⟨host.node, host.place, mem_preorder_of_exported me, e, fun inner mi =>
      d.closed inner (List.mem_append_right _ (List.mem_flatMap.2 ⟨host, mh, mi⟩))⟩

/--
Whatever is exported of a node that is alike to one whose exposed nodes are declared, is declared
too.

A copy of a declared node is not exported itself, so the nodes in it are found in the declared one.
-/
lemma Declares.isDeclared (d : Declares ⟨options, true⟩ node hoisted) (w : node.WellFormed)
    (c : node.checkIdentifiers = .ok ()) {outer host : Schema} {place : Place}
    (m : host ∈ node.preorder) (alike : Alike outer host)
    (closed : ∀ inner ∈ Exporter.exposed ⟨options, true⟩ place host,
      node.IsDeclared hoisted inner.identifier) {inner : Schema} {identifier : String}
    (mi : inner ∈ outer.exported) (e : inner.identifier = some identifier) :
    inner = outer ∨ node.IsDeclared hoisted identifier := by
  induction outer using partsInduction generalizing host place with
  | step outer ih =>
    rcases mem_exported mi with rfl | ⟨part, mp, mi⟩
    · exact .inl rfl
    right
    obtain ⟨part', mp', alike'⟩ := alike.correspond_parts.1 part mp
    obtain ⟨place', placed⟩ := Exporter.exposed_of_part place mp'
    have m' : part'.1 ∈ node.preorder := preorder_trans m (mem_preorder_of_part mp')
    cases e' : part'.1.identifier with
    | none =>
      have apart : Exporter.hoisted? ⟨options, true⟩ part'.1 = none := e'
      have closed' : ∀ inner ∈ Exporter.exposed ⟨options, true⟩ place' part'.1,
          node.IsDeclared hoisted inner.identifier :=
        fun inner m => closed inner (Exporter.mem_exposed_of_exposed placed apart m)
      rcases ih part mp m' alike' closed' mi with rfl | done
      · rw [alike'.identifier_eq, e'] at e
        cases e
      · exact done
    | some name =>
      have apart : Exporter.hoisted? ⟨options, true⟩ part'.1 = some name := e'
      have declared := closed _ (Exporter.mem_exposed_of_hoisted? placed apart)
      obtain ⟨host', place'', mh, eh, closed'⟩ := d.host declared
      have alike'' : Alike part.1 host' :=
        alike'.trans _ _ _ (alike_of_identifier w c m' mh e' eh)
      rcases ih part mp mh alike'' closed' mi with rfl | done
      · rw [alike'.identifier_eq, e'] at e
        cases e
        exact declared
      · exact done

/-- The names of the declarations are the root's and those of the nodes that are declared beside it,
all of them different. -/
lemma Declares.names_nodup (d : Declares ⟨options, true⟩ node hoisted)
    (c : node.checkRootName name = .ok ()) :
    (node.rootName name :: hoisted.map (·.identifier)).Nodup := by
  refine List.nodup_cons.2 ⟨?_, d.nodup⟩
  intro m
  obtain ⟨inner, mi, e⟩ := List.mem_map.1 m
  unfold rootName at e
  cases i : node.identifier with
  | some identifier =>
    rw [i, Option.getD_some] at e
    exact d.notRoot inner mi (by rw [i, e])
  | none =>
    rw [i, Option.getD_none] at e
    obtain ⟨me, ei⟩ := d.exported inner mi
    have known := mem_identifiers (mem_preorder_of_exported me) ei
    unfold checkRootName at c
    rw [if_pos ⟨by rw [i]; rfl, e ▸ known⟩] at c
    cases c

/-- An identifier is declared when it is the name of a declaration. -/
lemma isDeclared_iff_mem (c : node.checkRootName name = .ok ()) {identifier : String}
    (m : identifier ∈ node.identifiers) :
    identifier ∈ node.rootName name :: hoisted.map (·.identifier) ↔
      node.IsDeclared hoisted identifier := by
  unfold IsDeclared rootName
  rw [List.mem_cons]
  refine or_congr_left ?_
  cases i : node.identifier with
  | some other =>
    rw [Option.getD_some, Option.some.injEq]
    exact eq_comm
  | none =>
    rw [Option.getD_none]
    constructor
    · rintro rfl
      unfold checkRootName at c
      rw [if_pos ⟨by rw [i]; rfl, m⟩] at c
      cases c
    · intro e
      cases e

/--
The declarations of a tree have different names. They are self-contained, and declare every
identifier of the tree, exactly when every identifier is carried by a node that the export comes to.
-/
theorem toDeclarations_selfContained_iff {declarations : List Declaration} (w : node.WellFormed)
    (h : node.toDeclarations options name = .ok declarations) :
    (declarations.map (·.name)).Nodup ∧
      (((∀ identifier ∈ node.identifiers, identifier ∈ declarations.map (·.name)) ∧
          SelfContained declarations) ↔
        ∀ identifier ∈ node.identifiers,
          ∃ inner ∈ node.exported, inner.identifier = some identifier) := by
  obtain ⟨c, c', hoisted, rfl, d⟩ := declares_of_toDeclarations h
  have names : ((⟨node.rootName name, Exporter.body ⟨options, true⟩ node⟩ ::
      hoisted.map (Exporter.declaration ⟨options, true⟩) : List Declaration).map (·.name)) =
      node.rootName name :: hoisted.map (·.identifier) := by
    rw [List.map_cons, List.map_map]
    rfl
  unfold SelfContained
  rw [names]
  refine ⟨d.names_nodup c', ?_, ?_⟩
  · rintro ⟨declared, -⟩ identifier m
    rcases (isDeclared_iff_mem c' m).1 (declared identifier m) with e | m'
    · exact ⟨node, mem_exported_self, e⟩
    · obtain ⟨inner, mi, rfl⟩ := List.mem_map.1 m'
      exact ⟨inner.node, d.exported inner mi⟩
  · intro carried
    have declared : ∀ identifier ∈ node.identifiers,
        identifier ∈ node.rootName name :: hoisted.map (·.identifier) := by
      intro identifier m
      obtain ⟨inner, mi, e⟩ := carried identifier m
      rw [isDeclared_iff_mem c' m]
      rcases d.isDeclared w c mem_preorder_self (.refl _)
        (fun inner m => d.closed inner (List.mem_append_left _ m)) mi e with rfl | done
      · exact .inl e
      · exact done
    have exposed_declared : ∀ inner ∈ Exporter.exposed ⟨options, true⟩ .root node ++
        hoisted.flatMap (Exporter.exposedBy ⟨options, true⟩),
        inner.identifier ∈ node.rootName name :: hoisted.map (·.identifier) := by
      intro inner m
      rcases d.closed inner m with e | m'
      · exact declared _ (mem_identifiers mem_preorder_self e)
      · exact List.mem_cons_of_mem _ m'
    have refs := (checkIdentifiers_eq_ok_iff.1 c).2
    refine ⟨declared, ?_⟩
    intro declaration md reference mr
    cases md with
    | head =>
      rcases Exporter.mem_bareNames_body mr .root with ⟨inner, m, rfl⟩ | m
      · exact exposed_declared inner (List.mem_append_left _ m)
      · exact declared reference (refs reference m)
    | tail _ md =>
      obtain ⟨host, mh, rfl⟩ := List.mem_map.1 md
      rcases Exporter.mem_bareNames_body mr host.place with ⟨inner, m, rfl⟩ | m
      · exact exposed_declared inner
          (List.mem_append_right _ (List.mem_flatMap.2 ⟨host, mh, m⟩))
      · obtain ⟨inner, mi, t⟩ := List.mem_filterMap.1 m
        have known := mem_preorder_of_exported (d.exported host mh).1
        exact declared reference (refs reference
          (List.mem_filterMap.2 ⟨inner, preorder_trans known mi, t⟩))

/-- A tree of nodes, which may have a first child. -/
def binaryTree : Schema :=
  .object [("left", .composite .union [.reference "Tree" {}, undefinedNode] {}),
    ("leaf", .tuple [.primitive .string {}] { identifier := some "Leaf" }),
    ("other", .reference "Leaf" {})] { identifier := some "Tree" }

/-- The declarations of the tree. -/
def binaryTreeDeclarations : List Declaration :=
  [⟨"Tree", .object [⟨"left", true, .named "Tree" [], none⟩,
    ⟨"leaf", false, .named "Leaf" [], none⟩,
      ⟨"other", false, .named "Leaf" [], none⟩]⟩,
    ⟨"Leaf", .tuple [⟨false, .keyword .string⟩]⟩]

/-- The leaf of `binaryTree`, waiting for its declaration. -/
def hoistedLeaf : HoistedNode :=
  ⟨"Leaf", Place.root.member 1 false, .tuple [.primitive .string {}] { identifier := some "Leaf" }⟩

lemma toDeclarations_binaryTree :
    binaryTree.toDeclarations {} "Root" = .ok binaryTreeDeclarations := by
  let exporter : Exporter := ⟨{}, true⟩
  let before : ExportState := { exporter.start with seen := ["Tree"] }
  let between : ExportState := { exporter.start with
    guard := { exporter.start.guard with iterations := 3 }, seen := ["Leaf", "Tree"] }
  let last : ExportState := { between with guard := { exporter.start.guard with iterations := 5 } }
  have root : (exporter.exportRoot .root binaryTree).Gives before
      (.object [⟨"left", true, .named "Tree" [], none⟩,
    ⟨"leaf", false, .named "Leaf" [], none⟩,
        ⟨"other", false, .named "Leaf" [], none⟩]) { between with pending := [hoistedLeaf] } := rfl
  have leaf : (exporter.exportRoot hoistedLeaf.place hoistedLeaf.node).Gives between
      (.tuple [⟨false, .keyword .string⟩]) last := rfl
  have rest : (exportPending exporter 1).Gives last [] last := rfl
  have pending : (exportPending exporter 2).Gives { between with pending := [hoistedLeaf] }
      [⟨"Leaf", .tuple [⟨false, .keyword .string⟩]⟩] last :=
    Walk.gives_bind.2 ⟨_, _, rfl, Walk.gives_bind.2 ⟨(), between, rfl,
      Walk.gives_bind.2 ⟨_, _, leaf, Walk.gives_bind.2 ⟨_, _, rest, rfl⟩⟩⟩⟩
  have all : (exportDeclarations exporter "Tree" binaryTree).Gives exporter.start
      binaryTreeDeclarations last :=
    Walk.gives_bind.2 ⟨(), before, rfl,
      Walk.gives_bind.2 ⟨_, _, root, Walk.gives_bind.2 ⟨_, _, pending, rfl⟩⟩⟩
  show Exporter.finish ((exportDeclarations exporter "Tree" binaryTree).run exporter.start) = _
  rw [all]
  rfl

/-- The declarations of the tree are self-contained. -/
theorem binaryTree_selfContained :
    binaryTree.WellFormed ∧
      binaryTree.toDeclarations {} "Root" = .ok binaryTreeDeclarations ∧
      (binaryTreeDeclarations.map (·.name)).Nodup ∧
      (((∀ identifier ∈ binaryTree.identifiers,
            identifier ∈ binaryTreeDeclarations.map (·.name)) ∧
          SelfContained binaryTreeDeclarations) ↔
        ∀ identifier ∈ binaryTree.identifiers,
          ∃ inner ∈ binaryTree.exported, inner.identifier = some identifier) :=
  have w : binaryTree.WellFormed := by decide
  ⟨w, toDeclarations_binaryTree, toDeclarations_selfContained_iff w toDeclarations_binaryTree⟩

/-- The identifier of the `undefined` of an optional member is referred to, and not declared. -/
example :
    let optional : Schema := .composite .union
      [.primitive .string {}, .primitive .undefined { identifier := some "U" }] {}
    toDeclarations {} "Root" (.object [("a", optional), ("b", .reference "U" {})] {}) =
      .ok [⟨"Root", .object [⟨"a", true, .keyword .string, none⟩,
        ⟨"b", false, .named "U" [], none⟩]⟩] := by rfl

end Schema

end TypeSchema
