import Mathlib
import TypeSchema.Proofs.Export.Cosmetic
import TypeSchema.Proofs.Import.Imported
import TypeSchema.Proofs.Import.WellFormed
import TypeSchema.Proofs.RoundTrip.Hosted
import TypeSchema.Proofs.Schema.Obtainable
import TypeSchema.Proofs.Schema.Paths

/-!
# Descriptions that come back

Of the descriptions of a tree the declarations keep those of properties, as documentation. What is
imported of them again is documented at the same places, if it is the same tree but for
descriptions: then every part of it stands on the path of the node that its type was lowered from.
The one thing that could come between the two is an optional property whose type admits `undefined`
already, since it is not made optional a second time. Such a tree does not come back the same.
-/

namespace TypeSchema

namespace Schema

/-- The description that a property comes back with: that of its type if the property has none and
does no more than to make its type optional, and its own if not. -/
def carriedDescription : Schema → Option String
  | composite .union [type, primitive .undefined _] ⟨none, none⟩ => type.description
  | node => node.description

/-- The description that the node a step leads to comes back with: only properties have any. -/
def Step.description : Step → Schema → Option String
  | property _, node => node.carriedDescription
  | position _, _ => none

variable {a b node child : Schema} {nodes : List Schema} {step : Step}

/-- An export documents a property by the description that it comes back with. -/
lemma carriedDescription_eq (node : Schema) :
    node.carriedDescription = (node.description <|> node.splitOptional.1.description) := by
  unfold carriedDescription
  split
  case h_1 => rfl
  case h_2 no =>
    cases d : node.description with
    | some text => rfl
    | none =>
      unfold splitOptional
      split
      case h_1 type e t =>
        obtain ⟨info, ⟨_, _⟩, rfl⟩ := optionalType?_eq_some.1 t
        cases d
        cases e
        exact absurd rfl (no _ _)
      case h_2 => exact d.symm

/-! ## Counterparts -/

/-- Every node below the root of the first tree has a counterpart on the same path of the second
one, and comes with the description that this one hands on. -/
def Carries (a b : Schema) : Prop :=
  ∀ path step part, a.at? (path ++ [step]) = some part →
    ∃ original, b.at? (path ++ [step]) = some original ∧
      part.description = step.description original

/-- A tree carries the descriptions of another one if its children do. -/
lemma carries_iff :
    a.Carries b ↔ ∀ step part, a.child? step = some part → ∃ original,
      b.child? step = some original ∧ part.description = step.description original ∧
        part.Carries original := by
  constructor
  · intro c step part e
    obtain ⟨original, e', d⟩ := c [] step part (at?_singleton.trans e)
    have e' : b.child? step = some original := at?_singleton.symm.trans e'
    refine ⟨original, e', d, fun path last inner below => ?_⟩
    obtain ⟨final, there, d⟩ := c (step :: path) last inner (at?_cons.2 ⟨part, e, below⟩)
    obtain ⟨_, e'', there⟩ := at?_cons.1 there
    obtain rfl := Option.some.inj (e'.symm.trans e'')
    exact ⟨final, there, d⟩
  · intro c path step part e
    cases path with
    | nil =>
      obtain ⟨original, e', d, -⟩ := c step part (at?_singleton.symm.trans e)
      exact ⟨original, at?_singleton.trans e', d⟩
    | cons first path =>
      obtain ⟨inner, e, below⟩ := at?_cons.1 e
      obtain ⟨original, e', -, c⟩ := c first inner e
      obtain ⟨final, there, d⟩ := c path step part below
      exact ⟨final, at?_cons.2 ⟨original, e', there⟩, d⟩

lemma carries_of_leaf (n : ∀ step, a.child? step = none) : a.Carries b :=
  carries_iff.2 fun step part e => by simp [n step] at e

/-- The information of the root has no part in what is below it. -/
lemma Carries.withInfo (c : a.Carries b) (info : NodeInfo) : (a.withInfo info).Carries b := by
  rw [carries_iff] at c ⊢
  simpa only [child?_withInfo] using c

lemma Carries.documented (c : a.Carries b) (documentation : Option String) :
    (a.documented documentation).Carries b := by
  cases documentation with
  | none => exact c
  | some text => exact c.withInfo _

/-- A type that is made optional is found where it is in the type of the optional property. -/
lemma Carries.toOptional {info info' : NodeInfo} (c : a.Carries b) (d : a.description = none)
    (u : a.admitsUndefined = false) :
    a.toOptional.Carries (composite .union [b, primitive .undefined info] info') := by
  rw [Schema.toOptional, if_neg (by simp [u])]
  refine carries_iff.2 fun step part e => ?_
  match step with
  | .property _ => cases e
  | .position 0 =>
    cases e
    exact ⟨b, rfl, d, c⟩
  | .position 1 =>
    cases e
    exact ⟨_, rfl, rfl, carries_of_leaf fun step => by cases step <;> rfl⟩
  | .position (_ + 2) => cases e

/-- What stands at a place has no description if the node has none. -/
lemma description_atPlace (d : node.description = none) (isOptional : Bool) :
    (node.atPlace isOptional).description = none := by
  unfold atPlace
  split
  · unfold toOptional
    split
    · exact d
    · rfl
  · exact d

lemma description_documented (d : node.description = none) (documentation : Option String) :
    (node.documented documentation).description = documentation := by
  cases documentation with
  | none => exact d
  | some text => exact congrArg NodeInfo.description (info_withInfo _ _)

/-- In trees that are the same but for descriptions a step leads to such trees. -/
lemma child?_of_same_withoutDescriptions
    (h : a.withoutDescriptions.same b.withoutDescriptions = true)
    (e : a.child? step = some child) : ∃ original, b.child? step = some original ∧
      child.withoutDescriptions.same original.withoutDescriptions = true := by
  have e' : a.withoutDescriptions.child? step = some child.withoutDescriptions := by
    rw [child?_withoutDescriptions, e]
    rfl
  obtain ⟨child', e'', s⟩ := child?_of_same h e'
  rw [child?_withoutDescriptions] at e''
  obtain ⟨original, found, rfl⟩ := Option.map_eq_some_iff.1 e''
  exact ⟨original, found, s⟩

lemma kind_eq_of_same_withoutDescriptions
    (h : a.withoutDescriptions.same b.withoutDescriptions = true) : a.kind = b.kind := by
  have e := kind_eq_of_same h
  rwa [kind_withoutDescriptions, kind_withoutDescriptions] at e

lemma identifier_eq_of_same_withoutDescriptions
    (h : a.withoutDescriptions.same b.withoutDescriptions = true) :
    a.identifier = b.identifier := by
  have e := identifier_eq_of_same h
  rwa [identifier_withoutDescriptions, identifier_withoutDescriptions] at e

/-- The children of a node with other parts are made of the nodes for these. -/
lemma exists_of_getElem?_withParts {P : Schema × Bool → Schema → Prop} {index : Nat}
    (all : List.Forall₂ P node.parts nodes)
    (e : (node.withParts nodes).children[index]? = some child) :
    ∃ original part inner, node.children[index]? = some original ∧ part ∈ node.parts ∧
      P part inner ∧ PartOf node.optionalPlaces original part ∧ child = inner.atPlace part.2 := by
  have pairs := partOf_children node
  have l : (node.parts.zipWith (fun part node => node.atPlace part.2) nodes).length =
      node.children.length := by
    rw [List.length_zipWith, ← all.length_eq, Nat.min_self, pairs.length_eq]
  unfold withParts at e
  rw [children_withChildren l, List.getElem?_zipWith_eq_some] at e
  obtain ⟨part, inner, ep, ei, rfl⟩ := e
  obtain ⟨original, eo, pair⟩ := getElem?_of_forall₂ pairs.flip ep
  obtain ⟨_, ei', p⟩ := getElem?_of_forall₂ all ep
  obtain rfl := Option.some.inj (ei.symm.trans ei')
  exact ⟨original, part, inner, eo, List.mem_of_getElem? ep, p, pair, rfl⟩

/-- The properties of an object that is rebuilt are made of the nodes for its parts, and carry the
descriptions of the object's properties. -/
lemma exists_of_lookup_rebuilt {P : Schema × Bool → Schema → Prop} {name : String}
    {properties : List (String × Schema)}
    (all : List.Forall₂ P (properties.map fun property => property.2.splitOptional) nodes)
    (e : (properties.zipWith (fun property node => (property.1,
      (node.atPlace property.2.splitOptional.2).documented
        (property.2.description <|> property.2.splitOptional.1.description))) nodes).lookup name =
          some child) :
    ∃ original inner, properties.lookup name = some original ∧ P original.splitOptional inner ∧
      child = (inner.atPlace original.splitOptional.2).documented original.carriedDescription := by
  induction properties generalizing nodes with
  | nil => cases e
  | cons property properties ih =>
    cases all with
    | @cons _ inner _ nodes p all =>
      obtain ⟨first, original⟩ := property
      rw [List.zipWith_cons_cons, List.lookup_cons] at e
      rw [List.lookup_cons]
      cases eq : name == first with
      | false =>
        rw [eq] at e
        exact ih all e
      | true =>
        rw [eq] at e
        refine ⟨original, inner, rfl, p, ?_⟩
        rw [carriedDescription_eq]
        exact (Option.some.inj e).symm

/-- The children of a node that is rebuilt are made of the nodes for its parts, and carry the
descriptions of the node's children. -/
lemma exists_of_child?_rebuilt {P : Schema × Bool → Schema → Prop}
    (all : List.Forall₂ P node.parts nodes) (e : (node.rebuilt nodes).child? step = some child) :
    ∃ original part inner, node.child? step = some original ∧ part ∈ node.parts ∧
      P part inner ∧ PartOf node.optionalPlaces original part ∧
      child = (inner.atPlace part.2).documented (step.description original) := by
  cases node with
  | object properties info =>
    cases step with
    | position => cases e
    | property name =>
      obtain ⟨original, inner, found, p, rfl⟩ := exists_of_lookup_rebuilt all e
      have m : original ∈ properties.map (·.2) := List.mem_map_of_mem (mem_of_lookup found)
      have mp : original.splitOptional ∈ (object properties info).parts :=
        List.mem_map_of_mem (f := fun property => property.2.splitOptional) (mem_of_lookup found)
      exact ⟨original, _, inner, found, mp, p, partOf_splitOptional m, rfl⟩
  | _ =>
    rw [rebuilt_of_ne_object (fun _ _ e => by cases e), child?_withInfo] at e
    cases step with
    | property => cases e
    | position index => exact exists_of_getElem?_withParts all e

lemma child?_under {identifier : Option String} :
    (node.under identifier).child? step = node.child? step := by
  cases identifier with
  | none => rfl
  | some name => exact child?_withInfo

lemma kind_under {identifier : Option String} : (node.under identifier).kind = node.kind := by
  cases identifier with
  | none => rfl
  | some name => exact kind_withInfo _ _

end Schema

namespace Hosted

open Schema Importer

variable {importer : Importer} {s : LowerState} {root node type x : Schema} {id : TypeId}
  {ids : List TypeId} {nodes rest : List Schema} {info : NodeInfo} {isNested : Bool}

/-- What is built for a node with a structure is the node, rebuilt of imported parts. Only for a
record of given keys it is an object. -/
lemma built (h : Hosted importer s root) (m : node ∈ root.preorder) (k : node.mayBeIdentified)
    (d : s.Denotes (declaring.body node) id) (p : importer.steps id = ids.map .part)
    (all : List.Forall₂ (importer.Imported true) ids nodes) :
    importer.build id nodes = node.rebuilt nodes ∧
        List.Forall₂ (fun part inner => ∃ id, s.Denotes (declaring.partType part.1) id ∧
          importer.Imported true id inner) node.parts nodes ∨
      node.kind = .record ∧ (importer.build id nodes).kind = .object := by
  obtain ⟨ids', denoted, laid | ⟨record, object⟩⟩ := h.laidOut m k d
  · obtain rfl : ids = ids' := map_part_injective (p.symm.trans laid.steps)
    exact .inl ⟨laid.build nodes all.length_eq.symm,
      forall₂_comp denoted all fun _ id _ d i => ⟨id, d, i⟩⟩
  · exact .inr ⟨record, object nodes⟩

/-- If a type came back as a union of itself and more, so would the first member of that type. -/
lemma exists_wrapped (h : Hosted importer s root) (m : type ∈ root.preorder)
    (d : s.Denotes (declaring.partType type) id) (i : importer.Imported true id x)
    (e : info.identifier = none)
    (same : x.withoutDescriptions.same
      (composite .union (type :: rest) info).withoutDescriptions = true) :
    ∃ first others inner id' y, type = composite .union (first :: others) inner ∧
      inner.identifier = none ∧ s.Denotes (declaring.partType first) id' ∧
      importer.Imported true id' y ∧
      y.withoutDescriptions.same type.withoutDescriptions = true := by
  have kinds : x.kind = .union := kind_eq_of_same_withoutDescriptions same
  have unnamed : x.identifier = none := (identifier_eq_of_same_withoutDescriptions same).trans e
  cases i.made with
  | leaf l =>
    cases l with
    | literal => cases kinds
    | @primitive type => cases type <;> cases kinds
  | reference => cases kinds
  | @built ids nodes identifier n p all noAlias =>
    have none : identifier = none := by
      cases identifier with
      | none => rfl
      | some name => simp [Schema.under] at unnamed
    subst none
    obtain ⟨plain, k⟩ := h.plain m d n (noAlias rfl rfl)
    obtain ⟨made, parts⟩ | ⟨-, object⟩ := h.built m k (h.denotes_body m d) p all
    · have same : (type.rebuilt nodes).withoutDescriptions.same _ = true := made ▸ same
      have union : type.kind = .union :=
        kind_rebuilt.symm.trans (kind_eq_of_same_withoutDescriptions same)
      cases type with
      | composite connective members inner =>
        obtain rfl : connective = .union := by cases connective <;> first | rfl | cases union
        rw [rebuilt_composite (parts.length_eq.symm.trans (List.length_map _))] at same
        cases members with
        | nil =>
          cases parts
          cases same
        | cons first others =>
          cases parts with
          | @cons _ y _ ys part _ =>
            obtain ⟨id', d', i'⟩ := part
            -- What was made of the first member is the same as the union that it is a member of.
            have at0 : (composite .union (y :: ys) {}).child? (.position 0) = some y := rfl
            obtain ⟨_, e', below⟩ := child?_of_same_withoutDescriptions same at0
            cases e'
            exact ⟨first, others, inner, id', y, rfl, plain, d', i', below⟩
      | primitive => exact k.elim
      | _ => cases union
    · exact absurd (kinds.symm.trans object) (by decide)

/-- A type does not come back as a union of itself and more, so an optional property whose type
admits `undefined` already is told from its type. -/
lemma not_same_wrapped (h : Hosted importer s root) (m : type ∈ root.preorder)
    (d : s.Denotes (declaring.partType type) id) (i : importer.Imported true id x)
    (e : info.identifier = none) :
    x.withoutDescriptions.same (composite .union (type :: rest) info).withoutDescriptions =
      false := by
  rw [← Bool.not_eq_true]
  intro same
  -- There is no end to the first members of the type.
  induction type using childrenInduction generalizing id x rest info with
  | step type ih =>
    obtain ⟨first, others, inner, id', y, rfl, e', d', i', same'⟩ := h.exists_wrapped m d i e same
    have mf : first ∈ (composite .union (first :: others) inner).children := List.mem_cons_self
    have mr := preorder_trans m (mem_preorder_of_child mf mem_preorder_self)
    exact ih first mf mr d' i' e' same'

/-- What comes back at the place of a child carries its descriptions if the part behind the child
comes back so. -/
lemma carries_atPlace {places : List Schema} {child y : Schema} {part : Schema × Bool}
    (h : Hosted importer s root) (m : part.1 ∈ root.preorder)
    (d : s.Denotes (declaring.partType part.1) id) (i : importer.Imported true id y)
    (pair : PartOf places child part)
    (same : (y.atPlace part.2).withoutDescriptions.same child.withoutDescriptions = true)
    (carries : y.withoutDescriptions.same part.1.withoutDescriptions = true → y.Carries part.1) :
    (y.atPlace part.2).Carries child := by
  cases pair with
  | kept => exact carries same
  | @split type inner info _ union none =>
    subst union
    show y.toOptional.Carries _
    have same : y.toOptional.withoutDescriptions.same _ = true := same
    cases u : y.admitsUndefined with
    | true =>
      -- The type is not made optional again, and would have to be the same as the property.
      rw [Schema.toOptional, if_pos u, h.not_same_wrapped m d i none] at same
      cases same
    | false =>
      have at0 : y.toOptional.child? (.position 0) = some y := by
        rw [Schema.toOptional, if_neg (by simp [u])]
        rfl
      obtain ⟨_, e, below⟩ := child?_of_same_withoutDescriptions same at0
      cases e
      exact (carries below).toOptional i.description u

/-- A node that comes back the same but for descriptions carries the descriptions of the node. -/
theorem carries (h : Hosted importer s root) (m : node ∈ root.preorder)
    (d : s.Denotes (declaring.body node) id) (i : importer.Imported isNested id x)
    (same : x.withoutDescriptions.same node.withoutDescriptions = true) : x.Carries node := by
  induction node using partsInduction generalizing isNested id x with
  | step node ih =>
    cases i.made with
    | leaf l => exact carries_of_leaf fun step => by cases l <;> cases step <;> rfl
    | reference => exact carries_of_leaf fun step => by cases step <;> rfl
    | @built ids nodes identifier _ p all =>
      refine carries_iff.2 fun step child e => ?_
      obtain ⟨original, eo, below⟩ := child?_of_same_withoutDescriptions same e
      have k : node.mayBeIdentified := by
        cases node <;> first | trivial | (cases step <;> cases eo)
      obtain ⟨made, parts⟩ | ⟨record, object⟩ := h.built m k d p all
      · rw [child?_under, made] at e
        obtain ⟨_, part, y, eo', mp, ⟨id', d', i'⟩, pair, rfl⟩ := exists_of_child?_rebuilt parts e
        obtain rfl := Option.some.inj (eo.symm.trans eo')
        rw [withoutDescriptions_documented] at below
        have mr := mem_root_of_part m mp
        have carried := h.carries_atPlace mr d' i' pair below
          fun same => ih _ mp mr (h.denotes_body mr d') i' same
        exact ⟨original, eo, description_documented (description_atPlace i'.description _) _,
          carried.documented _⟩
      · have kinds := kind_eq_of_same_withoutDescriptions same
        rw [kind_under, object, record] at kinds
        cases kinds

end Hosted

/-! ## Round trips -/

namespace Schema

open Importer

variable {root back : Schema} {name file : String} {options : ImportOptions}

/-- A tree comes back with identifiers that tell nodes apart, so one that comes back the same has
such identifiers. -/
lemma identifiers_of_roundTrip (w : root.WellFormed)
    (h : root.roundTrip name file options = .ok back)
    (same : back.withoutDescriptions.same root.withoutDescriptions = true) :
    root.identifiers.Nodup ∧ "" ∉ root.identifiers := by
  obtain ⟨-, -, store, id, -, -, -, imported⟩ := exists_of_roundTrip h
  obtain ⟨s', imports, -⟩ := imports_of_fromType imported
  have perm := identifiers_perm_of_same imports.wellFormed.withoutDescriptions
    w.withoutDescriptions same
  rw [identifiers_withoutDescriptions, identifiers_withoutDescriptions] at perm
  obtain ⟨nodup, named⟩ := identifiers_of_fromType imported
  exact ⟨perm.nodup_iff.1 nodup, fun m => named (perm.mem_iff.2 m)⟩

/--
Descriptions of properties survive a round trip. If a tree comes back the same but for descriptions,
every property has the description of the property on the same path; or, where that one only makes
its type optional and has neither a description nor an identifier, the description of this type.
Nothing else has a description: neither the root nor a node that is no property. These are all the
nodes, as each of them is at the end of a path.
-/
theorem descriptions_of_roundTrip (w : root.WellFormed)
    (h : root.roundTrip name file options = .ok back)
    (same : back.withoutDescriptions.same root.withoutDescriptions = true) :
    (∀ path property node, back.at? (path ++ [.property property]) = some node →
      ∃ original, root.at? (path ++ [.property property]) = some original ∧
        node.description = original.carriedDescription) ∧
    (∀ path node, back.at? path = some node →
      (∀ above property, path ≠ above ++ [.property property]) → node.description = none) ∧
    ∀ node ∈ back.preorder, ∃ path, back.at? path = some node := by
  obtain ⟨nodup, named⟩ := identifiers_of_roundTrip w h same
  obtain ⟨importer, s, id, hosted, d, imported⟩ := exists_hosted w h nodup named
  obtain ⟨s', imports, -⟩ := imports_of_fromType imported
  have i : importer.Imported false id back :=
    ⟨importer.start, s', consistent_start, fun nested => (by cases nested), imports⟩
  have carries := hosted.carries mem_preorder_self d i same
  refine ⟨fun path property => carries path (.property property), ?_,
    fun node => (mem_preorder_iff_at? imports.wellFormed).1⟩
  intro path node e outside
  rcases List.eq_nil_or_concat path with rfl | ⟨above, step, rfl⟩
  · cases e
    exact i.description
  · rw [List.concat_eq_append] at e outside
    cases step with
    | property property => exact absurd rfl (outside above property)
    | position index =>
      obtain ⟨_, -, d⟩ := carries above (.position index) node e
      exact d

/-- An entry that may have an owner and a next entry, with descriptions wherever they can be. -/
def documentedEntry : Schema :=
  let person := object [("name", primitive .string ⟨some "The full name.", none⟩)]
    ⟨some "Somebody.", some "Person"⟩
  object
    [("tags", array (primitive .string ⟨some "A tag.", none⟩) ⟨some "What it is about.", none⟩),
      ("owner", composite .union [person, undefinedNode] {}),
      ("next", composite .union [reference "Entry" ⟨some "An entry.", none⟩, undefinedNode]
        ⟨some "What follows.", none⟩)]
    ⟨some "An entry.", some "Entry"⟩

/-- The entry as it comes back: the description of a person is now that of the owner. -/
def returnedEntry : Schema :=
  let person := object [("name", primitive .string ⟨some "The full name.", none⟩)]
    ⟨none, some "Person"⟩
  object
    [("tags", array (primitive .string {}) ⟨some "What it is about.", none⟩),
      ("owner", composite .union [person, undefinedNode] ⟨some "Somebody.", none⟩),
      ("next", composite .union [reference "Entry" {}, undefinedNode]
        ⟨some "What follows.", none⟩)]
    ⟨none, some "Entry"⟩

set_option maxRecDepth 20000 in
lemma roundTrip_documentedEntry :
    documentedEntry.roundTrip "Root" "types.ts" {} = .ok returnedEntry := by cbv

/-- What comes back of the entry is documented as the entry is. -/
theorem descriptions_of_documentedEntry :
    documentedEntry.WellFormed ∧
      documentedEntry.roundTrip "Root" "types.ts" {} = .ok returnedEntry ∧
      returnedEntry.withoutDescriptions.same documentedEntry.withoutDescriptions = true ∧
      (∀ path property node, returnedEntry.at? (path ++ [.property property]) = some node →
        ∃ original, documentedEntry.at? (path ++ [.property property]) = some original ∧
          node.description = original.carriedDescription) ∧
      (∀ path node, returnedEntry.at? path = some node →
        (∀ above property, path ≠ above ++ [.property property]) → node.description = none) ∧
      ∀ node ∈ returnedEntry.preorder, ∃ path, returnedEntry.at? path = some node := by
  have w : documentedEntry.WellFormed := by decide
  have same : returnedEntry.withoutDescriptions.same documentedEntry.withoutDescriptions = true :=
    by decide
  exact ⟨w, roundTrip_documentedEntry, same,
    descriptions_of_roundTrip w roundTrip_documentedEntry same⟩

end Schema

end TypeSchema
