import Mathlib
import TypeSchema.Proofs.Import.Integrity
import TypeSchema.Proofs.Schema.Sharing

/-!
# Optional members of one type

Whether an optional member is made a union with `undefined` is decided on the node its type was
imported as. Once the type has an identifier, and wherever it is met inside of itself, that node is
a reference, which does not show that the type admits `undefined`. So two optional members of one
type may be treated differently.

It is otherwise for the two kinds of types below. One that does not admit `undefined` is wrapped
wherever it is met. One that shows `undefined` through types which get no identifier is wrapped
nowhere. Wherever a member is met, it stands in the imported tree as it was treated there.
-/

namespace TypeSchema.Importer

variable (importer : Importer)

/-! ## What a type admits -/

/-- The type is a union of which the other one is a member, or an intersection of that one alone. -/
def Offers (id member : TypeId) : Prop :=
  ∃ connective : Connective, importer.checker.ruleFor? id = some connective.rule ∧
    member ∈ importer.checker.constituents id ∧
    (connective = .union ∨ importer.checker.constituents id = [member])

/-- `undefined` is assignable to the type at the top level. -/
inductive Admits : TypeId → Prop where
  | undefined {id} :
    importer.checker.ruleFor? id = some .primitive →
    (importer.checker.flags id).primitive? = some .undefined →
    Admits id
  | member {id member} : importer.Offers id member → Admits member → Admits id

/-- `undefined` is assignable to the type at the top level, and none of the types through which it
is gets an identifier in an import of the root. -/
inductive Shows (root : TypeId) : TypeId → Prop where
  | undefined {id} :
    importer.checker.ruleFor? id = some .primitive →
    (importer.checker.flags id).primitive? = some .undefined →
    Shows root id
  | member {id member} :
    importer.Offers id member → ¬ importer.Nameable root id → Shows root member → Shows root id

/-! ## Optional members -/

/-- Which members of a type are optional. The types of the members are what the type imports first,
in this order. -/
def optionals (id : TypeId) : List Bool :=
  match importer.checker.ruleFor? id with
  | some .function =>
    match importer.checker.callSignatures id with
    | [] => []
    | signature :: _ => signature.parameters.map (·.isOptional)
  | some .tuple => ((importer.checker.tupleElements? id).getD []).map (·.isOptional)
  | some .object => (importer.checker.properties id).map (·.isOptional)
  | _ => []

/-- An import that comes to the type in the state enters it, to import the given types. -/
structure Enters (id : TypeId) (s : ImportState) (guard : WalkGuard TypeId) (ids : List TypeId) :
    Prop where
  noLeaf : importer.importLeaf? id (importer.checker.flags id) = none
  unnamed : s.named.lookup id = none
  entered : s.guard.enter id = (.entered, guard)
  parts : importer.steps id = ids.map .part

/-- An import that comes to a type in a state meets an optional member of the type `part`, which it
imports as the node. -/
inductive Meets : (id : TypeId) → ImportState → (part : TypeId) → Schema → Prop where
  /-- The member is one of the type itself, after others. -/
  | member {id s guard before part after nodes t node t'} :
    importer.Enters id s guard (before ++ part :: after) →
    Walk.Threads importer.Imports before (s.begin guard id) nodes t →
    (importer.optionals id)[before.length]? = some true →
    importer.Imports part t node t' →
    Meets id s part node
  /-- The member is met inside of a part of the type. -/
  | inside {id s guard before inner after nodes t part node} :
    importer.Enters id s guard (before ++ inner :: after) →
    Walk.Threads importer.Imports before (s.begin guard id) nodes t →
    Meets inner t part node →
    Meets id s part node

variable {importer} {root id part : TypeId} {visiting : List TypeId} {s s' : ImportState}
  {node : Schema} {ids : List TypeId} {nodes : List Schema}

/-! ## Places in a built node -/

/-- A node under an identifier has the same descendants. -/
lemma descendants_under {identifier : Option String} :
    (node.under identifier).descendants = node.descendants := by
  cases identifier with
  | none => rfl
  | some name => exact Schema.descendants_withInfo

/-- A node with documentation has the same descendants. -/
lemma descendants_documented {documentation : Option String} :
    (node.documented documentation).descendants = node.descendants := by
  cases documentation with
  | none => rfl
  | some text => exact Schema.descendants_withInfo

/-- The descendants of a node are descendants of the node at any place. -/
lemma mem_descendants_atPlace {inner : Schema} (h : inner ∈ node.descendants)
    (isOptional : Bool) (documentation : Option String) :
    inner ∈ ((node.atPlace isOptional).documented documentation).descendants := by
  rw [descendants_documented]
  cases isOptional with
  | true => exact Schema.mem_descendants_toOptional h
  | false => exact h

/-- The node of a property stands in the object, or it is one of those past the properties. -/
lemma property_or_rest {properties : List PropertyInfo} {firsts rest : List Schema} {i : Nat}
    (l : firsts.length = properties.length) (n : (firsts ++ rest)[i]? = some node) :
    (∃ property documentation, properties[i]? = some property ∧
      (node.atPlace property.isOptional).documented documentation ∈
        (Schema.object (properties.zipWith PropertyInfo.node firsts) {}).descendants) ∨
      properties[i]? = none ∧ node ∈ rest := by
  refine (zipWith_or_rest PropertyInfo.node l n).imp_left ?_
  rintro ⟨property, e, m⟩
  exact ⟨property, property.documentation, e,
    Schema.mem_descendants_of_child (List.mem_map_of_mem m) Schema.mem_preorder_self⟩

/-- A union or intersection has no optional members. -/
lemma optionals_of_connective {connective : Connective}
    (r : importer.checker.ruleFor? id = some connective.rule) : importer.optionals id = [] := by
  cases connective <;> simp [optionals, r, Connective.rule]

/-- A node of which another one is built stands in that one as it is made at its place, perhaps with
a documentation as its description, or it is that one. -/
theorem Shape.placed {built : Schema} {i : Nat} (h : importer.Shape id ids nodes built)
    (n : nodes[i]? = some node) :
    (importer.optionals id = [] ∧ built = node) ∨
      ∃ documentation, (node.atPlace ((importer.optionals id)[i]?.getD false)).documented
        documentation ∈ built.descendants := by
  have child : ∀ {inner}, inner ∈ built.children → inner ∈ built.descendants :=
    fun m => Schema.mem_descendants_of_child m Schema.mem_preorder_self
  cases h with
  | function r c l =>
    right
    simp only [optionals, r, c, List.getElem?_map]
    rcases zipWith_or_rest (fun parameter => Schema.atPlace parameter.isOptional) l n with
      ⟨parameter, e, m⟩ | ⟨e, m⟩
    · rw [e]
      exact ⟨none, child (List.mem_append_left _ m)⟩
    · rw [e]
      exact ⟨none, child (List.mem_append_right _ m)⟩
  | @tuple elements nodes r c l =>
    right
    simp only [optionals, r, c, Option.getD_some, List.getElem?_map]
    rw [← List.append_nil nodes] at n
    rcases zipWith_or_rest (fun element => Schema.atPlace element.isOptional) l n with
      ⟨element, e, m⟩ | ⟨-, m⟩
    · rw [e]
      exact ⟨none, child m⟩
    · cases m
  | @object nodes r _ l =>
    right
    simp only [optionals, r, List.getElem?_map]
    rw [← List.append_nil nodes] at n
    rcases property_or_rest l n with ⟨property, documentation, e, m⟩ | ⟨-, m⟩
    · rw [e]
      exact ⟨documentation, m⟩
    · cases m
  | @indexed nodes _ r _ l _ =>
    right
    simp only [optionals, r, List.getElem?_map]
    rcases property_or_rest l n with ⟨property, documentation, e, m⟩ | ⟨e, m⟩
    · rw [e]
      refine ⟨documentation, Schema.descendants_trans (child (List.mem_append_left _ ?_))
        (Schema.mem_preorder_of_descendant m)⟩
      rw [if_neg (List.ne_nil_of_mem (List.mem_of_getElem? e))]
      exact List.mem_singleton_self _
    · rw [e]
      -- Keys and values are children of records, which are children of the built node.
      obtain ⟨entry, me, m⟩ := List.mem_flatMap.1 m
      have record := child (List.mem_append_right _ (List.mem_map_of_mem me))
      exact ⟨none, Schema.descendants_trans record
        (Schema.mem_preorder_of_child m Schema.mem_preorder_self)⟩
  | array r =>
    right
    simp only [optionals, r]
    exact ⟨none, child (List.mem_of_getElem? n)⟩
  | record r =>
    right
    simp only [optionals, r]
    exact ⟨none, child (List.mem_of_getElem? n)⟩
  | single k =>
    left
    obtain ⟨⟨connective, r⟩, -⟩ := k
    obtain rfl := List.mem_singleton.1 (List.mem_of_getElem? n)
    exact ⟨optionals_of_connective r, rfl⟩
  | composite r =>
    right
    rw [optionals_of_connective r]
    exact ⟨none, child (List.mem_of_getElem? n)⟩

/-- What stands in a node stands in each node that is built of it. -/
lemma Shape.descendants {built inner : Schema} (h : importer.Shape id ids nodes built)
    (n : node ∈ nodes) (m : inner ∈ node.descendants) : inner ∈ built.descendants := by
  obtain ⟨i, n⟩ := List.getElem?_of_mem n
  rcases h.placed n with ⟨-, rfl⟩ | ⟨documentation, place⟩
  · exact m
  · exact Schema.descendants_trans place
      (Schema.mem_preorder_of_descendant (mem_descendants_atPlace m _ _))

/-! ## Nodes show what types admit -/

/-- A node admits the same under any identifier. -/
lemma admitsUndefined_under {identifier : Option String} :
    (node.under identifier).admitsUndefined = node.admitsUndefined := by
  cases identifier with
  | none => rfl
  | some name =>
    unfold Schema.under Schema.withIdentifier
    rw [Schema.admitsUndefined_eq, Schema.kind_withInfo, Schema.children_withInfo,
      ← Schema.admitsUndefined_eq]

/-- A union or intersection is no leaf. -/
lemma LeafNode.ne_connective (l : importer.LeafNode id node) (connective : Connective) :
    importer.checker.ruleFor? id ≠ some connective.rule := by
  cases l with
  | literal r => rw [r]; cases connective <;> simp [Connective.rule]
  | primitive r => rw [r]; cases connective <;> simp [Connective.rule]

/-- A built node that admits `undefined` is that of a type that offers its parts, one of whose nodes
admits it. -/
lemma Shape.offers (h : importer.Shape id ids nodes node) (a : node.admitsUndefined = true) :
    (∀ part ∈ ids, importer.Offers id part) ∧ ∃ inner ∈ nodes, inner.admitsUndefined = true := by
  cases h with
  | @single member _ k =>
    obtain ⟨⟨connective, r⟩, c⟩ := k
    refine ⟨fun part m => ?_, _, List.mem_singleton_self _, a⟩
    obtain rfl := List.mem_singleton.1 m
    exact ⟨connective, r, by rw [c]; exact m, .inr c⟩
  | @composite nodes connective r _ _ =>
    rw [Schema.admitsUndefined_eq] at a
    cases connective with
    | intersection => simp [Schema.kind, Connective.kind] at a
    | union =>
      refine ⟨fun part m => ⟨.union, r, m, .inl rfl⟩, ?_⟩
      simpa [Schema.kind, Connective.kind, Schema.children] using a
  | _ => simp [Schema.admitsUndefined] at a

/-- The node of a type that offers one of its parts admits `undefined` if that of the part does. -/
lemma Shape.admitsUndefined_of_offers (h : importer.Shape id ids nodes node)
    (o : importer.Offers id part)
    (all : List.Forall₂ (fun j inner => j = part → inner.admitsUndefined = true) ids nodes) :
    node.admitsUndefined = true := by
  obtain ⟨connective, r, m, u⟩ := o
  cases h with
  | single k =>
    rw [k.2, List.mem_singleton] at m
    cases all with
    | cons a _ => exact a m.symm
  | @composite nodes connective' r' two _ =>
    obtain rfl : connective' = .union := by
      rcases u with rfl | one
      · cases connective' <;> simp_all [Connective.rule]
      · rw [one] at two
        simp at two
    obtain ⟨inner, mi, a⟩ := exists_of_forall₂ all part m
    rw [Schema.admitsUndefined_eq]
    simp only [Schema.kind, Connective.kind, Schema.children, Bool.or_eq_true, Bool.and_eq_true,
      List.any_eq_true]
    exact .inr ⟨rfl, inner, mi, a rfl⟩
  | function r' | tuple r' | array r' | record r' | object r' | indexed r' =>
    rw [r'] at r
    cases connective <;> simp [Connective.rule] at r

/-- A type whose node admits `undefined` admits it. -/
theorem Imports.admits (h : importer.Imports id s node s') (a : node.admitsUndefined = true) :
    importer.Admits id := by
  induction h using Imports.induct with
  | leaf l =>
    cases l with
    | literal => simp [Schema.ofLiteral, Schema.admitsUndefined] at a
    | @primitive type r p =>
      cases type with
      | undefined => exact .undefined r p
      | _ => simp [Schema.ofPrimitive, Schema.admitsUndefined] at a
  | named => simp [Schema.admitsUndefined] at a
  | cycle => simp [Schema.admitsUndefined] at a
  | entered _ _ _ p all _ _ ih =>
    rw [admitsUndefined_under] at a
    obtain ⟨offers, inner, m, a⟩ := (shape_build p all.length).offers a
    obtain ⟨part, mp, _, _, _, admits⟩ := ih.exists_of_mem inner m
    exact .member (offers part mp) (admits a)

/-- Where no identifier can be given on the way to `undefined`, every node of the type admits it. -/
theorem Imports.admitsUndefined_of_shows (h : importer.Imports id s node s')
    (a : importer.At root visiting id) (w : importer.Underway root visiting s)
    (shows' : importer.Shows root id) : node.admitsUndefined = true := by
  induction shows' generalizing visiting s node s' with
  | @undefined id r p =>
    cases h with
    | leaf l =>
      cases l with
      | literal r' => cases r.symm.trans r'
      | primitive _ p' =>
        cases p.symm.trans p'
        rfl
    | named n _ _ | cycle n _ _ _ | entered n _ _ _ _ _ _ =>
      exact absurd n (LeafNode.primitive r p).importLeaf?_ne_none
  | @member id member offers free _ ih =>
    cases h with
    | leaf l =>
      obtain ⟨connective, r, -⟩ := offers
      exact absurd r (l.ne_connective connective)
    | named _ c _ => exact absurd (w.nameable id _ (.inl (mem_of_lookup c))) free
    | cycle _ _ e _ =>
      obtain ⟨-, m, rfl⟩ := WalkGuard.enter_eq_cycle.1 e
      exact absurd (w.nameable_of_mem a m) free
    | entered n c e p all _ _ =>
      have parts := all.mem.forall₂ (E := fun _ _ => True) (fun _ => trivial)
        (fun _ _ _ _ _ => trivial) (fun part t node t' ⟨m, _, h⟩ w =>
          ⟨h.underway (a.part (edge_of_mem p m)) w, trivial⟩) (w.begin c e)
      rw [admitsUndefined_under]
      refine (shape_build p all.length).admitsUndefined_of_offers offers (parts.imp ?_)
      rintro part node ⟨t, t', ⟨m, -, h⟩, w, -, -⟩ rfl
      exact ih h (a.part (edge_of_mem p m)) w

/-! ## Members that are met -/

/-- Parts that are imported after others are come to inside of the type. -/
lemma Enters.underway {guard : WalkGuard TypeId} {before after : List TypeId} {t : ImportState}
    (e : importer.Enters id s guard (before ++ part :: after)) (a : importer.At root visiting id)
    (w : importer.Underway root visiting s)
    (all : Walk.Threads importer.Imports before (s.begin guard id) nodes t) :
    importer.At root (id :: visiting) part ∧ importer.Underway root (id :: visiting) t := by
  have edge : ∀ j ∈ before ++ part :: after, importer.Edge id j := fun j => edge_of_mem e.parts
  refine ⟨a.part (edge part (by simp)), (w.begin e.unnamed e.entered).threads all ?_⟩
  intro j m _ _ _ h w
  exact h.underway (a.part (edge j (List.mem_append_left _ m))) w

/-- A member is met by an import that has come to its type. -/
lemma Meets.imports (h : importer.Meets id s part node) (a : importer.At root visiting id)
    (w : importer.Underway root visiting s) :
    ∃ visiting t t', importer.Imports part t node t' ∧ importer.At root visiting part ∧
      importer.Underway root visiting t := by
  induction h generalizing visiting with
  | member e all _ i =>
    obtain ⟨a, w⟩ := e.underway a w all
    exact ⟨_, _, _, i, a, w⟩
  | inside e all _ ih =>
    obtain ⟨a, w⟩ := e.underway a w all
    exact ih a w

/-- An import that gives a node has imported each part from the state in which it came to it, and
the node is built of what the parts gave. -/
lemma Enters.imported {guard : WalkGuard TypeId} {before after : List TypeId} {t : ImportState}
    {tree : Schema} (e : importer.Enters id s guard (before ++ part :: after))
    (all : Walk.Threads importer.Imports before (s.begin guard id) nodes t)
    (i : importer.Imports id s tree s') :
    ∃ node t' rest built identifier, importer.Imports part t node t' ∧
      importer.Shape id (before ++ part :: after) (nodes ++ node :: rest) built ∧
      tree = built.under identifier := by
  cases i with
  | leaf l => exact absurd e.noLeaf l.importLeaf?_ne_none
  | named _ c _ => cases c.symm.trans e.unnamed
  | cycle _ _ e' _ => cases e'.symm.trans e.entered
  | entered _ _ e' p all' _ _ =>
    cases e'.symm.trans e.entered
    obtain rfl := map_part_injective (p.symm.trans e.parts)
    have shape := shape_build p all'.length
    obtain ⟨firsts, t1, _, first, last, rfl⟩ := all'.append
    obtain ⟨rfl, rfl⟩ := Walk.Threads.unique (first.imp fun _ _ _ _ i _ _ i' => i.unique i') all
    cases last with
    | cons i _ => exact ⟨_, _, _, _, _, i, shape, rfl⟩

/-- If an import that meets an optional member gives a node, the member stands in it as `toOptional`
makes it, perhaps with a documentation as its description. -/
theorem Meets.placed {tree : Schema} (h : importer.Meets id s part node)
    (i : importer.Imports id s tree s') :
    ∃ documentation, node.toOptional.documented documentation ∈ tree.descendants := by
  induction h generalizing tree s' with
  | @member id s guard before part after nodes t node t' e all o met =>
    obtain ⟨node', _, rest, built, identifier, i', shape, rfl⟩ := e.imported all i
    obtain ⟨rfl, -⟩ := met.unique i'
    have n : (nodes ++ node' :: rest)[before.length]? = some node' := by
      simp [← all.length]
    rw [descendants_under]
    rcases shape.placed n with ⟨unmarked, -⟩ | ⟨documentation, place⟩
    · rw [unmarked] at o
      cases o
    · rw [o] at place
      exact ⟨documentation, place⟩
  | inside e all _ ih =>
    obtain ⟨node', _, rest, built, identifier, i', shape, rfl⟩ := e.imported all i
    obtain ⟨documentation, m⟩ := ih i'
    refine ⟨documentation, ?_⟩
    rw [descendants_under]
    exact shape.descendants (by simp) m

/-- A node stays as it is exactly if it admits `undefined`. -/
lemma toOptional_eq_self_iff : node.toOptional = node ↔ node.admitsUndefined = true := by
  unfold Schema.toOptional
  split
  case isTrue a => exact iff_of_true rfl a
  case isFalse a =>
    refine iff_of_false (fun e => ?_) a
    rw [← e] at a
    simp [Schema.admitsUndefined_eq, Schema.kind, Connective.kind, Schema.children,
      Schema.undefinedNode, Primitive.kind] at a

/--
An optional member of a type that does not admit `undefined` is wrapped wherever the import meets
it, and one of a type that shows `undefined` nowhere. Two optional members of one type are treated
alike unless the type admits `undefined` only through types that may be given an identifier. In the
tree of an import that succeeds, a member stands as it was treated, perhaps with a documentation as
its description.
-/
theorem toOptional_alike {node' : Schema} (h : importer.Meets root importer.start part node)
    (h' : importer.Meets root importer.start part node') :
    (¬ importer.Admits part →
      node.toOptional = .composite .union [node, Schema.undefinedNode] {}) ∧
    (importer.Shows root part → node.toOptional = node) ∧
    ((importer.Admits part → importer.Shows root part) →
      (node.toOptional = node ↔ node'.toOptional = node')) ∧
    ∀ tree, importer.fromType root = .ok tree →
      ∃ documentation, node.toOptional.documented documentation ∈ tree.preorder := by
  have start : importer.At root [] root := .inl ⟨rfl, rfl⟩
  obtain ⟨_, t, _, i, a, w⟩ := h.imports start underway_start
  obtain ⟨_, t', _, i', a', w'⟩ := h'.imports start underway_start
  refine ⟨fun n => if_neg fun u => n (i.admits u), fun u => ?_, fun only => ?_,
    fun tree imported => ?_⟩
  · exact toOptional_eq_self_iff.2 (i.admitsUndefined_of_shows a w u)
  · rw [toOptional_eq_self_iff, toOptional_eq_self_iff]
    constructor
    · intro u
      exact i'.admitsUndefined_of_shows a' w' (only (i.admits u))
    · intro u
      exact i.admitsUndefined_of_shows a w (only (i'.admits u))
  · obtain ⟨_, whole, -⟩ := imports_of_fromType imported
    obtain ⟨documentation, m⟩ := h.placed whole
    exact ⟨documentation, Schema.mem_preorder_of_descendant m⟩

/-- A store with an object of two optional members, whose type is a named list or `undefined`. -/
def maybeLists : TypeStore :=
  let (list, store) := TypeStore.new.array .string
  let (union, store) := (store.setAliasName list "List").union [list, .undefined]
  (store.object [⟨"a", union, true, false, none⟩, ⟨"b", union, true, false, none⟩]).2

/-- The importer of the store. -/
def maybeImporter : Importer := ⟨maybeLists.checker, "types.ts", {}⟩

/-- The node of the union where the list is met. -/
def maybeExpanded : Schema :=
  .composite .union [.array (.primitive .string {}) ⟨none, some "List"⟩, Schema.undefinedNode] {}

/-- The node of the union where the list is referred to. -/
def maybeReferring : Schema :=
  .composite .union [.reference "List" {}, Schema.undefinedNode] {}

/-- The tree of the object. -/
def maybeTree : Schema := .object [("a", maybeExpanded), ("b", maybeReferring)] {}

set_option maxRecDepth 2000 in
lemma fromType_maybeLists : maybeImporter.fromType ⟨15⟩ = .ok maybeTree := by cbv

/-- The union has no name and does not contain itself. -/
lemma shows_maybeLists : maybeImporter.Shows ⟨15⟩ ⟨14⟩ := by
  have within : ∀ j, Relation.TransGen maybeImporter.Edge ⟨14⟩ j →
      j ∈ [⟨13⟩, .undefined, .string] := by
    intro j h
    induction h with
    | @single j e =>
      have e : ImportStep.part j ∈ [.part ⟨13⟩, .part .undefined] := e
      simp only [List.mem_cons, List.not_mem_nil, ImportStep.part.injEq, or_false] at e
      rcases e with rfl | rfl <;> decide
    | @tail i j _ e ih =>
      simp only [List.mem_cons, List.not_mem_nil, or_false] at ih
      rcases ih with rfl | rfl | rfl
      · have e : ImportStep.part j ∈ [.part .string] := e
        obtain rfl := ImportStep.part.inj (List.mem_singleton.1 e)
        decide
      · have e : ImportStep.part j ∈ [maybeImporter.refusal .undefined] := e
        simp [refusal] at e
      · have e : ImportStep.part j ∈ [maybeImporter.refusal .string] := e
        simp [refusal] at e
  have free : ¬ maybeImporter.Nameable ⟨15⟩ ⟨14⟩ := by
    rintro (⟨-, named⟩ | cycle)
    · exact named rfl
    · exact absurd (within _ cycle) (by decide)
  have offers : maybeImporter.Offers ⟨14⟩ .undefined := ⟨.union, rfl, by decide, .inl rfl⟩
  exact .member offers free (.undefined rfl rfl)

/-- The members of the object are imported as different nodes, and neither is wrapped, so that the
tree of the object holds the second one as it is. -/
theorem toOptional_alike_maybeLists :
    maybeImporter.Meets ⟨15⟩ maybeImporter.start ⟨14⟩ maybeExpanded ∧
      maybeImporter.Meets ⟨15⟩ maybeImporter.start ⟨14⟩ maybeReferring ∧
      maybeExpanded.toOptional = maybeExpanded ∧ maybeReferring.toOptional = maybeReferring ∧
      maybeImporter.fromType ⟨15⟩ = .ok maybeTree ∧
      ∃ documentation, maybeReferring.toOptional.documented documentation ∈ maybeTree.preorder := by
  let guard := (maybeImporter.start.guard.enter ⟨15⟩).2
  let s := maybeImporter.start.begin guard ⟨15⟩
  let walk := maybeImporter.importType 2 ⟨14⟩
  have expanded : walk.Gives s maybeExpanded (walk.run s).2 := by rfl
  have referring : walk.Gives (walk.run s).2 maybeReferring (walk.run (walk.run s).2).2 := by rfl
  have enters : maybeImporter.Enters ⟨15⟩ maybeImporter.start guard ([] ++ ⟨14⟩ :: [⟨14⟩]) :=
    ⟨rfl, rfl, rfl, rfl⟩
  have again : maybeImporter.Enters ⟨15⟩ maybeImporter.start guard ([⟨14⟩] ++ ⟨14⟩ :: []) := enters
  have a : maybeImporter.Meets ⟨15⟩ maybeImporter.start ⟨14⟩ maybeExpanded :=
    .member enters .nil rfl (imports_of_gives expanded)
  have b : maybeImporter.Meets ⟨15⟩ maybeImporter.start ⟨14⟩ maybeReferring :=
    .member again (.cons (imports_of_gives expanded) .nil) rfl (imports_of_gives referring)
  exact ⟨a, b, (toOptional_alike a b).2.1 shows_maybeLists,
    (toOptional_alike b a).2.1 shows_maybeLists, fromType_maybeLists,
    (toOptional_alike b a).2.2.2 maybeTree fromType_maybeLists⟩

/-- Where the union itself has a name, the second member is a reference to it, and is wrapped. -/
example :
    let (union, store) := TypeStore.new.union [.string, .undefined]
    let store := store.setAliasName union "Maybe"
    let store := (store.object [⟨"a", union, true, false, none⟩, ⟨"b", union, true, false, none⟩]).2
    let expanded := Schema.composite .union [.primitive .string {}, Schema.undefinedNode]
      ⟨none, some "Maybe"⟩
    let reference := Schema.reference "Maybe" {}
    fromType ⟨store.checker, "types.ts", {}⟩ ⟨14⟩ = .ok (.object
      [("a", expanded), ("b", .composite .union [reference, Schema.undefinedNode] {})] {}) := by rfl

end TypeSchema.Importer
