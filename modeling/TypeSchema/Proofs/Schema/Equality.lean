import Mathlib.Data.List.Forall2
import Mathlib.Data.List.Perm.Subperm
import TypeSchema.Proofs.Lists
import TypeSchema.Proofs.Schema.Traversal
import TypeSchema.Schema.Equality
import TypeSchema.Schema.WellFormed

/-!
# Trees that are the same

Trees that are the same carry the same identifier, and their children correspond to each other, the
properties of objects by name. Among well-formed trees to be the same is symmetric and transitive;
that a tree is the same as itself takes finite numbers too.
-/

namespace TypeSchema

namespace Literal

variable {a b c : Literal}

lemma same_symm (h : a.same b = true) : b.same a = true := by
  cases a <;> cases b <;> simp only [same, Bool.false_eq_true, beq_iff_eq] at h ⊢
  case boolean.boolean => exact h.symm
  case string.string => exact h.symm
  case number.number =>
    simp only [Binary64.same, Bool.and_eq_true, Bool.or_eq_true, beq_iff_eq] at h ⊢
    exact ⟨h.1.symm, h.2.imp Eq.symm And.symm⟩

lemma same_trans (h : a.same b = true) (h' : b.same c = true) : a.same c = true := by
  cases a <;> cases b <;> simp only [same, Bool.false_eq_true, beq_iff_eq] at h
  case boolean.boolean => exact h ▸ h'
  case string.string => exact h ▸ h'
  case number.number x y =>
    cases c with
    | number z =>
      simp only [same, Binary64.same, Bool.and_eq_true, Bool.or_eq_true, beq_iff_eq] at h h' ⊢
      refine ⟨⟨h.1.1, h'.1.2⟩, ?_⟩
      rcases h.2 with rfl | ⟨zero, zero'⟩
      · exact h'.2
      · rcases h'.2 with rfl | ⟨-, zero''⟩
        · exact .inr ⟨zero, zero'⟩
        · exact .inr ⟨zero, zero''⟩
    | _ => simp [same] at h'

end Literal

namespace Schema

/-- The numbers in a tree are finite. -/
def Finite (node : Schema) : Prop :=
  ∀ inner ∈ node.preorder, ∀ number info, inner = .literal (.number number) info →
    number.isFinite = true

variable {a b c : Schema}

lemma Finite.of_mem {node inner : Schema} (f : node.Finite) (m : inner ∈ node.preorder) :
    inner.Finite := fun innermost m' => f innermost (preorder_trans m m')

lemma WellFormed.of_mem {node inner : Schema} (w : node.WellFormed) (h : inner ∈ node.preorder) :
    inner.WellFormed := fun part m => w part (preorder_trans h m)

lemma WellFormed.of_child {node child : Schema} (w : node.WellFormed) (m : child ∈ node.children) :
    child.WellFormed := w.of_mem (mem_preorder_of_child m mem_preorder_self)

lemma WellFormed.root {node : Schema} (w : node.WellFormed) : node.RootWellFormed :=
  w node mem_preorder_self

lemma identifier_eq_of_same (h : a.same b = true) : a.identifier = b.identifier := by
  have e : a.info = b.info := by
    cases a <;> cases b <;> simp only [same, Bool.false_eq_true] at h
    all_goals
      simp only [Bool.and_eq_true, beq_iff_eq] at h
      exact h.2
  unfold identifier
  rw [e]

lemma kind_eq_of_same (h : a.same b = true) : a.kind = b.kind := by
  cases a <;> cases b <;> simp only [same, Bool.false_eq_true] at h
  all_goals simp only [Bool.and_eq_true, beq_iff_eq] at h
  case primitive.primitive => exact congrArg Primitive.kind h.1
  case composite.composite => exact congrArg Connective.kind h.1.1
  all_goals rfl

/-- Lists are the same when their elements are, place by place. -/
lemma sameList_iff {as bs : List Schema} :
    sameList as bs = true ↔ List.Forall₂ (fun a b : Schema => a.same b = true) as bs := by
  induction as generalizing bs with
  | nil => cases bs <;> simp [sameList]
  | cons a as ih => cases bs <;> simp [sameList, ih]

/-- Properties are the same as others if each of them is found among those. -/
lemma sameProperties_of_lookup {properties others : List (String × Schema)}
    (h : ∀ property ∈ properties, ∃ node, others.lookup property.1 = some node ∧
      property.2.same node = true) : sameProperties properties others = true := by
  induction properties with
  | nil => rfl
  | cons property properties ih =>
    obtain ⟨node, e, s⟩ := h property List.mem_cons_self
    simp only [sameProperties, e, s, Bool.true_and]
    exact ih fun property m => h property (List.mem_cons_of_mem _ m)

/-- Every property has its counterpart among the others. -/
lemma exists_of_sameProperties {properties others : List (String × Schema)}
    (h : sameProperties properties others = true) :
    ∀ property ∈ properties, ∃ other ∈ others,
      property.1 = other.1 ∧ property.2.same other.2 = true := by
  induction properties with
  | nil =>
    intro property m
    cases m
  | cons property properties ih =>
    obtain ⟨name, node⟩ := property
    simp only [sameProperties, Bool.and_eq_true] at h
    obtain ⟨h1, h2⟩ := h
    intro property m
    cases m with
    | head =>
      cases e : others.lookup name with
      | none => simp [e] at h1
      | some node' =>
        simp only [e] at h1
        exact ⟨_, mem_of_lookup e, rfl, h1⟩
    | tail _ m => exact ih h2 property m

/-- Properties are the same as others if each of them has its counterpart of that name. -/
lemma sameProperties_iff {properties others : List (String × Schema)}
    (n : (others.map (·.1)).Nodup) :
    sameProperties properties others = true ↔ ∀ property ∈ properties, ∃ other ∈ others,
      property.1 = other.1 ∧ property.2.same other.2 = true := by
  refine ⟨exists_of_sameProperties, fun h => sameProperties_of_lookup fun property m => ?_⟩
  obtain ⟨⟨name, node⟩, mo, e, s⟩ := h property m
  exact ⟨node, e ▸ lookup_of_mem n mo, s⟩

/-- Objects with as many properties, all of different names, have each other's counterparts. -/
lemma exists_of_sameProperties' {properties others : List (String × Schema)}
    (h : sameProperties properties others = true) (l : properties.length = others.length)
    (n : (properties.map (·.1)).Nodup) (n' : (others.map (·.1)).Nodup) :
    ∀ other ∈ others, ∃ property ∈ properties,
      property.1 = other.1 ∧ property.2.same other.2 = true := by
  have sub : properties.map (·.1) ⊆ others.map (·.1) := by
    intro name m
    obtain ⟨property, mp, rfl⟩ := List.mem_map.1 m
    obtain ⟨other, mo, e, -⟩ := exists_of_sameProperties h property mp
    exact List.mem_map.2 ⟨other, mo, e.symm⟩
  have perm := (List.subperm_of_subset n sub).perm_of_length_le (by simp [l])
  intro other m
  obtain ⟨property, mp, e⟩ :=
    List.mem_map.1 (perm.mem_iff.2 (List.mem_map_of_mem (f := (·.1)) m))
  obtain ⟨other', mo', e', s⟩ := exists_of_sameProperties h property mp
  obtain rfl : other' = other := List.inj_on_of_nodup_map n' mo' m (e'.symm.trans e)
  exact ⟨property, mp, e, s⟩

/-- A tree is the same as itself if its numbers are finite and no object repeats a name. -/
theorem same_self {node : Schema} (w : node.WellFormed)
    (finite : ∀ inner ∈ node.preorder, ∀ number info, inner = literal (.number number) info →
      number.isFinite = true) : node.same node = true := by
  induction node using childrenInduction with
  | step node ih =>
    have ih : ∀ child ∈ node.children, child.same child = true := by
      intro child m
      exact ih child m (fun inner mi => w inner (mem_preorder_of_child m mi))
        fun inner mi => finite inner (mem_preorder_of_child m mi)
    have list : ∀ nodes : List Schema, (∀ node ∈ nodes, node.same node = true) →
        sameList nodes nodes = true :=
      fun nodes h => sameList_iff.2 (List.forall₂_same.2 h)
    cases node with
    | primitive => simp [same]
    | literal value info =>
      have v : value.same value = true := by
        cases value with
        | number number =>
          have f := finite _ mem_preorder_self number info rfl
          simp only [Binary64.isFinite, bne_iff_ne] at f
          simp [Literal.same, Binary64.same, Binary64.isNaN, f]
        | _ => simp [Literal.same]
      simp [same, v]
    | object properties =>
      have all : sameProperties properties properties = true := by
        apply sameProperties_of_lookup
        intro property m
        exact ⟨_, lookup_of_mem (w _ mem_preorder_self) m, ih _ (List.mem_map_of_mem m)⟩
      simp [same, all]
    | array element => simp [same, ih element List.mem_cons_self]
    | tuple elements => simp [same, list elements ih]
    | composite connective members => simp [same, list members ih]
    | record key value => simp [same, ih key (by simp [children]), ih value (by simp [children])]
    | function arguments returns =>
      simp [same, list arguments fun node m => ih node (List.mem_append_left _ m),
        ih returns (by simp [children])]
    | reference => simp [same]

/-- Of well-formed trees that are the same, either is the same as the other. -/
theorem same_symm (w : a.WellFormed) (w' : b.WellFormed) (h : a.same b = true) :
    b.same a = true := by
  induction a using childrenInduction generalizing b with
  | step a ih =>
    have child : ∀ x ∈ a.children, ∀ y ∈ b.children, x.same y = true → y.same x = true :=
      fun x mx y my => ih x mx (w.of_child mx) (w'.of_child my)
    have list : ∀ {as bs : List Schema}, as ⊆ a.children → bs ⊆ b.children →
        sameList as bs = true → sameList bs as = true := by
      intro as bs sub sub' s
      exact sameList_iff.2 ((forall₂_mem (sameList_iff.1 s)).imp fun x y m =>
        child x (sub m.1) y (sub' m.2.1) m.2.2).flip
    cases a <;> cases b <;> simp only [same, Bool.false_eq_true] at h
    all_goals simp only [Bool.and_eq_true, beq_iff_eq] at h
    case primitive.primitive => simp [same, h]
    case literal.literal => simp [same, h, Literal.same_symm h.1]
    case object.object properties _ others _ =>
      obtain ⟨⟨l, s⟩, rfl⟩ := h
      have back : sameProperties others properties = true := by
        refine (sameProperties_iff w.root).2 fun other mo => ?_
        obtain ⟨property, mp, e, s⟩ := exists_of_sameProperties' s l w.root w'.root other mo
        exact ⟨property, mp, e.symm,
          child _ (List.mem_map_of_mem mp) _ (List.mem_map_of_mem mo) s⟩
      simp [same, l, back]
    case array.array => simp [same, h, child _ List.mem_cons_self _ List.mem_cons_self h.1]
    case tuple.tuple elements _ others _ =>
      have back : sameList others elements = true := list (fun _ m => m) (fun _ m => m) h.1
      simp [same, h, back]
    case composite.composite members _ _ others _ =>
      have back : sameList others members = true := list (fun _ m => m) (fun _ m => m) h.1.2
      simp [same, h, back]
    case record.record =>
      have key := child _ List.mem_cons_self _ List.mem_cons_self h.1.1
      have value := child _ (List.mem_cons_of_mem _ List.mem_cons_self) _
        (List.mem_cons_of_mem _ List.mem_cons_self) h.1.2
      simp [same, h, key, value]
    case function.function =>
      have arguments := list (List.subset_append_left _ _) (List.subset_append_left _ _) h.1.1
      have returns := child _ (List.mem_append_right _ List.mem_cons_self) _
        (List.mem_append_right _ List.mem_cons_self) h.1.2
      simp [same, h, arguments, returns]
    case reference.reference => simp [same, h]

/-- Well-formed trees that are the same as one in between are the same. -/
theorem same_trans (w : a.WellFormed) (w' : b.WellFormed) (w'' : c.WellFormed)
    (h : a.same b = true) (h' : b.same c = true) : a.same c = true := by
  induction a using childrenInduction generalizing b c with
  | step a ih =>
    have child : ∀ x ∈ a.children, ∀ y ∈ b.children, ∀ z ∈ c.children,
        x.same y = true → y.same z = true → x.same z = true :=
      fun x mx y my z mz => ih x mx (w.of_child mx) (w'.of_child my) (w''.of_child mz)
    have list : ∀ {as bs cs : List Schema}, as ⊆ a.children → bs ⊆ b.children →
        cs ⊆ c.children → sameList as bs = true → sameList bs cs = true →
        sameList as cs = true := by
      intro as bs cs sub sub' sub'' s s'
      have first := forall₂_mem (sameList_iff.1 s)
      have second := forall₂_mem (sameList_iff.1 s')
      exact sameList_iff.2 (forall₂_comp first second fun x y z m m' =>
        child x (sub m.1) y (sub' m.2.1) z (sub'' m'.2.1) m.2.2 m'.2.2)
    -- Nodes of different kinds are not the same, so all three are of one kind.
    cases a <;> cases b <;> simp only [same, Bool.false_eq_true] at h
    all_goals cases c <;> simp only [same, Bool.false_eq_true] at h'
    all_goals simp only [Bool.and_eq_true, beq_iff_eq] at h h'
    case primitive.primitive.primitive => simp [same, h, h']
    case literal.literal.literal => simp [same, h, h', Literal.same_trans h.1 h'.1]
    case object.object.object properties _ others _ last _ =>
      obtain ⟨⟨l, s⟩, rfl⟩ := h
      obtain ⟨⟨l', s'⟩, rfl⟩ := h'
      have through : sameProperties properties last = true := by
        refine (sameProperties_iff w''.root).2 fun property mp => ?_
        obtain ⟨other, mo, e, s⟩ := exists_of_sameProperties s property mp
        obtain ⟨final, mf, e', s'⟩ := exists_of_sameProperties s' other mo
        exact ⟨final, mf, e.trans e', child _ (List.mem_map_of_mem mp) _ (List.mem_map_of_mem mo)
          _ (List.mem_map_of_mem mf) s s'⟩
      simp [same, l, l', through]
    case array.array.array =>
      have element := child _ List.mem_cons_self _ List.mem_cons_self _ List.mem_cons_self h.1 h'.1
      simp [same, h, h', element]
    case tuple.tuple.tuple elements _ _ _ last _ =>
      have through : sameList elements last = true :=
        list (fun _ m => m) (fun _ m => m) (fun _ m => m) h.1 h'.1
      simp [same, h, h', through]
    case composite.composite.composite members _ _ _ _ _ last _ =>
      have through : sameList members last = true :=
        list (fun _ m => m) (fun _ m => m) (fun _ m => m) h.1.2 h'.1.2
      simp [same, h, h', through]
    case record.record.record =>
      have key := child _ List.mem_cons_self _ List.mem_cons_self _ List.mem_cons_self
        h.1.1 h'.1.1
      have value := child _ (List.mem_cons_of_mem _ List.mem_cons_self) _
        (List.mem_cons_of_mem _ List.mem_cons_self) _
        (List.mem_cons_of_mem _ List.mem_cons_self) h.1.2 h'.1.2
      simp [same, h, h', key, value]
    case function.function.function =>
      have arguments := list (List.subset_append_left _ _) (List.subset_append_left _ _)
        (List.subset_append_left _ _) h.1.1 h'.1.1
      have returns := child _ (List.mem_append_right _ List.mem_cons_self) _
        (List.mem_append_right _ List.mem_cons_self) _
        (List.mem_append_right _ List.mem_cons_self) h.1.2 h'.1.2
      simp [same, h, h', arguments, returns]
    case reference.reference.reference => simp [same, h, h']

/-! ## Up to the order of children -/

/-- The children of nodes that are the same are the same, in some order. -/
lemma exists_perm_children (h : a.same b = true) (w : a.RootWellFormed) (w' : b.RootWellFormed) :
    ∃ nodes : List Schema, nodes.Perm b.children ∧
      List.Forall₂ (fun x y : Schema => x.same y = true) a.children nodes := by
  cases a <;> cases b <;> simp only [same, Bool.false_eq_true] at h
  all_goals simp only [Bool.and_eq_true, beq_iff_eq] at h
  case primitive.primitive => exact ⟨[], .nil, .nil⟩
  case literal.literal => exact ⟨[], .nil, .nil⟩
  case object.object properties _ others _ =>
    obtain ⟨⟨l, s⟩, -⟩ := h
    obtain ⟨found, all⟩ := exists_forall₂ (exists_of_sameProperties s)
    have names : List.Forall₂ Eq (properties.map (·.1)) (found.map (·.1)) := by
      rw [List.forall₂_map_left_iff, List.forall₂_map_right_iff]
      exact all.imp fun _ _ m => m.2.1
    have sub : found ⊆ others := fun other m => by
      obtain ⟨_, -, m, -⟩ := exists_of_forall₂ all.flip other m
      exact m
    have nodup : found.Nodup := by
      rw [List.forall₂_eq_eq_eq] at names
      exact .of_map (·.1) (names ▸ show (properties.map (·.1)).Nodup from w)
    have perm := (List.subperm_of_subset nodup sub).perm_of_length_le
      (Nat.le_of_eq (l.symm.trans all.length_eq))
    refine ⟨found.map (·.2), perm.map _, ?_⟩
    show List.Forall₂ _ (properties.map (·.2)) _
    rw [List.forall₂_map_left_iff, List.forall₂_map_right_iff]
    exact all.imp fun _ _ m => m.2.2
  case array.array => exact ⟨_, .refl _, .cons h.1 .nil⟩
  case tuple.tuple => exact ⟨_, .refl _, sameList_iff.1 h.1⟩
  case composite.composite => exact ⟨_, .refl _, sameList_iff.1 h.1.2⟩
  case record.record => exact ⟨_, .refl _, .cons h.1.1 (.cons h.1.2 .nil)⟩
  case function.function =>
    exact ⟨_, .refl _, List.rel_append (sameList_iff.1 h.1.1) (.cons h.1.2 .nil)⟩
  case reference.reference => exact ⟨[], .nil, .nil⟩

/-- Trees that are the same carry the same identifiers, in some order. -/
theorem identifiers_perm_of_same (w : a.WellFormed) (w' : b.WellFormed) (h : a.same b = true) :
    a.identifiers.Perm b.identifiers := by
  induction a using childrenInduction generalizing b with
  | step a ih =>
    obtain ⟨nodes, perm, all⟩ := exists_perm_children h w.root w'.root
    have mapped : ∀ {as bs : List Schema}, List.Forall₂ (fun x y : Schema =>
        x ∈ a.children ∧ y ∈ nodes ∧ x.same y = true) as bs →
        (as.flatMap identifiers).Perm (bs.flatMap identifiers) := by
      intro as bs all
      induction all with
      | nil => exact .nil
      | cons s _ ih' =>
        obtain ⟨mx, my, s⟩ := s
        exact (ih _ mx (w.of_child mx) (w'.of_child (perm.subset my)) s).append ih'
    rw [identifiers_eq_collect, identifiers_eq_collect, collect_eq, collect_eq,
      identifier_eq_of_same h]
    exact .append_left _ ((mapped (forall₂_mem all)).trans (perm.flatMap_right _))

end Schema

end TypeSchema
