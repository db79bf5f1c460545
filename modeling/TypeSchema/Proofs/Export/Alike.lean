import Mathlib.Logic.Relation
import TypeSchema.Proofs.Export.Declared
import TypeSchema.Proofs.Export.Identifiers

/-!
# Nodes of one identifier

Nodes that carry one identifier are compared with the first of them, and only one is exported. Nodes
that are `Alike` carry the same identifier and have parts that are alike, so that whatever one of
them exposes, the other one does too.
-/

namespace TypeSchema.Schema

variable {a b : Schema}

/-- What is the same as an optional member is one of the same type. -/
lemma optionalType?_of_same {type : Schema} (h : a.same b = true)
    (e : a.optionalType? = some type) :
    ∃ type', b.optionalType? = some type' ∧ type.same type' = true := by
  obtain ⟨info, info', rfl⟩ := optionalType?_eq_some.1 e
  cases b with
  | composite connective members info'' =>
    simp only [same, Bool.and_eq_true, beq_iff_eq, sameList_iff] at h
    obtain ⟨⟨rfl, h⟩, -⟩ := h
    obtain ⟨type', others, h1, tail, rfl⟩ := List.forall₂_cons_left_iff.1 h
    obtain ⟨undefined, rest, h2, last, rfl⟩ := List.forall₂_cons_left_iff.1 tail
    obtain rfl := List.forall₂_nil_left_iff.1 last
    cases undefined with
    | primitive type'' =>
      simp only [same, Bool.and_eq_true, beq_iff_eq] at h2
      obtain ⟨rfl, -⟩ := h2
      exact ⟨type', optionalType?_eq_some.2 ⟨_, _, rfl⟩, h1⟩
    | _ => simp [same] at h2
  | _ => simp [same] at h

/-- Only an optional member is the same as an optional one. -/
lemma optionalType?_of_same' {type' : Schema} (h : a.same b = true)
    (e : b.optionalType? = some type') : ∃ type, a.optionalType? = some type := by
  obtain ⟨info, info', rfl⟩ := optionalType?_eq_some.1 e
  cases a with
  | composite connective members info'' =>
    simp only [same, Bool.and_eq_true, beq_iff_eq, sameList_iff] at h
    obtain ⟨⟨rfl, h⟩, -⟩ := h
    obtain ⟨type, others, -, tail, rfl⟩ := List.forall₂_cons_right_iff.1 h
    obtain ⟨undefined, rest, h2, last, rfl⟩ := List.forall₂_cons_right_iff.1 tail
    obtain rfl := List.forall₂_nil_right_iff.1 last
    cases undefined with
    | primitive type'' =>
      simp only [same, Bool.and_eq_true, beq_iff_eq] at h2
      obtain ⟨rfl, -⟩ := h2
      exact ⟨type, optionalType?_eq_some.2 ⟨_, _, rfl⟩⟩
    | _ => simp [same] at h2
  | _ => simp [same] at h

/-- Members that are the same are split alike. -/
def SameSplit (p q : Schema × Bool) : Prop := p.1.same q.1 = true ∧ p.2 = q.2

lemma sameSplit_splitOptional (h : a.same b = true) :
    SameSplit a.splitOptional b.splitOptional := by
  have e := identifier_eq_of_same h
  unfold splitOptional
  rw [e]
  cases b.identifier with
  | some identifier => exact ⟨h, rfl⟩
  | none =>
    cases t : a.optionalType? with
    | some type =>
      obtain ⟨type', t', s⟩ := optionalType?_of_same h t
      rw [t']
      exact ⟨s, rfl⟩
    | none =>
      cases t' : b.optionalType? with
      | some type' =>
        obtain ⟨type, t''⟩ := optionalType?_of_same' h t'
        rw [t] at t''
        cases t''
      | none => exact ⟨h, rfl⟩

/-- Lists that are the same are split alike at their ends. -/
lemma sameSplit_splitRun {as bs : List Schema}
    (h : List.Forall₂ (fun a b : Schema => a.same b = true) as bs) :
    List.Forall₂ SameSplit (splitRun as).1 (splitRun bs).1 ∧ (splitRun as).2 = (splitRun bs).2 := by
  induction h with
  | nil => exact ⟨.nil, rfl⟩
  | @cons a b as bs s _ ih =>
    obtain ⟨ih1, ih2⟩ := ih
    have split := sameSplit_splitOptional s
    simp only [splitRun]
    rw [ih2, split.2]
    split
    case isTrue => exact ⟨.cons split ih1, rfl⟩
    case isFalse => exact ⟨.cons ⟨s, rfl⟩ ih1, rfl⟩

/-- Everything in one of two lists corresponds to something in the other one. -/
def Correspond (R : Schema → Schema → Prop) (ps qs : List (Schema × Bool)) : Prop :=
  (∀ p ∈ ps, ∃ q ∈ qs, R p.1 q.1) ∧ ∀ q ∈ qs, ∃ p ∈ ps, R p.1 q.1

lemma correspond_of_forall₂ {R : Schema → Schema → Prop} {ps qs : List (Schema × Bool)}
    (h : List.Forall₂ (fun p q => R p.1 q.1) ps qs) : Correspond R ps qs := by
  induction h with
  | nil => exact ⟨fun _ m => absurd m List.not_mem_nil, fun _ m => absurd m List.not_mem_nil⟩
  | @cons p q ps qs r _ ih =>
    constructor
    · intro p' m
      cases m with
      | head => exact ⟨q, List.mem_cons_self, r⟩
      | tail _ m =>
        obtain ⟨q', m', r'⟩ := ih.1 p' m
        exact ⟨q', List.mem_cons_of_mem _ m', r'⟩
    · intro q' m
      cases m with
      | head => exact ⟨p, List.mem_cons_self, r⟩
      | tail _ m =>
        obtain ⟨p', m', r'⟩ := ih.2 q' m
        exact ⟨p', List.mem_cons_of_mem _ m', r'⟩

/-- The parts of nodes that are the same correspond to each other. -/
theorem correspond_parts_of_same (h : a.same b = true) (w : a.RootWellFormed)
    (w' : b.RootWellFormed) : Correspond (fun p q => p.same q = true) a.parts b.parts := by
  have unsplit : ∀ {as bs : List Schema}, List.Forall₂ (fun a b : Schema => a.same b = true) as bs →
      List.Forall₂ (fun p q : Schema × Bool => p.1.same q.1 = true) (as.map fun a => (a, false))
        (bs.map fun b => (b, false)) := by
    intro as bs h
    rw [List.forall₂_map_left_iff, List.forall₂_map_right_iff]
    exact h
  cases a <;> cases b <;> simp only [same, Bool.false_eq_true] at h
  all_goals simp only [Bool.and_eq_true, beq_iff_eq] at h
  case primitive.primitive => exact correspond_of_forall₂ .nil
  case literal.literal => exact correspond_of_forall₂ .nil
  case object.object properties _ others _ =>
    obtain ⟨⟨l, h⟩, -⟩ := h
    constructor
    · intro p m
      obtain ⟨property, mp, rfl⟩ := List.mem_map.1 m
      obtain ⟨other, mo, -, s⟩ := exists_of_sameProperties h property mp
      exact ⟨_, List.mem_map_of_mem mo, (sameSplit_splitOptional s).1⟩
    · intro q m
      obtain ⟨other, mo, rfl⟩ := List.mem_map.1 m
      obtain ⟨property, mp, -, s⟩ := exists_of_sameProperties' h l w w' other mo
      exact ⟨_, List.mem_map_of_mem mp, (sameSplit_splitOptional s).1⟩
  case array.array => exact correspond_of_forall₂ (.cons h.1 .nil)
  case tuple.tuple =>
    exact correspond_of_forall₂ ((sameSplit_splitRun (sameList_iff.1 h.1)).1.imp fun _ _ s => s.1)
  case composite.composite => exact correspond_of_forall₂ (unsplit (sameList_iff.1 h.1.2))
  case record.record => exact correspond_of_forall₂ (.cons h.1.1 (.cons h.1.2 .nil))
  case function.function =>
    apply correspond_of_forall₂
    have arguments := (sameSplit_splitRun (sameList_iff.1 h.1.1)).1.imp
      fun (p q : Schema × Bool) (s : SameSplit p q) => s.1
    exact List.rel_append arguments (.cons h.1.2 .nil)
  case reference.reference => exact correspond_of_forall₂ .nil

/-! ## Alike nodes -/

/-- The nodes are linked by comparisons of well-formed nodes that come out the same. -/
def Alike : Schema → Schema → Prop :=
  Relation.EqvGen fun a b => a.same b = true ∧ a.WellFormed ∧ b.WellFormed

lemma Alike.identifier_eq (h : Alike a b) : a.identifier = b.identifier := by
  induction h with
  | rel a b h => exact identifier_eq_of_same h.1
  | refl a => rfl
  | symm a b _ ih => exact ih.symm
  | trans a b c _ _ ih ih' => exact ih.trans ih'

lemma mem_preorder_of_part {node : Schema} {part : Schema × Bool} (h : part ∈ node.parts) :
    part.1 ∈ node.preorder :=
  mem_preorder_of_exported (mem_exported_of_part h mem_exported_self)

/-- The parts of nodes that are alike correspond to each other. -/
theorem Alike.correspond_parts (h : Alike a b) : Correspond Alike a.parts b.parts := by
  induction h with
  | rel a b h =>
    obtain ⟨s, w, w'⟩ := h
    obtain ⟨c, c'⟩ := correspond_parts_of_same s w.root w'.root
    constructor
    · intro p m
      obtain ⟨q, mq, s⟩ := c p m
      exact ⟨q, mq, .rel _ _ ⟨s, w.of_mem (mem_preorder_of_part m),
        w'.of_mem (mem_preorder_of_part mq)⟩⟩
    · intro q m
      obtain ⟨p, mp, s⟩ := c' q m
      exact ⟨p, mp, .rel _ _ ⟨s, w.of_mem (mem_preorder_of_part mp),
        w'.of_mem (mem_preorder_of_part m)⟩⟩
  | refl a => exact ⟨fun p m => ⟨p, m, .refl _⟩, fun p m => ⟨p, m, .refl _⟩⟩
  | symm a b _ ih =>
    constructor
    · intro q m
      obtain ⟨p, mp, s⟩ := ih.2 q m
      exact ⟨p, mp, .symm _ _ s⟩
    · intro p m
      obtain ⟨q, mq, s⟩ := ih.1 p m
      exact ⟨q, mq, .symm _ _ s⟩
  | trans a b c _ _ ih ih' =>
    constructor
    · intro p m
      obtain ⟨q, mq, s⟩ := ih.1 p m
      obtain ⟨r, mr, s'⟩ := ih'.1 q mq
      exact ⟨r, mr, .trans _ _ _ s s'⟩
    · intro r m
      obtain ⟨q, mq, s⟩ := ih'.2 r m
      obtain ⟨p, mp, s'⟩ := ih.2 q mq
      exact ⟨p, mp, .trans _ _ _ s' s⟩

/-- In a tree without conflicts, nodes that carry one identifier are alike. -/
theorem alike_of_identifier {node : Schema} {identifier : String} (w : node.WellFormed)
    (h : node.checkIdentifiers = .ok ()) (ma : a ∈ node.preorder) (mb : b ∈ node.preorder)
    (ea : a.identifier = some identifier) (eb : b.identifier = some identifier) : Alike a b := by
  have agree : Agree node.preorder :=
    (agree_iff_noClash fun _ m => w.of_mem m).2 (checkIdentifiers_eq_ok_iff.1 h).1
  rcases agree.same_of_mem ma mb ea eb with rfl | s | s
  · exact .refl _
  · exact .rel _ _ ⟨s, w.of_mem ma, w.of_mem mb⟩
  · exact .symm _ _ (.rel _ _ ⟨s, w.of_mem mb, w.of_mem ma⟩)

end TypeSchema.Schema
