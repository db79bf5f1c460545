import Mathlib.Data.List.DropRight
import Mathlib.Data.List.Forall2
import TypeSchema.Proofs.Json.Quoted
import TypeSchema.Proofs.Json.Reads

/-!
# Reading what is written compactly

The text of a value is read whatever closes it: a comma, a closing bracket or the end of the whole
text. What is written of the parts of an array or object is then read part by part.
-/

namespace TypeSchema

/-- The member of an object, as it is written. -/
def memberText (name text : String) : String := Text.quoted name ++ ":" ++ text

namespace Json.Reader

/-- What may stand behind a value. -/
def Closes (rest : List Char) : Prop := ∀ c ∈ rest.head?, c = ',' ∨ c = ']' ∨ c = '\x7d'

variable {α σ : Type} {value : Head → Reader α} {a : α} {found : Head} {text mid rest : List Char}

/-- The text is read for a value other than null, wherever it stands. -/
def Spells (value : Head → Reader α) (text : String) (a : α) : Prop :=
  ∀ rest, Closes rest → ∃ found mid, found ≠ .null ∧
    head.Reads (text.toList ++ rest) found mid ∧ (value found).Reads mid a rest

/-! ### Heads -/

lemma reads_head_quoted (s : String) (rest : List Char) :
    head.Reads ((Text.quoted s).toList ++ rest) (.string s) rest := by
  have r : (ofStep stringAfterQuote).Reads (Text.quotedBody s.toList ++ '"' :: rest) s rest :=
    stringAfterQuote_quotedBody s rest
  rw [toList_quoted, List.cons_append, List.append_assoc]
  -- a quote decides what is read, so the head is what stands after it
  show (ofStep stringAfterQuote >>= fun s => pure (Head.string s)).Reads _ _ _
  exact r.bind (reads_pure.2 ⟨rfl, rfl⟩)

lemma reads_head_array : head.Reads ('[' :: rest) .array rest := rfl

lemma reads_head_object : head.Reads ('\x7b' :: rest) .object rest := rfl

/-- A value starts behind the blanks, and not with the end of an array. -/
lemma Reads.start (h : head.Reads text found mid) :
    ∃ c start, peek.Reads text (some c) start ∧ c ≠ ']' ∧ head.Reads start found mid := by
  obtain ⟨next, start, seen, h⟩ := reads_bind.1 h
  cases next with
  | none => cases not_reads_fail h
  | some c =>
    obtain ⟨rfl, e⟩ := reads_peek.1 seen
    refine ⟨c, _, seen, ?_, Reads.bind (reads_peek.2 ⟨List.dropWhile_idempotent isBlank text, e⟩) h⟩
    rintro rfl
    cases not_reads_fail h

/-! ### Arrays -/

lemma reads_closeArray : closeArray.Reads (']' :: rest) () rest := rfl

lemma Reads.hasElement_true (h : head.Reads text found mid) :
    ∃ start, (hasElement true).Reads text true start ∧ head.Reads start found mid := by
  obtain ⟨c, start, seen, ne, h⟩ := h.start
  refine ⟨start, seen.bind ?_, h⟩
  simp only [if_neg ne]
  exact reads_pure.2 ⟨rfl, rfl⟩

lemma Reads.hasElement_false (h : head.Reads text found mid) :
    ∃ start, (hasElement false).Reads (',' :: text) true start ∧ head.Reads start found mid := by
  obtain ⟨c, start, seen, ne, h⟩ := h.start
  have comma : peek.Reads (',' :: text) (some ',') (',' :: text) := reads_peek.2 ⟨rfl, rfl⟩
  refine ⟨start, comma.bind ?_, h⟩
  simp only [Char.reduceEq, Bool.false_eq_true, if_false, if_true]
  refine Reads.bind ((reads_skip (u := ())).2 rfl) (seen.bind ?_)
  simp only [if_neg ne]
  exact reads_pure.2 ⟨rfl, rfl⟩

/-- The items behind the first one, each with the comma before it. -/
def following (items : List String) : List Char := items.flatMap fun item => ',' :: item.toList

lemma following_cons (item : String) (items : List String) :
    following (item :: items) = ',' :: (item.toList ++ following items) := by
  rw [following, List.flatMap_cons, List.cons_append, following]

lemma following_append (items items' : List String) :
    following (items ++ items') = following items ++ following items' := List.flatMap_append

lemma toList_intercalate_cons (first : String) (items : List String) :
    (String.intercalate "," (first :: items)).toList = first.toList ++ following items := by
  rw [String.toList_intercalate]
  induction items generalizing first with
  | nil => simp [following, List.intercalate]
  | cons item items ih =>
    have shift := ih item
    rw [List.map_cons] at shift
    rw [List.map_cons, List.map_cons, List.intercalate_cons_cons, shift]
    simp [following]

lemma length_le_following (items : List String) : items.length ≤ (following items).length := by
  induction items with
  | nil => exact Nat.zero_le _
  | cons item items ih =>
    simp only [following, List.flatMap_cons, List.length_append, List.length_cons] at ih ⊢
    omega

/-- Items close what stands before them. -/
lemma closes_following {items : List String} {c : Char} (close : c = ']' ∨ c = '\x7d') :
    Closes (following items ++ c :: rest) := by
  intro d m
  cases items with
  | nil =>
    cases m
    exact .inr close
  | cons item items =>
    cases m
    exact .inl rfl

/-- The elements of an array behind the first one are read. -/
lemma reads_elements {items : List String} {as : List α} {count : Nat}
    (h : List.Forall₂ (Spells value) items as) (enough : items.length < count) :
    (elements (do value (← head)) count false).Reads (following items ++ ']' :: rest) as
      (']' :: rest) := by
  induction h generalizing count with
  | nil =>
    obtain ⟨count, rfl⟩ := Nat.exists_eq_add_one_of_ne_zero (Nat.ne_of_gt enough)
    rfl
  | @cons item a items as spells _ ih =>
    obtain ⟨count, rfl⟩ := Nat.exists_eq_add_one.2 (Nat.zero_lt_of_lt enough)
    obtain ⟨found, mid, -, h, r⟩ := spells _ (closes_following (.inl rfl))
    obtain ⟨start, has, h⟩ := h.hasElement_false
    rw [following_cons, List.cons_append, List.append_assoc]
    refine has.bind (Reads.bind (h.bind r) ?_)
    exact Reads.bind (ih (Nat.lt_of_succ_lt_succ enough)) (reads_pure.2 ⟨rfl, rfl⟩)

/-- The elements of an array are read. -/
theorem reads_arrayEnd {items : List String} {as : List α}
    (h : List.Forall₂ (Spells value) items as) :
    (arrayEnd (do value (← head))).Reads
      ((String.intercalate "," items).toList ++ ']' :: rest) as rest := by
  refine Reads.bind (reads_get.2 ⟨rfl, rfl⟩)
    (Reads.bind ?_ (reads_closeArray.bind (reads_pure.2 ⟨rfl, rfl⟩)))
  cases h with
  | nil => rfl
  | @cons item a items as spells h =>
    obtain ⟨found, mid, -, h', r⟩ := spells _ (closes_following (.inl rfl))
    obtain ⟨start, has, h'⟩ := h'.hasElement_true
    rw [toList_intercalate_cons, List.append_assoc]
    refine has.bind (Reads.bind (h'.bind r) ?_)
    refine Reads.bind (reads_elements h ?_) (reads_pure.2 ⟨rfl, rfl⟩)
    have := length_le_following items
    simp only [List.length_append, List.length_cons]
    omega

/-! ### Objects -/

lemma reads_closeObject : closeObject.Reads ('\x7d' :: rest) () rest := rfl

/-- The members, given by their names and the texts of their values, are read one after the other
from one value into another. -/
inductive Fills (member : String → σ → Reader σ) : List (String × String) → σ → σ → Prop
  | nil {s} : Fills member [] s s
  | cons {name text items s s' s''} :
    (∀ rest, Closes rest → (member name s).Reads (':' :: (text.toList ++ rest)) s' rest) →
    Fills member items s' s'' →
    Fills member ((name, text) :: items) s s''

/-- A member is written as its name and its text. -/
def memberTexts (items : List (String × String)) : List String :=
  items.map fun item => memberText item.1 item.2

lemma memberTexts_cons (item : String × String) (items : List (String × String)) :
    memberTexts (item :: items) = memberText item.1 item.2 :: memberTexts items := rfl

lemma memberTexts_append (items items' : List (String × String)) :
    memberTexts (items ++ items') = memberTexts items ++ memberTexts items' := List.map_append

variable {member : String → σ → Reader σ} {items : List (String × String)} {s s' : σ}

lemma toList_memberText (name text : String) :
    (memberText name text).toList =
      '"' :: (Text.quotedBody name.toList ++ '"' :: ':' :: text.toList) := by
  rw [memberText, String.toList_append, String.toList_append, toList_quoted]
  simp

/-- The members of an object behind the first one are read. -/
lemma Fills.reads_members {count : Nat} (h : Fills member items s s')
    (enough : items.length < count) :
    (members member count false s).Reads (following (memberTexts items) ++ '\x7d' :: rest) s'
      ('\x7d' :: rest) := by
  induction h generalizing count with
  | nil =>
    obtain ⟨count, rfl⟩ := Nat.exists_eq_add_one_of_ne_zero (Nat.ne_of_gt enough)
    rfl
  | @cons name text items s s' s'' h _ ih =>
    obtain ⟨count, rfl⟩ := Nat.exists_eq_add_one.2 (Nat.zero_lt_of_lt enough)
    have split : following (memberTexts ((name, text) :: items)) ++ '\x7d' :: rest =
        ',' :: '"' :: (Text.quotedBody name.toList ++ '"' ::
          ':' :: (text.toList ++ (following (memberTexts items) ++ '\x7d' :: rest))) := by
      rw [memberTexts_cons, following_cons, toList_memberText]
      simp
    rw [split]
    refine Reads.bind (a := true) rfl (Reads.bind (stringAfterQuote_quotedBody name _) ?_)
    refine Reads.bind (h _ (closes_following (.inr rfl))) ?_
    exact ih (Nat.lt_of_succ_lt_succ enough)

/-- The members of an object are read. -/
theorem Fills.reads_objectEnd (h : Fills member items s s') :
    (objectEnd member s).Reads
      ((String.intercalate "," (memberTexts items)).toList ++ '\x7d' :: rest) s' rest := by
  refine Reads.bind (reads_get.2 ⟨rfl, rfl⟩)
    (Reads.bind ?_ (reads_closeObject.bind (reads_pure.2 ⟨rfl, rfl⟩)))
  cases h with
  | nil => rfl
  | @cons name text items _ s' _ h h' =>
    have split : (String.intercalate "," (memberTexts ((name, text) :: items))).toList ++
          '\x7d' :: rest =
        '"' :: (Text.quotedBody name.toList ++ '"' ::
          ':' :: (text.toList ++ (following (memberTexts items) ++ '\x7d' :: rest))) := by
      rw [memberTexts_cons, toList_intercalate_cons, toList_memberText]
      simp
    rw [split]
    refine Reads.bind (a := true) rfl (Reads.bind (stringAfterQuote_quotedBody name _) ?_)
    refine Reads.bind (h _ (closes_following (.inr rfl))) (h'.reads_members ?_)
    have many := length_le_following (memberTexts items)
    rw [memberTexts, List.length_map] at many
    simp only [memberTexts, List.length_append, List.length_cons]
    omega

end Json.Reader

end TypeSchema
