import TypeSchema.Proofs.Json.Quoted
import TypeSchema.Proofs.Number.Text
import TypeSchema.Proofs.Syntax.Reader
import TypeSchema.Proofs.Syntax.Spliced

/-!
# Reading the parts of printed types

A part of a type is read whatever may follow it: an atom is followed by a suffix, a connective or
what ends a type, a factor by no suffix, and a term by no ampersand either.
-/

namespace TypeSchema

namespace TypeReader

open Json (Reader)
open Json.Reader

/-! ### What may follow a part of a type -/

/-- What may follow a whole type. -/
def Ends (rest : List Char) : Prop := ∀ c ∈ rest.head?, c ∈ ",;)]>?:".toList

/-- What may follow an atom. -/
def Stops (rest : List Char) : Prop :=
  ∀ c ∈ rest.head?, c = ' ' ∨ c = '[' ∨ c ∈ ",;)]>?:".toList

/-- What may follow a member of a union. -/
def EndsTerm (rest : List Char) : Prop := " | ".toList <+: rest ∨ Ends rest

/-- What may follow a member of an intersection. -/
def EndsFactor (rest : List Char) : Prop := " & ".toList <+: rest ∨ EndsTerm rest

variable {number : List Char → Option Binary64} {inner : Nat → Reader TypeExpr} {depth level : Nat}
  {name : String} {type : TypeExpr} {text mid rest : List Char}

lemma stops_cons {c : Char} (m : c = ' ' ∨ c = '[' ∨ c ∈ ",;)]>?:".toList) :
    Stops (c :: rest) := by
  rintro d ⟨⟩
  exact m

lemma ends_cons {c : Char} (m : c ∈ ",;)]>?:".toList) : Ends (c :: rest) := by
  rintro d ⟨⟩
  exact m

lemma Stops.inert (stops : Stops rest) :
    ∀ c ∈ rest.head?, Text.continuesIdentifier c = false ∧ isNumeral c = false ∧ c ≠ '<' := by
  have all : (",;)]>?:".toList.all fun c =>
      !Text.continuesIdentifier c && !isNumeral c && c != '<') = true := by decide
  intro c m
  obtain rfl | rfl | m := stops c m
  · decide
  · decide
  · simpa [and_assoc] using List.all_eq_true.1 all c m

lemma Ends.stops (ends : Ends rest) : Stops rest := fun c m => .inr (.inr (ends c m))

lemma EndsFactor.stops (ends : EndsFactor rest) : Stops rest := by
  obtain ⟨_, rfl⟩ | ⟨_, rfl⟩ | ends := ends
  · exact stops_cons (by decide)
  · exact stops_cons (by decide)
  · exact ends.stops

/-- No suffix stands behind a member of an intersection. -/
lemma EndsFactor.suffixes (ends : EndsFactor rest) : suffixes type rest = (type, rest) := by
  obtain ⟨_, rfl⟩ | ⟨_, rfl⟩ | ends := ends
  · rfl
  · rfl
  · cases rest with
    | nil => rfl
    | cons c rest =>
      have other : c ≠ '[' := by
        rintro rfl
        exact absurd (ends '[' rfl) (by decide)
      unfold TypeReader.suffixes
      split
      · rename_i e
        cases e
        exact absurd rfl other
      · rfl

lemma Ends.not_space (ends : Ends rest) {cs : List Char} : ¬ ' ' :: cs <+: rest := by
  rintro ⟨_, rfl⟩
  exact absurd (ends ' ' rfl) (by decide)

lemma EndsTerm.not_ampersand (ends : EndsTerm rest) : ¬ " & ".toList <+: rest := by
  obtain ⟨_, rfl⟩ | ends := ends
  · rintro ⟨_, e⟩
    cases e
  · exact ends.not_space

/-! ### Names and numbers -/

lemma continuesIdentifier_of_starts {c : Char} (h : Text.startsIdentifier c = true) :
    Text.continuesIdentifier c = true := by
  simp only [Text.startsIdentifier, Text.continuesIdentifier, Text.isAlphanumeric,
    Bool.or_eq_true] at h ⊢
  obtain (h | h) | h := h
  · exact .inl (.inl (.inl h))
  · exact .inl (.inr h)
  · exact .inr h

lemma startsIdentifier_of_isDigit {c : Char} (h : c.isDigit = true) :
    Text.startsIdentifier c = false := by
  have range : 48 ≤ c.toNat ∧ c.toNat ≤ 57 := by
    simpa [Char.isDigit, UInt32.le_iff_toNat_le] using h
  have digits : ∀ n ≤ 57, 48 ≤ n → Text.startsIdentifier (Char.ofNat n) = false := by decide
  rw [← Char.ofNat_toNat c]
  exact digits _ range.2 range.1

/-- An identifier starts with one of its characters, and has no others. -/
lemma exists_cons_of_isIdentifier (h : Text.isIdentifier name = true) :
    ∃ c cs, name.toList = c :: cs ∧ Text.startsIdentifier c = true ∧
      ∀ d ∈ name.toList, Text.continuesIdentifier d = true := by
  unfold Text.isIdentifier at h
  cases e : name.toList with
  | nil =>
    rw [e] at h
    cases h
  | cons c cs =>
    rw [e, Bool.and_eq_true, List.all_eq_true] at h
    exact ⟨c, cs, rfl, h.1, List.forall_mem_cons.2 ⟨continuesIdentifier_of_starts h.1, h.2⟩⟩

lemma reads_identifier (h : Text.isIdentifier name = true)
    (stops : Stops rest ∨ rest.head? = some '<') :
    identifier.Reads (name.toList ++ rest) name rest := by
  obtain ⟨_, _, _, _, all⟩ := exists_cons_of_isIdentifier h
  have stop : ∀ c ∈ rest.head?, Text.continuesIdentifier c = false := by
    intro c m
    obtain stops | e := stops
    · exact (stops.inert c m).1
    · rw [e] at m
      cases m
      rfl
  exact (reads_takeRun all stop).bind (reads_pure.2 ⟨String.ofList_toList, rfl⟩)

/-- A name is read for what it stands for. -/
lemma reads_atom_name (h : Text.isIdentifier name = true)
    (stops : Stops rest ∨ rest.head? = some '<')
    (h' : (nameEnd inner level name).Reads rest type mid) :
    (atom number inner level).Reads (name.toList ++ rest) type mid := by
  have r := reads_identifier h stops
  obtain ⟨c, cs, e, starts, _⟩ := exists_cons_of_isIdentifier h
  rw [e] at r ⊢
  refine Reads.bind (reads_get.2 ⟨rfl, rfl⟩) ?_
  simp only [List.cons_append, List.head?_cons, if_pos starts]
  exact r.bind h'

lemma reads_nameEnd_keyword (word : Keyword) :
    (nameEnd inner level word.text).Reads rest (.keyword word) rest := by
  cases word <;> rfl

lemma reads_nameEnd_boolean (value : Bool) :
    (nameEnd inner level (Literal.boolText value)).Reads rest (.literal (.boolean value)) rest := by
  cases value <;> rfl

lemma nameEnd_eq (h : IsTypeName name) :
    nameEnd inner level name = do
      if ← accept "<" then return .named name (← bracketed ">" (inner level))
      else return .named name [] := by
  rw [nameEnd, if_neg h.notTrue, if_neg h.notFalse, h.notKeyword]

/-- A name alone is read. -/
lemma reads_atom_named (h : IsTypeName name) (stops : Stops rest) :
    (atom number inner level).Reads (name.toList ++ rest) (.named name []) rest := by
  refine reads_atom_name h.isIdentifier (.inl stops) ?_
  have other : ¬ "<".toList <+: rest := by
    rintro ⟨_, rfl⟩
    exact (stops.inert '<' rfl).2.2 rfl
  rw [nameEnd_eq h]
  exact (reads_accept_false other).bind (reads_pure.2 ⟨rfl, rfl⟩)

lemma isNumeral_text {x : Binary64} (finite : x.isFinite = true) :
    ∃ c cs, x.text.toList = c :: cs ∧ Text.startsIdentifier c = false ∧
      ∀ d ∈ x.text.toList, isNumeral d = true := by
  obtain ⟨c, cs, e, digit, digits⟩ := NumberFormat.magnitudeText_eq_cons x
  have first : isNumeral c = true := by simp [isNumeral, digit]
  have others : ∀ d ∈ cs, isNumeral d = true := by
    intro d m
    obtain h | rfl := digits d m
    · simp [isNumeral, h]
    · rfl
  rw [Binary64.text_eq finite, String.toList_ofList, NumberFormat.finiteText, e]
  split_ifs
  · exact ⟨'-', c :: cs, rfl, rfl,
      List.forall_mem_cons.2 ⟨rfl, List.forall_mem_cons.2 ⟨first, others⟩⟩⟩
  · exact ⟨c, cs, rfl, startsIdentifier_of_isDigit digit, List.forall_mem_cons.2 ⟨first, others⟩⟩

lemma reads_atom_number {x : Binary64} (finite : x.isFinite = true)
    (known : number x.text.toList = some x) (stops : Stops rest) :
    (atom number inner level).Reads (x.text.toList ++ rest) (.literal (.number x)) rest := by
  obtain ⟨c, cs, e, other, all⟩ := isNumeral_text finite
  have r := reads_takeRun all fun c m => (stops.inert c m).2.1
  have numeral : isNumeral c = true := all c (by rw [e]; exact List.mem_cons_self)
  rw [e] at r known ⊢
  refine Reads.bind (reads_get.2 ⟨rfl, rfl⟩) ?_
  simp only [List.cons_append, List.head?_cons, other, numeral, if_true, Bool.false_eq_true,
    if_false]
  refine r.bind ?_
  rw [known]
  exact reads_pure.2 ⟨rfl, rfl⟩

lemma reads_atom_string (s : String) :
    (atom number inner level).Reads ((Text.quoted s).toList ++ rest) (.literal (.string s))
      rest := by
  have r : (ofStep Json.stringAfterQuote).Reads (Text.quotedBody s.toList ++ '"' :: rest) s rest :=
    Json.stringAfterQuote_quotedBody s rest
  rw [Json.toList_quoted, List.cons_append, List.append_assoc]
  show (ofStep Json.stringAfterQuote >>= fun s => pure (TypeExpr.literal (.string s))).Reads _ _ _
  exact r.bind (reads_pure.2 ⟨rfl, rfl⟩)

/-! ### Suffixes and connectives -/

/-- An atom is read as a factor together with the suffixes behind it. -/
lemma reads_factor_of_atom (h : (atom number inner level).Reads text type rest) :
    (factor number inner level).Reads text (suffixes type rest).1 (suffixes type rest).2 :=
  h.bind rfl

section

variable {connective : Connective} {item : Reader TypeExpr}

/-- A type with no connective behind it is read as it is. -/
lemma reads_composed_single (h : item.Reads text type rest)
    (last : ¬ connective.separator.toList <+: rest) :
    (composed connective item).Reads text type rest := by
  refine Reads.bind (reads_get.2 ⟨rfl, rfl⟩) (Reads.bind (a := [type]) ?_ (reads_pure.2 ⟨rfl, rfl⟩))
  exact h.bind ((reads_accept_false last).bind (reads_pure.2 ⟨rfl, rfl⟩))

/-- Types with a connective between them are read as one. -/
lemma reads_composed {types : List TypeExpr} {f : TypeExpr → String} (many : 2 ≤ types.length)
    (last : ¬ connective.separator.toList <+: rest)
    (h : ∀ type ∈ types, ∀ mid, connective.separator.toList <+: mid ∨ mid = rest →
      item.Reads ((f type).toList ++ mid) type mid) :
    (composed connective item).Reads
      ((connective.separator.intercalate (types.map f)).toList ++ rest)
      (.composite connective types) rest := by
  have some : connective.separator.toList ≠ [] := by cases connective <;> decide
  have enough := length_le_intercalate some (types.map f)
  rw [List.length_map] at enough
  refine Reads.bind (reads_get.2 ⟨rfl, rfl⟩) (Reads.bind (reads_separated ?_ ?_ last h) ?_)
  · exact List.ne_nil_of_length_pos (Nat.lt_of_succ_lt many)
  · rw [List.length_append]
    omega
  · match types, many with
    | _ :: _ :: _, _ => exact reads_pure.2 ⟨rfl, rfl⟩

end

/-- What is read as a factor is read as a type where a type ends. -/
lemma reads_of_factor (h : (factor number (read number depth) level).Reads text
    (suffixes type rest).1 (suffixes type rest).2) (ends : Ends rest) :
    (read number (depth + 1) level).Reads text type rest := by
  have factor : EndsFactor rest := .inr (.inr ends)
  rw [factor.suffixes] at h
  exact reads_composed_single (reads_composed_single h ends.not_space) ends.not_space

lemma reads_of_atom (h : (atom number (read number depth) level).Reads text type rest)
    (ends : Ends rest) : (read number (depth + 1) level).Reads text type rest :=
  reads_of_factor (reads_factor_of_atom h) ends

/-! ### Brackets -/

lemma reads_atom_object (h : (objectEnd inner level).Reads text type rest) :
    (atom number inner level).Reads ('\x7b' :: text) type rest := h

lemma reads_atom_tuple (h : (tupleEnd inner level).Reads text type rest) :
    (atom number inner level).Reads ('[' :: text) type rest := h

/-- No type starts with a closing bracket. -/
lemma not_reads_close {c : Char} (m : c ∈ [')', ']', '>']) :
    ¬ (read number depth level).Reads (c :: text) type rest := by
  have refused : read number depth level (c :: text) = .error .malformed := by
    cases depth with
    | zero => rfl
    | succ depth =>
      simp only [List.mem_cons, List.not_mem_nil, or_false] at m
      obtain rfl | rfl | rfl := m <;> rfl
  intro h
  cases refused.symm.trans h

lemma reads_atom_group (h : (inner level).Reads text type (')' :: rest)) :
    (atom number inner level).Reads ('(' :: text) type rest := by
  have r : (groupEnd inner level).Reads text type rest :=
    h.bind (Reads.bind (reads_word.2 rfl) (reads_pure.2 ⟨rfl, rfl⟩))
  show tryCatch (groupEnd inner level text) _ = _
  rw [r]
  rfl

/-- What is no type in parentheses is a function type. -/
lemma reads_atom_function (h : (functionEnd inner level).Reads text type rest)
    (other : ∀ type rest, ¬ (groupEnd inner level).Reads text type rest) :
    (atom number inner level).Reads ('(' :: text) type rest := by
  show tryCatch (groupEnd inner level text) _ = _
  cases e : groupEnd inner level text with
  | ok p => exact absurd e (other p.1 p.2)
  | error fault => exact h

/-! ### Members of objects and functions -/

lemma reads_signature {nameReader : Reader String} {typeReader : Reader TypeExpr}
    {nameText : String} {isOptional : Bool}
    (h : ∀ rest, Stops rest → nameReader.Reads (nameText.toList ++ rest) name rest)
    (h' : typeReader.Reads text type rest) :
    (signature nameReader typeReader).Reads
      ((nameText ++ optionalMark isOptional ++ ": ").toList ++ text) ⟨name, isOptional, type⟩
      rest := by
  have typed : (do
      word ": ".toList
      return ⟨name, isOptional, ← typeReader⟩ : Reader (Parameter TypeExpr)).Reads
        (": ".toList ++ text) ⟨name, isOptional, type⟩ rest :=
    Reads.bind (reads_word.2 rfl) (h'.bind (reads_pure.2 ⟨rfl, rfl⟩))
  rw [String.toList_append, String.toList_append, List.append_assoc, List.append_assoc]
  cases isOptional with
  | true => exact (h _ (stops_cons (by decide))).bind (reads_accept.bind typed)
  | false =>
    have other : ¬ "?".toList <+: ": ".toList ++ text := by
      rintro ⟨_, e⟩
      cases e
    exact (h _ (stops_cons (by decide))).bind ((reads_accept_false other).bind typed)

lemma reads_propertyName (stops : Stops rest) :
    propertyName.Reads ((propertyNameText name).toList ++ rest) name rest := by
  unfold propertyNameText
  split_ifs with h
  · have r := reads_identifier h (.inl stops)
    obtain ⟨c, cs, e, starts, _⟩ := exists_cons_of_isIdentifier h
    have other : c ≠ '"' := by
      rintro rfl
      exact absurd starts (by decide)
    rw [e] at r ⊢
    refine Reads.bind (reads_get.2 ⟨rfl, rfl⟩) ?_
    simpa only [List.cons_append, List.head?_cons, Option.some.injEq, other, if_false] using r
  · have r : (ofStep Json.stringAfterQuote).Reads (Text.quotedBody name.toList ++ '"' :: rest) name
        rest :=
      Json.stringAfterQuote_quotedBody name rest
    rw [Json.toList_quoted, List.cons_append, List.append_assoc]
    exact r

lemma indentation_succ (level : Nat) :
    (indentation (level + 1)).toList = (indentation level).toList ++ "    ".toList := by
  rw [indentation, indentation, String.toList_ofList, String.toList_ofList, Nat.mul_succ,
    ← List.replicate_append_replicate]
  rfl

lemma length_le_printProperties (level : Nat) (members : List (PropertySignature TypeExpr)) :
    members.length ≤ (TypeExpr.printProperties level members).toList.length := by
  induction members with
  | nil => exact Nat.zero_le _
  | cons member members ih =>
    have line : 1 ≤ (TypeExpr.propertyText level member).toList.length := by
      rw [TypeExpr.propertyText, String.toList_append, List.length_append]
      exact Nat.le_add_left_of_le (by decide)
    rw [TypeExpr.printProperties_cons, String.toList_append, List.length_append, List.length_cons]
    omega

/-- The lines of an object type are read up to the closing brace of their level. -/
lemma reads_properties {members : List (PropertySignature TypeExpr)} {count : Nat}
    (enough : members.length < count)
    (undocumented : ∀ member ∈ members, member.documentation = none)
    (h : ∀ member ∈ members, ∀ rest, Ends rest →
      (inner (level + 1)).Reads ((member.type.printAt (level + 1)).toList ++ rest) member.type
        rest) :
    (properties level (inner (level + 1)) count).Reads
      ((TypeExpr.printProperties (level + 1) members).toList ++
        ((indentation level ++ "\x7d").toList ++ rest)) members rest := by
  induction members generalizing count with
  | nil =>
    obtain ⟨count, rfl⟩ := Nat.exists_eq_add_one_of_ne_zero (Nat.ne_of_gt enough)
    exact reads_accept.bind (reads_pure.2 ⟨rfl, rfl⟩)
  | cons member members ih =>
    obtain ⟨count, rfl⟩ := Nat.exists_eq_add_one.2 (Nat.zero_lt_of_lt enough)
    have others := ih (Nat.lt_of_succ_lt_succ enough)
      (fun member m => undocumented member (List.mem_cons_of_mem _ m))
      (fun member m => h member (List.mem_cons_of_mem _ m))
    obtain ⟨name, isOptional, type, documentation⟩ := member
    obtain rfl : documentation = none := undocumented _ List.mem_cons_self
    generalize behind_eq : (TypeExpr.printProperties (level + 1) members).toList ++
      ((indentation level ++ "\x7d").toList ++ rest) = behind at others
    have split : (TypeExpr.printProperties (level + 1)
          (⟨name, isOptional, type, none⟩ :: members)).toList ++
          ((indentation level ++ "\x7d").toList ++ rest) =
        (indentation (level + 1)).toList ++
          ((propertyNameText name ++ optionalMark isOptional ++ ": ").toList ++
            ((type.printAt (level + 1)).toList ++ (";\n".toList ++ behind))) := by
      rw [TypeExpr.printProperties_cons, TypeExpr.propertyText, ← behind_eq]
      simp only [String.toList_append, List.append_assoc, String.toList_empty, List.nil_append]
    -- a member stands deeper than the brace
    have other : ¬ (indentation level ++ "\x7d").toList <+: (indentation (level + 1)).toList ++
        ((propertyNameText name ++ optionalMark isOptional ++ ": ").toList ++
          ((type.printAt (level + 1)).toList ++ (";\n".toList ++ behind))) := by
      rw [indentation_succ, List.append_assoc, String.toList_append, List.prefix_append_right_inj]
      rintro ⟨_, e⟩
      cases e
    rw [split]
    refine (reads_accept_false other).bind (Reads.bind (reads_word.2 rfl) ?_)
    refine (reads_signature (fun _ stops => reads_propertyName stops)
      (h _ List.mem_cons_self _ (ends_cons (by decide)))).bind ?_
    exact Reads.bind (reads_word.2 rfl) (others.bind (reads_pure.2 ⟨rfl, rfl⟩))

end TypeReader

end TypeSchema
