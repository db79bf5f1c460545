import TypeSchema.Proofs.Json.Quoted
import TypeSchema.Proofs.Syntax.Parts

/-!
# Comments in printed types

A comment runs from `/*` outside of a string literal to the first `*/` after it. `readParts` tells
comments, string literals and code apart. What is printed is read part by part: the text of each
part is read as code from its start to its end, whatever follows it, and the documentation of a
property is read as a comment if it does not itself hold the end of one.
-/

namespace TypeSchema

/-- What a character of a text belongs to. -/
inductive TextPart where
  | code
  | literal
  | comment
deriving DecidableEq, Repr

/-- What a reader is inside of. -/
inductive TextMode where
  | code
  | comment
  /-- A string literal, with the quote that ends it. -/
  | literal (quote : Char)
deriving DecidableEq, Repr

namespace Text

/-- The characters that start a string literal. -/
def isQuote (c : Char) : Bool := c == '"' || c == '\x27' || c == '\x60'

/-- The characters of a text with the parts that they belong to. -/
def readParts : TextMode → List Char → List (TextPart × Char)
  | _, [] => []
  | .code, '/' :: '*' :: rest => (.comment, '/') :: (.comment, '*') :: readParts .comment rest
  | .code, c :: rest =>
    if isQuote c then (.literal, c) :: readParts (.literal c) rest
    else (.code, c) :: readParts .code rest
  | .comment, '*' :: '/' :: rest => (.comment, '*') :: (.comment, '/') :: readParts .code rest
  | .comment, c :: rest => (.comment, c) :: readParts .comment rest
  | .literal quote, '\\' :: c :: rest =>
    (.literal, '\\') :: (.literal, c) :: readParts (.literal quote) rest
  | .literal quote, c :: rest =>
    (.literal, c) :: readParts (if c = quote then .code else .literal quote) rest

/-- Whether a character is neither in a comment nor white space outside of string literals. -/
def isVisible : TextPart × Char → Bool
  | (.code, c) => !isWhite c
  | (.literal, _) => true
  | (.comment, _) => false

/-- What is left of a text without its comments, up to white space. -/
def visible (text : String) : List (TextPart × Char) :=
  (readParts .code text.toList).filter isVisible

/-- A text without its comments. -/
def withoutComments (text : String) : String :=
  String.ofList (((readParts .code text.toList).filter (·.1 ≠ .comment)).map (·.2))

/-- A text holds the end of a comment. -/
def ClosesComment (text : List Char) : Prop := ['*', '/'] <:+: text

instance : DecidablePred ClosesComment :=
  fun text => inferInstanceAs (Decidable (['*', '/'] <:+: text))

variable {c : Char} {text more rest : List Char} {mode : TextMode}

/-- Every character belongs to a part. -/
lemma map_snd_readParts (mode : TextMode) (text : List Char) :
    (readParts mode text).map (·.2) = text := by
  fun_induction readParts mode text <;> simp_all

/-- A text in which no comment is read is left as it is without comments. -/
lemma withoutComments_eq {text : String}
    (h : ∀ part ∈ readParts .code text.toList, part.1 ≠ .comment) :
    withoutComments text = text := by
  have all : (readParts .code text.toList).filter (·.1 ≠ .comment) =
      readParts .code text.toList :=
    List.filter_eq_self.2 fun part m => decide_eq_true (h part m)
  rw [withoutComments, all, map_snd_readParts, String.ofList_toList]

/-! ## Texts that are read as they stand -/

/-- Read as code, the text has the given parts, and what follows it is read as code again. -/
def Scans (text : List Char) (parts : List (TextPart × Char)) : Prop :=
  ∀ rest, readParts .code (text ++ rest) = parts ++ readParts .code rest

namespace Scans

variable {parts parts' : List (TextPart × Char)}

lemma nil : Scans [] [] := fun _ => rfl

lemma append (h : Scans text parts) (h' : Scans more parts') :
    Scans (text ++ more) (parts ++ parts') := by
  intro rest
  rw [List.append_assoc, h, h', List.append_assoc]

/-- At the end of a text there is nothing else. -/
lemma readParts_eq (h : Scans text parts) : readParts .code text = parts := by
  have all := h []
  rw [List.append_nil] at all
  rw [all, readParts, List.append_nil]

end Scans

/-- Whether a character is read as code wherever code stands before it. -/
def isPlain (c : Char) : Bool := !isQuote c && c != '/'

lemma readParts_code_cons (h : isPlain c = true) :
    readParts .code (c :: rest) = (.code, c) :: readParts .code rest := by
  simp only [isPlain, Bool.and_eq_true, Bool.not_eq_true', bne_iff_ne] at h
  rw [readParts]
  · simp [h.1]
  · intro _ e
    exact absurd e h.2

lemma scans_plain (h : ∀ c ∈ text, isPlain c = true) : Scans text (text.map (.code, ·)) := by
  intro rest
  induction text with
  | nil => rfl
  | cons c text ih =>
    obtain ⟨first, others⟩ := List.forall_mem_cons.1 h
    rw [List.cons_append, readParts_code_cons first, ih others]
    rfl

/-! ## String literals -/

lemma readParts_literal_cons {quote : Char} (h : c ≠ '\\') (h' : c ≠ quote) :
    readParts (.literal quote) (c :: rest) = (.literal, c) :: readParts (.literal quote) rest := by
  rw [readParts]
  · rw [if_neg h']
  · intro _ _ e
    exact absurd e h

/-- A digit of an escape neither ends a string literal nor starts another escape. -/
lemma hexDigit_ne (n : Nat) : hexDigit n ≠ '\\' ∧ hexDigit n ≠ '"' := by
  have digits : ∀ m < 16, Nat.digitChar m ≠ '\\' ∧ Nat.digitChar m ≠ '"' := by decide
  exact digits (n % 16) (Nat.mod_lt _ (by decide))

/-- A character is quoted in a way that does not end the string literal. -/
lemma readParts_quotedChar :
    readParts (.literal '"') (quotedChar c ++ rest) =
      (quotedChar c).map (.literal, ·) ++ readParts (.literal '"') rest := by
  unfold quotedChar
  split_ifs with quote backslash
  iterate 7 rfl
  · obtain ⟨first, first'⟩ := hexDigit_ne (c.toNat / 16)
    obtain ⟨second, second'⟩ := hexDigit_ne c.toNat
    have escape : readParts (.literal '"')
        (['\\', 'u', '0', '0', hexDigit (c.toNat / 16), hexDigit c.toNat] ++ rest) =
        (.literal, '\\') :: (.literal, 'u') :: (.literal, '0') :: (.literal, '0') ::
          readParts (.literal '"') (hexDigit (c.toNat / 16) :: hexDigit c.toNat :: rest) := rfl
    rw [escape, readParts_literal_cons first first', readParts_literal_cons second second']
    rfl
  · exact readParts_literal_cons backslash quote

lemma readParts_quotedBody (cs : List Char) :
    readParts (.literal '"') (quotedBody cs ++ '"' :: rest) =
      (quotedBody cs ++ ['"']).map (.literal, ·) ++ readParts .code rest := by
  induction cs with
  | nil => rfl
  | cons c cs ih =>
    have step : quotedBody (c :: cs) = quotedChar c ++ quotedBody cs := List.flatMap_cons
    rw [step, List.append_assoc, readParts_quotedChar, ih]
    simp

/-- A quoted string is a string literal. -/
lemma scans_quoted (s : String) :
    Scans (quoted s).toList ((quoted s).toList.map (.literal, ·)) := by
  intro rest
  rw [Json.toList_quoted, List.cons_append, List.append_assoc]
  have opening : readParts .code ('"' :: (quotedBody s.toList ++ ['"'] ++ rest)) =
      (.literal, '"') :: readParts (.literal '"') (quotedBody s.toList ++ ['"'] ++ rest) := rfl
  rw [← List.append_assoc, opening, List.append_assoc, List.singleton_append,
    readParts_quotedBody]
  rfl

/-! ## Comments -/

lemma closesComment_cons :
    ClosesComment (c :: text) ↔ (c = '*' ∧ text.head? = some '/') ∨ ClosesComment text := by
  unfold ClosesComment
  rw [List.infix_cons_iff, List.cons_prefix_cons, eq_comm (a := '*')]
  refine or_congr_left (and_congr_right fun _ => ?_)
  cases text with
  | nil => simp
  | cons d text => simp [eq_comm]

/-- Texts hold the end of a comment only together, or where they meet. -/
lemma not_closesComment_append (h : ¬ ClosesComment text) (h' : ¬ ClosesComment more)
    (apart : more.head? ≠ some '/') : ¬ ClosesComment (text ++ more) := by
  induction text with
  | nil => exact h'
  | cons c text ih =>
    rw [closesComment_cons, not_or] at h
    rw [List.cons_append, closesComment_cons, not_or]
    refine ⟨?_, ih h.2⟩
    rintro ⟨rfl, e⟩
    cases text with
    | nil => exact apart e
    | cons d text => exact h.1 ⟨rfl, e⟩

/-- What does not hold the end of a comment is a comment up to the end that follows it. -/
lemma readParts_comment {body : List Char} (h : ¬ ClosesComment (body ++ ['*'])) :
    readParts .comment (body ++ '*' :: '/' :: rest) =
      (body ++ ['*', '/']).map (.comment, ·) ++ readParts .code rest := by
  induction body with
  | nil => rfl
  | cons c body ih =>
    rw [List.cons_append, closesComment_cons, not_or] at h
    have step : readParts .comment (c :: (body ++ '*' :: '/' :: rest)) =
        (.comment, c) :: readParts .comment (body ++ '*' :: '/' :: rest) := by
      rw [readParts]
      rintro _ rfl e
      refine h.1 ⟨rfl, ?_⟩
      cases body with
      | nil => cases e
      | cons d body => cases e; rfl
    rw [List.cons_append, step, ih h.2]
    rfl

lemma scans_comment {body : List Char} (h : ¬ ClosesComment (body ++ ['*'])) :
    Scans ('/' :: '*' :: (body ++ ['*', '/']))
      (('/' :: '*' :: (body ++ ['*', '/'])).map (.comment, ·)) := by
  intro rest
  have opening : readParts .code ('/' :: '*' :: (body ++ ['*', '/'] ++ rest)) =
      (.comment, '/') :: (.comment, '*') :: readParts .comment (body ++ ['*', '/'] ++ rest) := rfl
  rw [List.cons_append, List.cons_append, opening, List.append_assoc, List.cons_append,
    List.singleton_append, readParts_comment h]
  rfl

/-! ## Documentation -/

lemma ClosesComment.of_isInfix (h : ClosesComment text) (i : text <:+: more) : ClosesComment more :=
  List.IsInfix.trans h i

lemma trimEnd_isInfix : trimEnd text <:+: text := by
  have suffix : text.reverse.dropWhile isWhite <:+ text.reverse := List.dropWhile_suffix _
  have front : trimEnd text <+: text := by
    rw [trimEnd, ← List.reverse_suffix, List.reverse_reverse]
    exact suffix
  exact front.isInfix

lemma trim_isInfix : trim text <:+: text :=
  trimEnd_isInfix.trans (List.dropWhile_suffix _).isInfix

/-- The first line of a text stands at its start, and every line somewhere in it. -/
lemma lines_isInfix (text : List Char) :
    (∀ line ∈ (lines text).head?, line <+: text) ∧ ∀ line ∈ lines text, line <:+: text := by
  fun_induction lines text with
  | case1 => exact ⟨by simp, by simp⟩
  | case2 rest ih =>
    refine ⟨by simp, List.forall_mem_cons.2 ⟨List.nil_infix, fun line m => ?_⟩⟩
    exact (ih.2 line m).trans (List.suffix_cons _ _).isInfix
  | case3 rest ih =>
    refine ⟨by simp, List.forall_mem_cons.2 ⟨List.nil_infix, fun line m => ?_⟩⟩
    exact (ih.2 line m).trans ⟨['\r', '\n'], [], by simp⟩
  | case4 c rest _ _ e =>
    have first : [c] <+: c :: rest := ⟨rest, rfl⟩
    simp [first, first.isInfix]
  | case5 c rest _ _ line more e ih =>
    rw [e] at ih
    have others := (List.forall_mem_cons.1 ih.2).2
    have first : c :: line <+: c :: rest := List.cons_prefix_cons.2 ⟨rfl, ih.1 line rfl⟩
    refine ⟨?_, List.forall_mem_cons.2 ⟨first.isInfix, fun other m => ?_⟩⟩
    · rintro _ ⟨⟩
      exact first
    · exact (others other m).trans (List.suffix_cons _ _).isInfix

lemma head?_spaces (count : Nat) : (List.replicate count ' ' ++ ' ' :: rest).head? = some ' ' := by
  cases count <;> rfl

lemma not_closesComment_spaces (count : Nat) : ¬ ClosesComment (List.replicate count ' ') := by
  induction count with
  | zero => exact fun h => by cases h.length_le
  | succ count ih =>
    rw [List.replicate_succ, closesComment_cons, not_or]
    exact ⟨fun h => absurd h.1 (by decide), ih⟩

end Text

open Text

lemma toList_indentation (level : Nat) :
    (indentation level).toList = List.replicate (4 * level) ' ' := String.toList_ofList

variable (level : Nat) {line : List Char} {text : List Char}

/-- A line of a comment holds the end of none if the line that it was made of does not. -/
lemma documentationLine_spec (h : ¬ ClosesComment line) :
    (documentationLine level line).toList.head? = some ' ' ∧
      ¬ ClosesComment (documentationLine level line).toList := by
  have spaces := not_closesComment_spaces (4 * level)
  unfold documentationLine
  split_ifs
  · have e : (indentation level ++ " *\n").toList =
        List.replicate (4 * level) ' ' ++ ' ' :: ['*', '\n'] := by
      rw [String.toList_append, toList_indentation]
      rfl
    rw [e]
    exact ⟨head?_spaces _, not_closesComment_append spaces (by decide) (by decide)⟩
  · have e : (indentation level ++ " * " ++ String.ofList (trimEnd line) ++ "\n").toList =
        List.replicate (4 * level) ' ' ++ ' ' :: (['*', ' '] ++ (trimEnd line ++ ['\n'])) := by
      simp [toList_indentation]
    rw [e]
    refine ⟨head?_spaces _, not_closesComment_append spaces ?_ (by simp)⟩
    have kept : ¬ ClosesComment (trimEnd line ++ ['\n']) :=
      not_closesComment_append (fun closes => h (closes.of_isInfix trimEnd_isInfix)) (by decide)
        (by decide)
    simp [closesComment_cons, kept]

/-- So do lines of a comment together. -/
lemma not_closesComment_join {lines : List (List Char)} (h : ∀ line ∈ lines, ¬ ClosesComment line)
    (last : ¬ ClosesComment text) (apart : text.head? ≠ some '/') :
    ¬ ClosesComment ((String.join (lines.map (documentationLine level))).toList ++ text) ∧
      ((String.join (lines.map (documentationLine level))).toList ++ text).head? ≠ some '/' := by
  induction lines with
  | nil => exact ⟨last, apart⟩
  | cons line lines ih =>
    obtain ⟨first, others⟩ := List.forall_mem_cons.1 h
    obtain ⟨head, closed⟩ := documentationLine_spec level first
    obtain ⟨rest, rest'⟩ := ih others
    rw [List.map_cons, String.join_cons, String.toList_append, List.append_assoc]
    refine ⟨not_closesComment_append closed rest rest', ?_⟩
    rw [List.head?_append, head]
    simp

/-- Documentation on one line. -/
lemma not_closesComment_line (h : ¬ ClosesComment text) :
    ¬ ClosesComment (['*', ' '] ++ trim text ++ [' '] ++ ['*']) := by
  have kept : ¬ ClosesComment (trim text ++ [' ', '*']) :=
    not_closesComment_append (fun closes => h (closes.of_isInfix trim_isInfix)) (by decide)
      (by decide)
  simp [closesComment_cons, kept]

/-- Documentation on several lines. -/
lemma not_closesComment_lines {lines : List (List Char)}
    (h : ∀ line ∈ lines, ¬ ClosesComment line) :
    ¬ ClosesComment (['*', '\n'] ++ (String.join (lines.map (documentationLine level))).toList ++
      (indentation level).toList ++ [' '] ++ ['*']) := by
  have last : ¬ ClosesComment ((indentation level).toList ++ [' ', '*']) := by
    rw [toList_indentation]
    exact not_closesComment_append (not_closesComment_spaces _) (by decide) (by decide)
  have apart : ((indentation level).toList ++ [' ', '*']).head? ≠ some '/' := by
    rw [toList_indentation, head?_spaces]
    decide
  obtain ⟨all, start⟩ := not_closesComment_join level h last apart
  have opening : ¬ ClosesComment ['*', '\n'] := by decide
  have whole := not_closesComment_append opening all start
  simpa using whole

/-- What is printed for documentation is a comment on lines of its own. -/
lemma documentationText_eq {documentation : String}
    (h : ¬ ClosesComment documentation.toList) :
    ∃ body, ¬ ClosesComment (body ++ ['*']) ∧
      (documentationText level documentation).toList =
        (indentation level).toList ++ ('/' :: '*' :: (body ++ ['*', '/']) ++ ['\n']) := by
  have single : ∃ body, ¬ ClosesComment (body ++ ['*']) ∧
      (indentation level ++ "/** " ++ String.ofList (trim documentation.toList) ++ " */\n").toList =
        (indentation level).toList ++ ('/' :: '*' :: (body ++ ['*', '/']) ++ ['\n']) := by
    refine ⟨_, not_closesComment_line h, ?_⟩
    simp
  unfold documentationText
  split
  case h_1 => exact single
  case h_2 => exact single
  case h_3 =>
    refine ⟨_, not_closesComment_lines level fun line m closes =>
      h (closes.of_isInfix ((lines_isInfix documentation.toList).2 line m)), ?_⟩
    simp

/-- Documentation that does not hold the end of a comment shows nothing. -/
theorem scans_documentationText {documentation : String}
    (h : ¬ ClosesComment documentation.toList) :
    ∃ parts, Scans (documentationText level documentation).toList parts ∧
      parts.filter isVisible = [] := by
  obtain ⟨body, closed, e⟩ := documentationText_eq level h
  have spaces : ∀ c ∈ (indentation level).toList, c = ' ' := by
    rw [toList_indentation]
    exact fun c m => (List.mem_replicate.1 m).2
  have before : Scans (indentation level).toList _ := scans_plain fun c m => spaces c m ▸ rfl
  have after : Scans ['\n'] [(.code, '\n')] := scans_plain (List.forall_mem_singleton.2 rfl)
  rw [e]
  refine ⟨_, before.append ((scans_comment closed).append after), ?_⟩
  rw [List.filter_append, List.filter_append, List.append_eq_nil_iff, List.append_eq_nil_iff,
    List.filter_eq_nil_iff, List.filter_eq_nil_iff]
  refine ⟨?_, ?_, rfl⟩
  · intro part m
    obtain ⟨c, mc, rfl⟩ := List.mem_map.1 m
    rw [spaces c mc]
    decide
  · intro part m
    obtain ⟨c, -, rfl⟩ := List.mem_map.1 m
    exact Bool.false_ne_true

end TypeSchema
