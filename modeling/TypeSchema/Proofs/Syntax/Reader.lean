import TypeSchema.Proofs.Json.Reads
import TypeSchema.Syntax.Printer

/-!
# A reader of printed types

Printed types are read by descent, a union as intersections, an intersection as factors and a factor
as an atom with array suffixes. How numbers are read is a parameter. An opening parenthesis starts a
type in parentheses or else a function type; the first is tried first, and fails at the first
parameter of a function.
-/

namespace TypeSchema

namespace Json.Reader

variable {α : Type}

/-- Drops a text if it stands next. -/
def accept (expected : String) : Reader Bool := fun text =>
  if expected.toList <+: text then .ok (true, text.drop expected.toList.length)
  else .ok (false, text)

/-- The characters up to the first one without a property. -/
def takeRun (p : Char → Bool) : Reader (List Char) := fun text =>
  .ok (text.takeWhile p, text.dropWhile p)

/-- One item at least and at most as many as given, with a separator between them. -/
def separated (separator : String) (item : Reader α) : (count : Nat) → Reader (List α)
  | 0 => fail .malformed
  | count + 1 => do
    let first ← item
    if ← accept separator then return first :: (← separated separator item count)
    else return [first]

/-- Items with commas between them up to a closing text. -/
def bracketed (close : String) (item : Reader α) : Reader (List α) := do
  if ← accept close then return []
  else
    let items ← separated ", " item ((← get).length + 1)
    word close.toList
    return items

/-! ### What the parts read -/

variable {reader item : Reader α} {a b : α} {as : List α} {f : α → String}
  {expected separator close : String} {cs text mid rest : List Char}

lemma Reads.unique (h : reader.Reads text a rest) (h' : reader.Reads text b mid) :
    a = b ∧ rest = mid := Prod.mk.inj (Except.ok.inj (h.symm.trans h'))

lemma reads_accept : (accept expected).Reads (expected.toList ++ rest) true rest := by
  rw [Reads, accept, if_pos (List.prefix_append _ _), List.drop_left]

lemma reads_accept_false (h : ¬ expected.toList <+: text) :
    (accept expected).Reads text false text := by
  rw [Reads, accept, if_neg h]

lemma reads_word : (word cs).Reads text () rest ↔ text = cs ++ rest := by
  induction cs generalizing text with
  | nil => exact reads_pure.trans (and_iff_right rfl)
  | cons c cs ih =>
    refine reads_bind.trans ⟨?_, ?_⟩
    · rintro ⟨_, _, got, h⟩
      obtain ⟨rfl, rfl⟩ := reads_get.1 got
      cases text with
      | nil => cases not_reads_fail h
      | cons d text =>
        dsimp only at h
        split_ifs at h with same
        · obtain ⟨_, _, put, h⟩ := reads_bind.1 h
          cases put
          rw [same, ih.1 h, List.cons_append]
        · cases not_reads_fail h
    · rintro rfl
      refine ⟨_, _, reads_get.2 ⟨rfl, rfl⟩, ?_⟩
      simp only [List.cons_append, if_pos]
      exact Reads.bind rfl (ih.2 rfl)

lemma reads_takeRun {p : Char → Bool} (h : ∀ c ∈ cs, p c = true)
    (h' : ∀ c ∈ rest.head?, p c = false) : (takeRun p).Reads (cs ++ rest) cs rest := by
  have behind : rest.takeWhile p = [] ∧ rest.dropWhile p = rest := by
    cases rest with
    | nil => exact ⟨rfl, rfl⟩
    | cons c rest => simp [h' c rfl]
  rw [Reads, takeRun, List.takeWhile_append_of_pos h, List.dropWhile_append_of_pos h, behind.1,
    behind.2, List.append_nil]

lemma length_le_intercalate (some : separator.toList ≠ []) (items : List String) :
    items.length ≤ (separator.intercalate items).toList.length + 1 := by
  have one := List.length_pos_iff.2 some
  induction items with
  | nil => exact Nat.zero_le _
  | cons item items ih =>
    cases items with
    | nil => exact Nat.succ_le_succ (Nat.zero_le _)
    | cons item' items =>
      rw [String.intercalate_cons_cons, String.toList_append, String.toList_append,
        List.length_append, List.length_append, List.length_cons]
      omega

/-- Items are read one by one if each is read before what may follow it. -/
lemma reads_separated {count : Nat} (ne : as ≠ []) (enough : as.length ≤ count)
    (last : ¬ separator.toList <+: rest)
    (h : ∀ a ∈ as, ∀ mid, separator.toList <+: mid ∨ mid = rest →
      item.Reads ((f a).toList ++ mid) a mid) :
    (separated separator item count).Reads
      ((separator.intercalate (as.map f)).toList ++ rest) as rest := by
  induction as generalizing count with
  | nil => exact absurd rfl ne
  | cons a as ih =>
    obtain ⟨count, rfl⟩ := Nat.exists_eq_add_one.2 (Nat.zero_lt_of_lt enough)
    have first := h a List.mem_cons_self
    cases as with
    | nil =>
      rw [List.map_singleton, String.intercalate_singleton]
      exact (first rest (.inr rfl)).bind
        ((reads_accept_false last).bind (reads_pure.2 ⟨rfl, rfl⟩))
    | cons b as =>
      have others := ih (List.cons_ne_nil _ _) (Nat.le_of_succ_le_succ enough)
        fun a m => h a (List.mem_cons_of_mem _ m)
      rw [List.map_cons, List.map_cons, String.intercalate_cons_cons, String.toList_append,
        String.toList_append, List.append_assoc, List.append_assoc]
      exact (first _ (.inl (List.prefix_append _ _))).bind
        (reads_accept.bind (others.bind (reads_pure.2 ⟨rfl, rfl⟩)))

/-- A separated list reads its first item first. -/
lemma Reads.head_separated {count : Nat} (h : (separated separator item count).Reads text as rest) :
    ∃ a mid, item.Reads text a mid := by
  cases count with
  | zero => cases not_reads_fail h
  | succ count =>
    obtain ⟨a, mid, first, _⟩ := reads_bind.1 h
    exact ⟨a, mid, first⟩

/-- Items up to a closing text are read if none of them starts with it. -/
lemma reads_bracketed (refuses : ∀ more a mid, ¬ item.Reads (close.toList ++ more) a mid)
    (last : ¬ ", ".toList <+: close.toList ++ rest)
    (h : ∀ a ∈ as, ∀ mid, ", ".toList <+: mid ∨ mid = close.toList ++ rest →
      item.Reads ((f a).toList ++ mid) a mid) :
    (bracketed close item).Reads
      ((String.intercalate ", " (as.map f)).toList ++ (close.toList ++ rest)) as rest := by
  cases as with
  | nil => exact reads_accept.bind (reads_pure.2 ⟨rfl, rfl⟩)
  | cons a as =>
    have items (count : Nat) (enough : (a :: as).length ≤ count) :=
      reads_separated (List.cons_ne_nil a as) enough last h
    generalize e : (String.intercalate ", " ((a :: as).map f)).toList = text at items ⊢
    have inside : ¬ close.toList <+: text ++ (close.toList ++ rest) := by
      rintro ⟨more, e'⟩
      obtain ⟨a, mid, first⟩ := (items _ (Nat.le_refl _)).head_separated
      rw [← e'] at first
      exact refuses more a mid first
    have enough : (a :: as).length ≤ (text ++ (close.toList ++ rest)).length + 1 := by
      have many : ((a :: as).map f).length ≤
          (String.intercalate ", " ((a :: as).map f)).toList.length + 1 :=
        length_le_intercalate (by decide) _
      rw [e, List.length_map] at many
      rw [List.length_append]
      omega
    refine (reads_accept_false inside).bind ?_
    refine Reads.bind (reads_get.2 ⟨rfl, rfl⟩) ((items _ enough).bind ?_)
    exact Reads.bind (reads_word.2 rfl) (reads_pure.2 ⟨rfl, rfl⟩)

end Json.Reader

namespace TypeReader

open Json.Reader (accept takeRun separated bracketed word fail skip ofStep)
open Json (Reader)

variable (number : List Char → Option Binary64) (inner : Nat → Reader TypeExpr) (level : Nat)

/-- Whether a character may stand in a number. -/
def isNumeral (c : Char) : Bool := c.isDigit || c == '.' || c == '-'

/-- An identifier. -/
def identifier : Reader String := do
  return String.ofList (← takeRun Text.continuesIdentifier)

/-- The name of a property. -/
def propertyName : Reader String := do
  if (← get).head? = some '"' then Json.Reader.key else identifier

/-- A name with its type. -/
def signature (name : Reader String) (type : Reader TypeExpr) : Reader (Parameter TypeExpr) := do
  let name ← name
  let isOptional ← accept "?"
  word ": ".toList
  return ⟨name, isOptional, ← type⟩

/-- An element of a tuple type. -/
def element (type : Reader TypeExpr) : Reader (TupleMember TypeExpr) := do
  let type ← type
  return ⟨← accept "?", type⟩

/-- The properties of an object type whose first line is at a level, at most as many as given. -/
def properties (type : Reader TypeExpr) : (count : Nat) → Reader (List (PropertySignature TypeExpr))
  | 0 => fail .malformed
  | count + 1 => do
    if ← accept (indentation level ++ "\x7d") then return []
    else
      word (indentation (level + 1)).toList
      let member ← signature propertyName type
      word ";\n".toList
      return ⟨member.name, member.isOptional, member.type, none⟩ :: (← properties type count)

/-- An object type after its opening brace. -/
def objectEnd : Reader TypeExpr := do
  if ← accept "\x7d" then return .object []
  else
    word "\n".toList
    return .object (← properties level (inner (level + 1)) ((← get).length + 1))

/-- A tuple type after its opening bracket. -/
def tupleEnd : Reader TypeExpr := do
  return .tuple (← bracketed "]" (element (inner level)))

/-- A function type after its opening parenthesis. -/
def functionEnd : Reader TypeExpr := do
  let parameters ← bracketed ")" (signature identifier (inner level))
  word " => ".toList
  return .function parameters (← inner level)

/-- A type in parentheses after the opening one. -/
def groupEnd : Reader TypeExpr := do
  let type ← inner level
  word ")".toList
  return type

/-- What a name stands for, with the type arguments behind it. -/
def nameEnd (name : String) : Reader TypeExpr :=
  if name = "true" then return .literal (.boolean true)
  else if name = "false" then return .literal (.boolean false)
  else match Keyword.ofText? name with
    | some word => return .keyword word
    | none => do
      if ← accept "<" then return .named name (← bracketed ">" (inner level))
      else return .named name []

/-- A type without parts outside of brackets, or in parentheses, or a function type. -/
def atom : Reader TypeExpr := do
  match (← get).head? with
  | none => fail .endOfText
  | some c =>
    if Text.startsIdentifier c then nameEnd inner level (← identifier)
    else if isNumeral c then
      match number (← takeRun isNumeral) with
      | some value => return .literal (.number value)
      | none => fail .malformed
    else do
      skip
      if c = '"' then return .literal (.string (← ofStep Json.stringAfterQuote))
      else if c = '\x7b' then objectEnd inner level
      else if c = '[' then tupleEnd inner level
      else if c = '(' then tryCatch (groupEnd inner level) fun _ => functionEnd inner level
      else fail .malformed

/-- A type with the array suffixes behind it, and what follows them. -/
def suffixes : TypeExpr → List Char → TypeExpr × List Char
  | type, '[' :: ']' :: rest => suffixes (.array type) rest
  | type, rest => (type, rest)

/-- An atom with its array suffixes. -/
def factor : Reader TypeExpr := do
  let type ← atom number inner level
  ofStep fun text => .ok (suffixes type text)

/-- Several types with a connective, or one without it. -/
def composed (connective : Connective) (item : Reader TypeExpr) : Reader TypeExpr := do
  match ← separated connective.separator item ((← get).length + 1) with
  | [type] => return type
  | members => return .composite connective members

/-- An intersection of factors. -/
def term : Reader TypeExpr := composed .intersection (factor number inner level)

/-- A type whose first line is at a level, with parentheses and brackets to a depth. -/
def read : (depth level : Nat) → Reader TypeExpr
  | 0, _ => fail .malformed
  | depth + 1, level => composed .union (term number (read depth) level)

end TypeReader

end TypeSchema
