import Mathlib.Tactic.Lemma
import Mathlib.Tactic.SplitIfs
import TypeSchema.Json.Text
import TypeSchema.Text.Quoted

/-!
# Reading quoted strings

A quoted string is read back to its closing quote, whatever follows it. So no quoted string is the
front of another one.
-/

namespace TypeSchema.Json

open Text

lemma hexValue?_hexDigit (n : Nat) : hexValue? (hexDigit n) = some (n % 16) := by
  have h : ∀ m < 16, hexValue? (Nat.digitChar m) = some m := by decide
  exact h (n % 16) (Nat.mod_lt _ (by decide))

/-- A control written by its code is read back. -/
lemma unicodeEscape_hexDigit {c : Char} {rest : List Char} (small : c.toNat < 0x20) :
    unicodeEscape ('0' :: '0' :: hexDigit (c.toNat / 16) :: hexDigit c.toNat :: rest) =
      .ok (c, rest) := by
  have zero : hexValue? '0' = some 0 := by decide
  have unit : c.toNat / 16 % 16 * 16 + c.toNat % 16 = c.toNat := by omega
  have leading : isLeading c.toNat = false := by simp [isLeading]; omega
  have trailing : isTrailing c.toNat = false := by simp [isTrailing]; omega
  simp [unicodeEscape, hexEscape, hexValue?_hexDigit, zero, unit, leading, trailing, bind,
    Except.bind]

/-- One quoted character is read in one step. -/
lemma stringEnd_quotedChar {steps : Nat} {c : Char} {rest : List Char} :
    stringEnd escape (steps + 1) (quotedChar c ++ rest) =
      (stringEnd escape steps rest).map fun (text, rest) => (c :: text, rest) := by
  have step : ∀ {text mid : List Char}, escape text = .ok (c, mid) →
      stringEnd escape (steps + 1) ('\\' :: text) =
        (stringEnd escape steps mid).map fun (text, rest) => (c :: text, rest) := by
    intro text mid h
    cases r : stringEnd escape steps mid <;>
      simp [stringEnd, h, r, bind, Except.bind, Except.map, pure, Except.pure]
  unfold quotedChar
  split_ifs with quote backslash b f n r t small
  iterate 7 subst c; exact step rfl
  · exact step (unicodeEscape_hexDigit small)
  · cases e : stringEnd escape steps rest <;>
      simp [stringEnd, quote, backslash, small, e, bind, Except.bind, Except.map, pure, Except.pure]

lemma length_le_quotedBody (cs : List Char) : cs.length ≤ (quotedBody cs).length := by
  induction cs with
  | nil => exact Nat.zero_le _
  | cons c cs ih =>
    have one : 1 ≤ (quotedChar c).length := by
      unfold quotedChar
      split_ifs <;> exact Nat.succ_pos _
    simp only [quotedBody, List.flatMap_cons, List.length_append, List.length_cons] at ih ⊢
    omega

lemma stringEnd_quotedBody {steps : Nat} {cs rest : List Char} (enough : cs.length < steps) :
    stringEnd escape steps (quotedBody cs ++ '"' :: rest) = .ok (cs, rest) := by
  induction cs generalizing steps with
  | nil =>
    obtain ⟨steps, rfl⟩ := Nat.exists_eq_add_one_of_ne_zero (Nat.ne_of_gt enough)
    rfl
  | cons c cs ih =>
    obtain ⟨steps, rfl⟩ := Nat.exists_eq_add_one.2 (Nat.zero_lt_of_lt enough)
    have split : quotedBody (c :: cs) ++ '"' :: rest =
        quotedChar c ++ (quotedBody cs ++ '"' :: rest) := by
      rw [quotedBody, List.flatMap_cons, List.append_assoc]
      rfl
    rw [split, stringEnd_quotedChar, ih (Nat.lt_of_succ_lt_succ enough)]
    rfl

/-- A quoted string is read back. -/
theorem stringAfterQuote_quotedBody (s : String) (rest : List Char) :
    stringAfterQuote (quotedBody s.toList ++ '"' :: rest) = .ok (s, rest) := by
  have enough : s.toList.length < (quotedBody s.toList ++ '"' :: rest).length + 1 := by
    have := length_le_quotedBody s.toList
    rw [List.length_append]
    omega
  rw [stringAfterQuote, stringEnd_quotedBody enough]
  exact congrArg (fun s => Except.ok (s, rest)) String.ofList_toList

lemma toList_quoted (s : String) : (quoted s).toList = '"' :: (quotedBody s.toList ++ ['"']) :=
  String.toList_ofList

end TypeSchema.Json
