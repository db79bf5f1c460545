import TypeSchema.Proofs.Json.Number
import TypeSchema.Proofs.Number.Rounding
import TypeSchema.Wire.Reader

/-!
# The numbers that are read are finite

A product that is too great is refused. A significand fits 64 bits, so a few divisions by powers of
ten, which are not below one, leave it finite.
-/

namespace TypeSchema.Json

lemma gather_le {significand : Nat} (digits : List Char) (h : significand ≤ maxSignificand) :
    (gather significand digits).1 ≤ maxSignificand := by
  induction digits generalizing significand with
  | nil => exact h
  | cons c digits ih =>
    rw [gather]
    split_ifs with fits
    · exact ih fits
    · exact h

/-- Powers of ten are not below one. -/
lemma unitsPerOne_le_powerOfTen (power : Nat) :
    Binary64.unitsPerOne ≤ (powerOfTen power).units :=
  Binary64.unitsPerOne_le_ofNat (Nat.pow_pos (by decide))

lemma divideRepeatedly_succ (times : Nat) (x : Binary64) :
    divideRepeatedly (times + 1) x = divideRepeatedly times (x.div (powerOfTen maxPower)) := by
  -- the equation by itself would have the power of ten computed
  delta divideRepeatedly
  exact rfl

lemma exponentField_divideRepeatedly_le (times : Nat) {x : Binary64}
    (small : x.exponentField + 2 * times < 2047) :
    (divideRepeatedly times x).exponentField ≤ x.exponentField + 2 * times := by
  induction times generalizing x with
  | zero => exact Nat.le_refl _
  | succ times ih =>
    have one : (x.div (powerOfTen maxPower)).exponentField ≤ x.exponentField + 2 :=
      Binary64.exponentField_div_le (unitsPerOne_le_powerOfTen _) (by omega)
    rw [divideRepeatedly_succ]
    generalize x.div (powerOfTen maxPower) = quotient at one ⊢
    calc
      _ ≤ quotient.exponentField + 2 * times := ih (by omega)
      _ ≤ x.exponentField + 2 + 2 * times := Nat.add_le_add_right one _
      _ = x.exponentField + 2 * (times + 1) := by omega

/-- A decimal of a significand that fits 64 bits is finite if it is read. -/
lemma isFinite_of_scale? {significand : Nat} {exponent : Int} {x : Binary64}
    (h : significand ≤ maxSignificand) (e : scale? significand exponent = some x) :
    x.isFinite = true := by
  have fits : significand < 2 ^ 64 := Nat.lt_of_le_of_lt h (by decide)
  have small := Binary64.exponentField_ofNat_le fits
  unfold scale? at e
  dsimp only at e
  split_ifs at e with up within infinite zero
  · rw [← Option.some.inj e]
    exact Binary64.isFinite_ofRatio (Bool.eq_false_iff.2 infinite)
  · rw [← Option.some.inj e]
    exact Binary64.isFinite_ofNat fits
  · rw [← Option.some.inj e]
    generalize (exponent.natAbs - 1) / maxPower = times
    have few : min times 3 ≤ 3 := Nat.min_le_right _ _
    generalize Binary64.ofNat significand = start at small ⊢
    have growth := exponentField_divideRepeatedly_le (min times 3) (x := start) (by omega)
    generalize divideRepeatedly (min times 3) start = divided at growth ⊢
    have bound : divided.exponentField + 2 ≤ 1095 := by omega
    have quotient := Binary64.exponentField_div_le (x := divided)
      (unitsPerOne_le_powerOfTen (exponent.natAbs - maxPower * times))
      (Nat.lt_of_le_of_lt bound (by decide))
    exact Binary64.isFinite_of_lt
      (Nat.lt_of_le_of_lt quotient (Nat.lt_of_le_of_lt bound (by decide)))

section

variable {negative : Bool} {significand : Nat} {numeral : Numeral} {text rest : List Char}

lemma isFinite_integerOf (h : significand ≤ maxSignificand) :
    (integerOf negative significand).toBinary64.isFinite = true := by
  have fits : significand < 2 ^ 64 := Nat.lt_of_le_of_lt h (by decide)
  have finite := Binary64.isFinite_ofNat fits
  unfold integerOf
  split_ifs
  · exact Binary64.isFinite_negate.trans finite
  · exact Binary64.isFinite_negate.trans finite
  · exact finite

lemma isFinite_floatEnd {exponent : Int} (h : significand ≤ maxSignificand)
    (e : floatEnd negative significand exponent text = .ok (numeral, rest)) :
    numeral.toBinary64.isFinite = true := by
  have float {power : Int} {numeral : Numeral}
      (e : floatOf negative significand power = .ok numeral) :
      numeral.toBinary64.isFinite = true := by
    unfold floatOf at e
    split at e
    · rename_i x s
      have finite := isFinite_of_scale? h s
      cases e
      cases negative
      · exact finite
      · exact Binary64.isFinite_negate.trans finite
    · cases e
  have behind {p : Int × List Char} (e : (do
      let value ← floatOf negative significand (exponent + p.1)
      return (value, p.2)) = Except.ok (ε := Fault) (numeral, rest)) :
      numeral.toBinary64.isFinite = true := by
    obtain ⟨value, f, e⟩ := bind_eq_ok.1 e
    cases e
    exact float f
  unfold floatEnd at e
  dsimp only at e
  split at e
  · obtain ⟨_, _, e⟩ := bind_eq_ok.1 e
    exact behind e
  · obtain ⟨_, _, e⟩ := bind_eq_ok.1 e
    exact behind e
  · exact behind e

lemma isFinite_numeralEnd {dropped : Nat} (h : significand ≤ maxSignificand)
    (e : numeralEnd negative significand dropped text = .ok (numeral, rest)) :
    numeral.toBinary64.isFinite = true := by
  unfold numeralEnd at e
  split at e
  · obtain ⟨⟨digits, _⟩, _, e⟩ := bind_eq_ok.1 e
    have gathered := gather_le digits h
    dsimp only at e
    generalize gather significand digits = g at e gathered
    exact isFinite_floatEnd gathered e
  · exact isFinite_floatEnd h e
  · exact isFinite_floatEnd h e
  · split_ifs at e
    · cases e
      exact isFinite_integerOf h
    · exact isFinite_floatEnd h e

/-- A number that is read is finite. -/
theorem isFinite_numeralAfterSign
    (e : numeralAfterSign negative text = .ok (numeral, rest)) :
    numeral.toBinary64.isFinite = true := by
  unfold numeralAfterSign at e
  obtain ⟨⟨digits, _⟩, _, e⟩ := bind_eq_ok.1 e
  have gathered := gather_le digits (Nat.zero_le maxSignificand)
  dsimp only at e
  generalize gather 0 digits = g at e gathered
  split_ifs at e
  exact isFinite_numeralEnd gathered e

end

end TypeSchema.Json
