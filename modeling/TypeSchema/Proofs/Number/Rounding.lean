import Mathlib.Algebra.Group.Nat.Defs
import Mathlib.Tactic.Lemma
import Mathlib.Tactic.SplitIfs
import TypeSchema.Number.Binary64

/-!
# Rounded numbers

Rounding gives a finite number or infinity, and its exponent is bounded by the size of what is
rounded. So numbers stay finite when they are divided by numbers that are not below one.
-/

namespace TypeSchema.Binary64

variable {x y : Binary64} {num den : Nat}

lemma exponentField_mk {fields : Nat} (h : fields < 2047 * Nat.pow 2 52) :
    exponentField ⟨UInt64.ofNat fields⟩ = fields / Nat.pow 2 52 := by
  have small : fields < UInt64.size := Nat.lt_trans h (by decide)
  have top : fields / Nat.pow 2 52 < Nat.pow 2 11 :=
    Nat.lt_trans ((Nat.div_lt_iff_lt_mul (by decide)).2 h) (by decide)
  have bits : (UInt64.ofNat fields).toNat = fields := UInt64.toNat_ofNat_of_lt small
  rw [exponentField, bits, Nat.mod_eq_of_lt top]

lemma isFinite_of_lt (h : x.exponentField < 2047) : x.isFinite = true := by
  simp only [isFinite, bne_iff_ne]
  exact Nat.ne_of_lt h

/-- What is rounded past the greatest number is infinite. -/
lemma isFinite_ofRatio (h : (ofRatio num den).isInfinite = false) :
    (ofRatio num den).isFinite = true := by
  unfold ofRatio at h ⊢
  dsimp only at h ⊢
  split_ifs at h ⊢ with small
  · apply isFinite_of_lt
    rw [exponentField_mk small]
    exact (Nat.div_lt_iff_lt_mul (by decide)).2 small
  · have infinite : infinity.isInfinite = true := by decide
    rw [infinite] at h
    cases h

lemma roundHalfEven_le (num den : Nat) : roundHalfEven num den ≤ num / den + 1 := by
  unfold roundHalfEven
  dsimp only
  split_ifs <;> omega

lemma le_roundHalfEven (num den : Nat) : num / den ≤ roundHalfEven num den := by
  unfold roundHalfEven
  dsimp only
  split_ifs <;> omega

/-- The exponent of a rounded number is at most two above that of the units it is made of. -/
lemma exponentField_ofRatio_le {k : Nat} (h : num * unitsPerOne / den < 2 ^ (k + 53))
    (small : k + 2 < 2047) : (ofRatio num den).exponentField ≤ k + 2 := by
  let shift := Nat.log2 (num * unitsPerOne / den) - 52
  have shift_le : shift ≤ k := by
    by_cases zero : num * unitsPerOne / den = 0
    · simp [shift, zero]
    · have := (Nat.log2_lt zero).2 h
      omega
  have rounded : roundHalfEven (num * unitsPerOne) (den * Nat.pow 2 shift) ≤ 2 ^ 53 := by
    have below : num * unitsPerOne / den < 2 ^ shift * 2 ^ 53 := by
      have := Nat.lt_log2_self (n := num * unitsPerOne / den)
      refine Nat.lt_of_lt_of_le this ?_
      rw [← Nat.pow_add]
      exact Nat.pow_le_pow_right (by decide) (by omega)
    refine Nat.le_trans (roundHalfEven_le _ _) ?_
    rw [← Nat.div_div_eq_div_mul]
    exact Nat.div_lt_of_lt_mul below
  have fields : shift * Nat.pow 2 52 +
      roundHalfEven (num * unitsPerOne) (den * Nat.pow 2 shift) ≤ (k + 2) * Nat.pow 2 52 := by
    have := Nat.mul_le_mul_right (Nat.pow 2 52) shift_le
    have e : (2 : Nat) ^ 53 = 2 * Nat.pow 2 52 := by decide
    rw [Nat.add_mul, ← e]
    exact Nat.add_le_add this rounded
  have fits : shift * Nat.pow 2 52 +
      roundHalfEven (num * unitsPerOne) (den * Nat.pow 2 shift) < 2047 * Nat.pow 2 52 :=
    Nat.lt_of_le_of_lt fields (Nat.mul_lt_mul_of_pos_right small (by decide))
  rw [ofRatio, if_pos fits, exponentField_mk fits]
  calc
    _ ≤ (k + 2) * Nat.pow 2 52 / Nat.pow 2 52 := Nat.div_le_div_right fields
    _ = k + 2 := Nat.mul_div_cancel _ (by decide)

/-- The exponent of a rounded number is above that of the units it is made of. -/
lemma le_exponentField_ofRatio {k : Nat} (h : 2 ^ (k + 52) ≤ num * unitsPerOne / den)
    (small : k < 2047) : k + 1 ≤ (ofRatio num den).exponentField := by
  let shift := Nat.log2 (num * unitsPerOne / den) - 52
  have nonzero : num * unitsPerOne / den ≠ 0 :=
    Nat.ne_of_gt (Nat.lt_of_lt_of_le (Nat.two_pow_pos _) h)
  have log : k + 52 ≤ Nat.log2 (num * unitsPerOne / den) := (Nat.le_log2 nonzero).2 h
  have rounded : 2 ^ 52 ≤ roundHalfEven (num * unitsPerOne) (den * Nat.pow 2 shift) := by
    have above : 2 ^ 52 * 2 ^ shift ≤ num * unitsPerOne / den := by
      refine Nat.le_trans ?_ (Nat.log2_self_le nonzero)
      rw [← Nat.pow_add]
      exact Nat.pow_le_pow_right (by decide) (by omega)
    refine Nat.le_trans ?_ (le_roundHalfEven _ _)
    rw [← Nat.div_div_eq_div_mul]
    exact (Nat.le_div_iff_mul_le (Nat.two_pow_pos _)).2 above
  have fields : (k + 1) * Nat.pow 2 52 ≤ shift * Nat.pow 2 52 +
      roundHalfEven (num * unitsPerOne) (den * Nat.pow 2 shift) := by
    rw [Nat.add_mul, Nat.one_mul]
    exact Nat.add_le_add (Nat.mul_le_mul_right _ (by omega)) rounded
  unfold ofRatio
  dsimp only
  split_ifs with fits
  · rw [exponentField_mk fits]
    exact (Nat.le_div_iff_mul_le (by decide)).2 fields
  · exact small

lemma mantissa_lt : x.mantissa < 2 ^ 53 := by
  have fraction : x.fraction < Nat.pow 2 52 := Nat.mod_lt _ (by decide)
  have double : (2 : Nat) ^ 53 = Nat.pow 2 52 + Nat.pow 2 52 := by decide
  rw [mantissa, double]
  split_ifs
  · exact Nat.lt_add_left _ fraction
  · exact Nat.add_lt_add_left fraction _

lemma units_lt : x.units < 2 ^ (x.exponentField + 53) := by
  have spacing : x.spacing ≤ 2 ^ x.exponentField :=
    Nat.pow_le_pow_right (by decide) (Nat.sub_le _ _)
  rw [units, Nat.pow_add, Nat.mul_comm]
  exact Nat.lt_of_le_of_lt (Nat.mul_le_mul_right _ spacing)
    (Nat.mul_lt_mul_of_pos_left mantissa_lt (Nat.two_pow_pos _))

/-- The exponent of a quotient by a number that is not below one grows by two at most. -/
lemma exponentField_div_le (h : unitsPerOne ≤ y.units) (small : x.exponentField + 2 < 2047) :
    (x.div y).exponentField ≤ x.exponentField + 2 := by
  refine exponentField_ofRatio_le ?_ small
  refine Nat.lt_of_le_of_lt ?_ (units_lt (x := x))
  apply Nat.div_le_of_le_mul
  rw [Nat.mul_comm]
  exact Nat.mul_le_mul_right _ h

/-- The exponent of a number that fits 64 bits. -/
lemma exponentField_ofNat_le {n : Nat} (h : n < 2 ^ 64) : (ofNat n).exponentField ≤ 1087 := by
  have scaled (e f : Nat) (sum : f = 64 + e) : n * Nat.pow 2 e < 2 ^ f := by
    rw [sum, Nat.pow_add]
    exact Nat.mul_lt_mul_of_pos_right h (Nat.two_pow_pos e)
  refine exponentField_ofRatio_le (k := 1085) ?_ (by decide)
  rw [Nat.div_one]
  apply scaled
  rfl

lemma isFinite_ofNat {n : Nat} (h : n < 2 ^ 64) : (ofNat n).isFinite = true :=
  isFinite_of_lt (Nat.lt_of_le_of_lt (exponentField_ofNat_le h) (by decide))

/-- A positive whole number is not below one. -/
lemma unitsPerOne_le_ofNat {n : Nat} (pos : 0 < n) : unitsPerOne ≤ (ofNat n).units := by
  have scaled (e f : Nat) (sum : f = e) : 2 ^ f ≤ n * Nat.pow 2 e := by
    rw [sum]
    exact Nat.le_mul_of_pos_left _ pos
  have normal : 1023 ≤ (ofNat n).exponentField := by
    refine le_exponentField_ofRatio (k := 1022) ?_ (by decide)
    rw [Nat.div_one]
    apply scaled
    rfl
  have hidden : Nat.pow 2 52 ≤ (ofNat n).mantissa := by
    rw [mantissa, if_neg (by omega)]
    exact Nat.le_add_right _ _
  have spacing (e : Nat) (h : e ≤ (ofNat n).exponentField - 1) : Nat.pow 2 e ≤ (ofNat n).spacing :=
    Nat.pow_le_pow_right (by decide) h
  refine Nat.le_trans ?_ (Nat.mul_le_mul hidden (spacing 1022 (by omega)))
  decide +kernel

/-- The sign makes no difference to the exponent. -/
lemma exponentField_negate : x.negate.exponentField = x.exponentField := by
  have high (n : Nat) : (n ^^^ 2 ^ 63) / 2 ^ 52 % 2 ^ 11 = n / 2 ^ 52 % 2 ^ 11 := by
    rw [← Nat.shiftRight_eq_div_pow, ← Nat.shiftRight_eq_div_pow, Nat.shiftRight_xor_distrib,
      Nat.xor_mod_two_pow]
    exact Nat.xor_zero _
  rw [exponentField, negate, UInt64.toNat_xor]
  exact high x.bits.toNat

lemma isFinite_negate : x.negate.isFinite = x.isFinite := by
  rw [isFinite, isFinite, exponentField_negate]

end TypeSchema.Binary64
