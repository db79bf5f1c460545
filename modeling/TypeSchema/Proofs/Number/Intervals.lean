import Mathlib.Algebra.Group.Nat.Defs
import Mathlib.Tactic.Lemma
import Mathlib.Tactic.SplitIfs
import TypeSchema.Number.Shortest

/-!
# Rounding intervals

The numbers of one sign, in the order of their bits, are ever greater. The reals that round to one
of them lie between the two midpoints to its neighbours, and a midpoint belongs to the even
neighbour alone. So no real rounds to two magnitudes.
-/

namespace TypeSchema.Binary64

/-- The bits of a datum without its sign. -/
def magnitude (x : Binary64) : Nat := x.bits.toNat % Nat.pow 2 63

/-- The distance from the magnitude of given bits to the next one. -/
def gapOf (m : Nat) : Nat := 2 ^ (m / Nat.pow 2 52 - 1)

/-- The units in the magnitude of given bits. -/
def unitsOf (m : Nat) : Nat :=
  (if m / Nat.pow 2 52 = 0 then m % Nat.pow 2 52 else Nat.pow 2 52 + m % Nat.pow 2 52) * gapOf m

/-- The midpoint between the magnitude of given bits and the next one, in quarter units. -/
def midpoint (m : Nat) : Nat := 2 * (unitsOf m + unitsOf (m + 1))

variable {x y : Binary64} {m n num den : Nat}

lemma exponentField_eq : x.exponentField = x.magnitude / Nat.pow 2 52 := by
  rw [exponentField, magnitude]
  generalize x.bits.toNat = bits
  simp only [Nat.pow_eq]
  omega

lemma fraction_eq : x.fraction = x.magnitude % Nat.pow 2 52 := by
  rw [fraction, magnitude]
  generalize x.bits.toNat = bits
  simp only [Nat.pow_eq]
  omega

lemma spacing_eq : x.spacing = gapOf x.magnitude := by
  rw [spacing, exponentField_eq, gapOf]
  rfl

lemma units_eq : x.units = unitsOf x.magnitude := by
  rw [units, mantissa, exponentField_eq, fraction_eq, spacing_eq, unitsOf]

lemma gapOf_pos : 0 < gapOf m := Nat.two_pow_pos _

lemma gapOf_add {e f : Nat} (h : f < Nat.pow 2 52) :
    gapOf (Nat.pow 2 52 * e + f) = 2 ^ (e - 1) := by
  rw [gapOf, Nat.mul_add_div (by decide), Nat.div_eq_of_lt h, Nat.add_zero]

/-- The units are those of the exponent and the fraction. -/
lemma unitsOf_add {e f : Nat} (h : f < Nat.pow 2 52) :
    unitsOf (Nat.pow 2 52 * e + f) = (if e = 0 then f else Nat.pow 2 52 + f) * 2 ^ (e - 1) := by
  rw [unitsOf, gapOf_add h, Nat.mul_add_div (by decide), Nat.div_eq_of_lt h, Nat.add_zero,
    Nat.mul_add_mod, Nat.mod_eq_of_lt h]

/-- The next magnitude is one gap away, also where the exponent grows. -/
lemma unitsOf_succ (m : Nat) : unitsOf (m + 1) = unitsOf m + gapOf m := by
  obtain ⟨e, f, h, rfl⟩ : ∃ e f, f < Nat.pow 2 52 ∧ Nat.pow 2 52 * e + f = m :=
    ⟨m / Nat.pow 2 52, m % Nat.pow 2 52, Nat.mod_lt _ (by decide), Nat.div_add_mod _ _⟩
  rw [unitsOf_add h, gapOf_add h]
  by_cases last : f + 1 < Nat.pow 2 52
  · rw [Nat.add_assoc, unitsOf_add last, ← Nat.succ_mul]
    congr 1
    split_ifs <;> rfl
  · -- the fraction is full, so the exponent grows and the fraction starts again
    obtain rfl : f = Nat.pow 2 52 - 1 := by omega
    have carry : Nat.pow 2 52 * e + (Nat.pow 2 52 - 1) + 1 = Nat.pow 2 52 * (e + 1) + 0 := by
      rw [Nat.mul_succ]
    rw [carry, unitsOf_add (by decide), if_neg (Nat.succ_ne_zero e)]
    cases e with
    | zero => rfl
    | succ e =>
      rw [if_neg (Nat.succ_ne_zero e), Nat.add_sub_cancel, Nat.add_sub_cancel, Nat.pow_succ]
      generalize 2 ^ e = gap
      simp only [Nat.pow_eq]
      omega

lemma midpoint_lt (h : m < n) : midpoint m < midpoint n := by
  induction n with
  | zero => cases h
  | succ n ih =>
    have step : midpoint n < midpoint (n + 1) := by
      have := gapOf_pos (m := n)
      have := gapOf_pos (m := n + 1)
      rw [midpoint, midpoint, unitsOf_succ (n + 1), unitsOf_succ n]
      omega
    cases Nat.lt_or_eq_of_le (Nat.le_of_lt_succ h) with
    | inl less => exact Nat.lt_trans (ih less) step
    | inr same => exact same ▸ step

/-! ### The ends of an interval -/

lemma upperEnd_eq : x.upperEnd = midpoint x.magnitude := by
  rw [upperEnd, units_eq, spacing_eq, midpoint, unitsOf_succ]
  omega

/-- At a power of two the gap grows, except where the numbers stop being subnormal. -/
lemma gapOf_succ (m : Nat) : gapOf (m + 1) =
    if (m + 1) % Nat.pow 2 52 = 0 ∧ 1 < (m + 1) / Nat.pow 2 52 then 2 * gapOf m else gapOf m := by
  unfold gapOf
  simp only [Nat.pow_eq]
  split_ifs with power
  · obtain ⟨e, same⟩ : ∃ e, (m + 1) / 2 ^ 52 - 1 = e + 1 := ⟨(m + 1) / 2 ^ 52 - 2, by omega⟩
    have below : m / 2 ^ 52 - 1 = e := by omega
    rw [same, below, Nat.pow_succ, Nat.mul_comm]
  · have same : (m + 1) / 2 ^ 52 - 1 = m / 2 ^ 52 - 1 := by omega
    rw [same]

lemma lowerEnd_eq (h : x.magnitude = m + 1) : x.lowerEnd = midpoint m := by
  have gap := gapOf_succ m
  have pos := gapOf_pos (m := m)
  rw [lowerEnd, fraction_eq, exponentField_eq, units_eq, spacing_eq, h, midpoint, unitsOf_succ, gap]
  split_ifs <;> omega

lemma mantissa_mod_two : x.mantissa % 2 = x.magnitude % 2 := by
  rw [mantissa, exponentField_eq, fraction_eq]
  generalize x.magnitude = m
  simp only [Nat.pow_eq]
  split_ifs <;> omega

lemma magnitude_ne_zero (h : x.isZero = false) : x.magnitude ≠ 0 := by
  intro e
  rw [isZero, exponentField_eq, fraction_eq, e] at h
  cases h

/-- What rounds to a magnitude lies between its ends, and on one of them only if it is even. -/
lemma bounds_of_roundsFrom (h : x.roundsFrom num den = true) :
    x.lowerEnd * den ≤ num * quartersPerOne ∧ num * quartersPerOne ≤ x.upperEnd * den ∧
      (x.magnitude % 2 ≠ 0 →
        x.lowerEnd * den < num * quartersPerOne ∧ num * quartersPerOne < x.upperEnd * den) := by
  unfold roundsFrom at h
  rw [mantissa_mod_two] at h
  split_ifs at h with even
  · simp only [Bool.and_eq_true, decide_eq_true_eq] at h
    exact ⟨h.1, h.2, fun odd => absurd even odd⟩
  · simp only [Bool.and_eq_true, decide_eq_true_eq] at h
    exact ⟨Nat.le_of_lt h.1, Nat.le_of_lt h.2, fun _ => h⟩

/-- Nothing rounds to two magnitudes. -/
lemma not_roundsFrom_of_lt (pos : 0 < den) (less : x.magnitude < y.magnitude)
    (hx : x.roundsFrom num den = true) (hy : y.roundsFrom num den = true) : False := by
  obtain ⟨m, same⟩ : ∃ m, y.magnitude = m + 1 :=
    Nat.exists_eq_add_one_of_ne_zero (Nat.ne_of_gt (Nat.zero_lt_of_lt less))
  obtain ⟨-, upper, oddx⟩ := bounds_of_roundsFrom hx
  obtain ⟨lower, -, oddy⟩ := bounds_of_roundsFrom hy
  rw [upperEnd_eq] at upper oddx
  rw [lowerEnd_eq same] at lower oddy
  rw [same] at less oddy
  have ends : midpoint m ≤ midpoint x.magnitude :=
    Nat.le_of_mul_le_mul_right (Nat.le_trans lower upper) pos
  have next : x.magnitude = m := by
    cases Nat.lt_or_eq_of_le (Nat.le_of_lt_succ less) with
    | inl less => exact absurd ends (Nat.not_le_of_gt (midpoint_lt less))
    | inr same => exact same
  -- the point is the midpoint of neighbours, of which one is odd and does not have it
  rw [next] at upper oddx
  by_cases even : m % 2 = 0
  · have := (oddy (by omega)).1
    omega
  · have := (oddx even).2
    omega

/-- A ratio rounds to one magnitude. -/
theorem magnitude_eq_of_roundsFrom (pos : 0 < den) (hx : x.roundsFrom num den = true)
    (hy : y.roundsFrom num den = true) : x.magnitude = y.magnitude := by
  cases Nat.lt_trichotomy x.magnitude y.magnitude with
  | inl less => exact (not_roundsFrom_of_lt pos less hx hy).elim
  | inr h =>
    cases h with
    | inl same => exact same
    | inr more => exact (not_roundsFrom_of_lt pos more hy hx).elim

/-- Zero rounds to no other magnitude. -/
lemma not_roundsFrom_zero (nonzero : x.isZero = false) (pos : 0 < den) :
    x.roundsFrom 0 den = false := by
  obtain ⟨m, same⟩ := Nat.exists_eq_add_one_of_ne_zero (magnitude_ne_zero nonzero)
  have above : 0 < x.lowerEnd := by
    have := gapOf_pos (m := m)
    rw [lowerEnd_eq same, midpoint, unitsOf_succ]
    omega
  have lower : 0 < x.lowerEnd * den := Nat.mul_pos above pos
  rw [Bool.eq_false_iff]
  intro h
  have := (bounds_of_roundsFrom h).1
  omega

/-- A magnitude rounds to itself. -/
lemma roundsFrom_self (nonzero : x.isZero = false) (pos : 0 < den)
    (exact : num * unitsPerOne = x.units * den) : x.roundsFrom num den = true := by
  obtain ⟨m, same⟩ := Nat.exists_eq_add_one_of_ne_zero (magnitude_ne_zero nonzero)
  have lower : x.lowerEnd < 4 * x.units := by
    have := gapOf_pos (m := m)
    rw [lowerEnd_eq same, units_eq, same, midpoint, unitsOf_succ]
    omega
  have upper : 4 * x.units < x.upperEnd := by
    have := gapOf_pos (m := m + 1)
    rw [upperEnd_eq, units_eq, same, midpoint, unitsOf_succ (m + 1)]
    omega
  have point : num * quartersPerOne = 4 * x.units * den := by
    rw [quartersPerOne, Nat.mul_left_comm, exact, Nat.mul_assoc]
  have below := Nat.mul_lt_mul_of_pos_right lower pos
  have above := Nat.mul_lt_mul_of_pos_right upper pos
  unfold roundsFrom
  dsimp only
  rw [point]
  split_ifs
  · simp [Nat.le_of_lt below, Nat.le_of_lt above]
  · simp [below, above]

end TypeSchema.Binary64
