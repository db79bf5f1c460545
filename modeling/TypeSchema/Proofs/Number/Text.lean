import TypeSchema.Number.Format
import TypeSchema.Proofs.Number.Intervals

/-!
# Numbers told by their texts

The shortest decimal of a number rounds to it, and the positional text of a decimal tells the ratio
that it is. So two finite numbers of one text are the same number.
-/

namespace TypeSchema

namespace Binary64

variable {x y : Binary64} {tie : Tie} {exponent : Int}

lemma gridStep_pos (exponent : Int) : 0 < (gridStep exponent).2 := by
  unfold gridStep
  split_ifs
  · exact Nat.one_pos
  · exact Nat.pow_pos (by decide)

/-- A point that is written for a number rounds to it. -/
lemma roundsFrom_of_gridPoint? {digits : Nat} (h : x.gridPoint? tie exponent = some digits) :
    x.roundsFrom (digits * (gridStep exponent).1) (gridStep exponent).2 = true := by
  unfold gridPoint? at h
  generalize gridStep exponent = step at h ⊢
  dsimp only at h
  generalize x.units * step.2 / (step.1 * unitsPerOne) = below at h
  generalize x.units * step.2 % (step.1 * unitsPerOne) = rest at h
  split at h
  · rename_i lower upper
    have even : below + below % 2 = below ∨ below + below % 2 = below + 1 := by omega
    split_ifs at h
    · cases h
      exact lower
    · cases h
      exact upper
    · cases tie with
      | upper =>
        cases h
        exact upper
      | even =>
        cases h
        cases even with
        | inl e =>
          rw [e]
          exact lower
        | inr e =>
          rw [e]
          exact upper
  · rename_i lower _
    cases h
    exact lower
  · rename_i _ upper
    cases h
    exact upper
  · cases h

/-- Every number lies on the finest grid. -/
lemma exists_gridPoint? (tie : Tie) (nonzero : x.isZero = false) :
    ∃ digits, x.gridPoint? tie (-1074) = some digits := by
  have divides : unitsPerOne ∣ (gridStep (-1074)).2 := by decide +kernel
  have pos := gridStep_pos (-1074)
  have one : (gridStep (-1074)).1 = 1 := by decide
  unfold gridPoint?
  generalize gridStep (-1074) = step at divides pos one
  obtain ⟨num, den⟩ := step
  cases one
  have exact : x.units * den / (1 * unitsPerOne) * 1 * unitsPerOne = x.units * den := by
    rw [Nat.one_mul, Nat.mul_one]
    exact Nat.div_mul_cancel (Nat.dvd_mul_left_of_dvd divides _)
  have lower := roundsFrom_self nonzero pos exact
  dsimp only
  rw [lower]
  cases x.roundsFrom ((x.units * den / (1 * unitsPerOne) + 1) * 1) den with
  | false => exact ⟨_, rfl⟩
  | true =>
    dsimp only
    split_ifs
    · exact ⟨_, rfl⟩
    · exact ⟨_, rfl⟩
    · cases tie <;> exact ⟨_, rfl⟩

/-- The first grid with a hit is at or above the finest one. -/
lemma roundsFrom_coarsestPoint (nonzero : x.isZero = false) {grids : Nat} (above : -1074 ≤ exponent)
    (enough : exponent - grids < -1074) :
    x.roundsFrom ((x.coarsestPoint tie grids exponent).digits *
        (gridStep (x.coarsestPoint tie grids exponent).exponent).1)
      (gridStep (x.coarsestPoint tie grids exponent).exponent).2 = true := by
  induction grids generalizing exponent with
  | zero =>
    have := Int.lt_of_le_of_lt above (by simpa using enough)
    omega
  | succ grids ih =>
    rw [coarsestPoint]
    split
    · rename_i digits h
      exact roundsFrom_of_gridPoint? h
    · rename_i none
      have finer : exponent ≠ -1074 := by
        rintro rfl
        obtain ⟨digits, hit⟩ := exists_gridPoint? tie nonzero
        rw [hit] at none
        cases none
      exact ih (by omega) (by omega)

/-- The shortest decimal of a number rounds to it. -/
theorem roundsFrom_shortest (tie : Tie) (nonzero : x.isZero = false) :
    x.roundsFrom ((x.shortest tie).digits * (gridStep (x.shortest tie).exponent).1)
      (gridStep (x.shortest tie).exponent).2 = true :=
  roundsFrom_coarsestPoint nonzero (by decide) (by decide)

end Binary64

namespace NumberFormat

variable {digits : List Char} {exponent : Int} {x y : Binary64}

/-- The ratio that a positional text spells. -/
def ratioOf (text : List Char) : Nat × Nat :=
  (Nat.ofDigitChars 10 (text.filter Char.isDigit) 0,
    Nat.pow 10 ((text.dropWhile (· != '.')).drop 1).length)

lemma filter_digits (h : ∀ c ∈ digits, c.isDigit = true) :
    digits.filter Char.isDigit = digits := List.filter_eq_self.2 h

lemma dropWhile_digits (h : ∀ c ∈ digits, c.isDigit = true) (rest : List Char) :
    (digits ++ rest).dropWhile (· != '.') = rest.dropWhile (· != '.') := by
  apply List.dropWhile_append_of_pos
  intro c m
  have ne : c ≠ '.' := by
    rintro rfl
    cases h '.' m
  simpa using ne

lemma isDigit_replicate {n : Nat} : ∀ c ∈ List.replicate n '0', c.isDigit = true := by
  intro c m
  rw [List.eq_of_mem_replicate m]
  rfl

/-- The ratio of digits without a point is whole. -/
lemma ratioOf_whole (h : ∀ c ∈ digits, c.isDigit = true) :
    ratioOf digits = (Nat.ofDigitChars 10 digits 0, 1) := by
  have noPoint := dropWhile_digits h []
  rw [List.append_nil] at noPoint
  rw [ratioOf, filter_digits h, noPoint]
  rfl

/-- The ratio of digits with a point between them. -/
lemma ratioOf_point {before behind : List Char} (h : ∀ c ∈ before, c.isDigit = true)
    (h' : ∀ c ∈ behind, c.isDigit = true) :
    ratioOf (before ++ '.' :: behind) =
      (Nat.ofDigitChars 10 (before ++ behind) 0, Nat.pow 10 behind.length) := by
  have digits : (before ++ '.' :: behind).filter Char.isDigit = before ++ behind := by
    rw [List.filter_append, filter_digits h, List.filter_cons_of_neg (by decide), filter_digits h']
  rw [ratioOf, digits, dropWhile_digits h]
  rfl

/-- A positional text spells its decimal. -/
theorem ratioOf_positionalText (h : ∀ c ∈ digits, c.isDigit = true) :
    ratioOf (plain.positionalText digits exponent) =
      (Nat.ofDigitChars 10 digits 0 * (Binary64.gridStep exponent).1,
        (Binary64.gridStep exponent).2) := by
  unfold positionalText Binary64.gridStep
  dsimp only
  split_ifs with whole point
  · have all : ∀ c ∈ digits ++ List.replicate exponent.toNat '0', c.isDigit = true := by
      intro c m
      exact (List.mem_append.1 m).elim (h c) (isDigit_replicate c)
    have noFraction : plain.wholeEnd = [] := rfl
    rw [noFraction, List.append_nil, ratioOf_whole all, Nat.ofDigitChars_append,
      Nat.ofDigitChars_replicate_zero, Nat.mul_comm]
    rfl
  · have length : (digits.drop (digits.length + exponent).toNat).length = (-exponent).toNat := by
      rw [List.length_drop]
      omega
    rw [ratioOf_point (fun c m => h c (List.mem_of_mem_take m))
      (fun c m => h c (List.mem_of_mem_drop m)), List.take_append_drop, length, Nat.mul_one]
  · have all : ∀ c ∈ List.replicate (-(digits.length + exponent)).toNat '0' ++ digits,
        c.isDigit = true := by
      intro c m
      exact (List.mem_append.1 m).elim (isDigit_replicate c) (h c)
    have length : (List.replicate (-(digits.length + exponent)).toNat '0' ++ digits).length =
        (-exponent).toNat := by
      rw [List.length_append, List.length_replicate]
      omega
    have zero : Nat.ofDigitChars 10 ['0'] 0 = 0 := rfl
    have digit : ∀ c ∈ ['0'], c.isDigit = true := List.forall_mem_singleton.2 rfl
    have point := ratioOf_point digit all
    rw [List.singleton_append] at point
    rw [point, length, Nat.mul_one, Nat.ofDigitChars_append, zero, Nat.ofDigitChars_append,
      Nat.ofDigitChars_replicate_zero, Nat.mul_zero]

lemma isDigit_toDigits {n : Nat} : ∀ c ∈ Nat.toDigits 10 n, c.isDigit = true :=
  fun _ m => Nat.isDigit_of_mem_toDigits (by decide) (by decide) m

/-- The text of a magnitude is zero's or that of the shortest decimal. -/
lemma magnitudeText_plain : plain.magnitudeText x =
    if x.isZero then ['0']
    else plain.positionalText (Nat.toDigits 10 (x.shortest .upper).digits)
      (x.shortest .upper).exponent := rfl

lemma ratioOf_magnitudeText (nonzero : x.isZero = false) :
    ratioOf (plain.magnitudeText x) =
      ((x.shortest .upper).digits * (Binary64.gridStep (x.shortest .upper).exponent).1,
        (Binary64.gridStep (x.shortest .upper).exponent).2) := by
  rw [magnitudeText_plain, nonzero, if_neg Bool.false_ne_true,
    ratioOf_positionalText isDigit_toDigits, Nat.ofDigitChars_ten_toDigits]

/-- The ratio that the text of a magnitude spells rounds to the magnitude. -/
lemma roundsFrom_ratioOf (nonzero : x.isZero = false) :
    x.roundsFrom (ratioOf (plain.magnitudeText x)).1
      (ratioOf (plain.magnitudeText x)).2 = true := by
  rw [ratioOf_magnitudeText nonzero]
  exact Binary64.roundsFrom_shortest .upper nonzero

lemma ratioOf_pos : 0 < (ratioOf (plain.magnitudeText x)).2 := Nat.pow_pos (by decide)

/-- A zero and another number do not have one text. -/
lemma magnitudeText_ne_zero (nonzero : x.isZero = false) : plain.magnitudeText x ≠ ['0'] := by
  intro e
  have rounds := roundsFrom_ratioOf nonzero
  rw [e] at rounds
  exact Bool.false_ne_true ((Binary64.not_roundsFrom_zero nonzero (by decide)).symm.trans rounds)

lemma isZero_iff : x.isZero = true ↔ x.magnitude = 0 := by
  rw [Binary64.isZero, Binary64.exponentField_eq, Binary64.fraction_eq, Bool.and_eq_true,
    beq_iff_eq, beq_iff_eq]
  simp only [Nat.pow_eq]
  omega

/-- A magnitude is told by its text. -/
theorem magnitude_eq_of_magnitudeText (h : plain.magnitudeText x = plain.magnitudeText y) :
    x.magnitude = y.magnitude := by
  have zeroText {z : Binary64} (zero : z.isZero = true) : plain.magnitudeText z = ['0'] := by
    rw [magnitudeText_plain, if_pos zero]
  cases zx : x.isZero with
  | true =>
    cases zy : y.isZero with
    | true => rw [isZero_iff.1 zx, isZero_iff.1 zy]
    | false => exact absurd (h.symm.trans (zeroText zx)) (magnitudeText_ne_zero zy)
  | false =>
    cases zy : y.isZero with
    | true => exact absurd (h.trans (zeroText zy)) (magnitudeText_ne_zero zx)
    | false =>
      have ry := roundsFrom_ratioOf zy
      rw [← h] at ry
      exact Binary64.magnitude_eq_of_roundsFrom ratioOf_pos (roundsFrom_ratioOf zx) ry

/-- The characters of a positional text are digits and points, and the first one is a digit. -/
lemma positionalText_eq_cons (h : ∀ c ∈ digits, c.isDigit = true) (ne : digits ≠ []) :
    ∃ c rest, plain.positionalText digits exponent = c :: rest ∧ c.isDigit = true ∧
      ∀ d ∈ rest, d.isDigit = true ∨ d = '.' := by
  obtain ⟨c, more, rfl⟩ := List.exists_cons_of_ne_nil ne
  have first : c.isDigit = true := h c List.mem_cons_self
  have others : ∀ d ∈ more, d.isDigit = true := fun d m => h d (List.mem_cons_of_mem _ m)
  unfold positionalText
  dsimp only
  split_ifs with whole point
  · refine ⟨c, more ++ List.replicate exponent.toNat '0' ++ [], rfl, first, fun d m => .inl ?_⟩
    rw [List.append_nil] at m
    exact (List.mem_append.1 m).elim (others d) (isDigit_replicate d)
  · obtain ⟨n, n_eq⟩ : ∃ n, ((c :: more).length + exponent).toNat = n + 1 :=
      Nat.exists_eq_add_one_of_ne_zero (by omega)
    refine ⟨c, more.take n ++ '.' :: more.drop n, ?_, first, fun d m => ?_⟩
    · rw [n_eq]
      rfl
    · cases List.mem_append.1 m with
      | inl m => exact .inl (others d (List.mem_of_mem_take m))
      | inr m =>
        cases List.mem_cons.1 m with
        | inl e => exact .inr e
        | inr m => exact .inl (others d (List.mem_of_mem_drop m))
  · refine ⟨'0', _, rfl, rfl, fun d m => ?_⟩
    cases List.mem_cons.1 m with
    | inl e => exact .inr e
    | inr m => exact .inl ((List.mem_append.1 m).elim (isDigit_replicate d) (h d))

lemma magnitudeText_eq_cons (x : Binary64) : ∃ c rest, plain.magnitudeText x = c :: rest ∧
    c.isDigit = true ∧ ∀ d ∈ rest, d.isDigit = true ∨ d = '.' := by
  rw [magnitudeText_plain]
  split_ifs
  · exact ⟨'0', [], rfl, rfl, nofun⟩
  · exact positionalText_eq_cons isDigit_toDigits Nat.toDigits_ne_nil

end NumberFormat

namespace Binary64

variable {x y : Binary64}

lemma bits_eq : x.bits.toNat = (if x.isNegative then Nat.pow 2 63 else 0) + x.magnitude := by
  have small := x.bits.toNat_lt
  rw [isNegative, magnitude]
  generalize x.bits.toNat = bits at small ⊢
  simp only [Nat.pow_eq, decide_eq_true_eq]
  split_ifs <;> omega

/-- A number is its sign and its magnitude. -/
lemma eq_of_magnitude (sign : x.isNegative = y.isNegative) (h : x.magnitude = y.magnitude) :
    x = y := by
  have bits : x.bits.toNat = y.bits.toNat := by rw [bits_eq, bits_eq, sign, h]
  cases x
  cases y
  exact congrArg mk (UInt64.toNat_inj.1 bits)

lemma text_eq (finite : x.isFinite = true) :
    x.text = String.ofList (NumberFormat.plain.finiteText x) := by
  have field : (x.exponentField == 2047) = false := by
    simpa [isFinite] using finite
  rw [text, isNaN, isInfinite, field]
  rfl

/-- Finite numbers are told by their texts. -/
theorem text_injective (hx : x.isFinite = true) (hy : y.isFinite = true) (h : x.text = y.text) :
    x = y := by
  have texts : NumberFormat.plain.finiteText x = NumberFormat.plain.finiteText y := by
    rw [text_eq hx, text_eq hy] at h
    exact String.ofList_injective h
  obtain ⟨c, rest, ex, dx, _⟩ := NumberFormat.magnitudeText_eq_cons x
  obtain ⟨d, rest', ey, dy, _⟩ := NumberFormat.magnitudeText_eq_cons y
  -- the sign stands first, where a magnitude has a digit
  have sign : x.isNegative = y.isNegative := by
    unfold NumberFormat.finiteText at texts
    rw [ex, ey] at texts
    cases nx : x.isNegative <;> cases ny : y.isNegative <;> rw [nx, ny] at texts
    · cases texts
      cases dx
    · cases texts
      cases dy
  refine eq_of_magnitude sign (NumberFormat.magnitude_eq_of_magnitudeText ?_)
  unfold NumberFormat.finiteText at texts
  rw [sign] at texts
  split_ifs at texts
  · exact (List.cons.inj texts).2
  · exact texts

end Binary64

end TypeSchema
