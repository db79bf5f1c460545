import TypeSchema.Proofs.Json.Containers

/-!
# Reading numbers in place

A number that is read as a whole text is read in front of whatever may close it, for its digits end
where the text does.
-/

namespace TypeSchema.Json

open Reader

variable {α β : Type} {step : List Char → Except Fault (α × List Char)}

/-- What is read does not depend on what closes it. -/
def Local (step : List Char → Except Fault (α × List Char)) : Prop :=
  ∀ text mid rest a, Closes rest → step text = .ok (a, mid) →
    step (text ++ rest) = .ok (a, mid ++ rest)

lemma local_ok {a : α} : Local fun text => .ok (a, text) := by
  intro text mid rest b _ h
  cases h
  rfl

lemma local_error {fault : Fault} :
    Local fun _ => (.error fault : Except Fault (α × List Char)) := by
  intro text mid rest b _ h
  cases h

lemma Local.bind {next : α × List Char → Except Fault (β × List Char)} (l : Local step)
    (l' : ∀ a, Local fun text => next (a, text)) : Local fun text => step text >>= next := by
  intro text mid rest b close h
  beta_reduce at h ⊢
  cases e : step text with
  | error fault =>
    rw [e] at h
    cases h
  | ok p =>
    rw [e] at h
    rw [l text p.2 rest p.1 close e]
    exact l' p.1 p.2 mid rest b close h

lemma Local.map {f : α → β} (l : Local step) :
    Local fun text => (step text).map fun (a, rest) => (f a, rest) := by
  intro text mid rest b close h
  beta_reduce at h ⊢
  cases e : step text with
  | error fault =>
    rw [e] at h
    cases h
  | ok p =>
    rw [e] at h
    rw [l text p.2 rest p.1 close e]
    cases h
    rfl

/-- A function that is told by the first character is local if nothing that closes it is among the
characters it looks for, and each way it may go is local. -/
lemma local_of_head (special : Char → Prop)
    (own : Char → List Char → Except Fault (α × List Char))
    (plain : List Char → Except Fault (α × List Char))
    (inner : ∀ c, special c → c ≠ ',' ∧ c ≠ ']' ∧ c ≠ '\x7d')
    (lo : ∀ c, Local (own c)) (lp : Local plain)
    (eo : ∀ c text, special c → step (c :: text) = own c text)
    (ep : ∀ text, (∀ c ∈ text.head?, ¬ special c) → step text = plain text) : Local step := by
  intro text mid rest a close h
  by_cases s : ∃ c ∈ text.head?, special c
  · obtain ⟨c, m, s⟩ := s
    obtain ⟨text, rfl⟩ : ∃ rest, text = c :: rest := List.head?_eq_some_iff.1 m
    rw [List.cons_append, eo c _ s]
    rw [eo c _ s] at h
    exact lo c text mid rest a close h
  · push Not at s
    rw [ep text s] at h
    rw [ep]
    · exact lp text mid rest a close h
    · intro c m
      cases text with
      | nil =>
        intro s
        obtain ⟨comma, bracket, brace⟩ := inner c s
        obtain rfl | rfl | rfl := close c m
        · exact comma rfl
        · exact bracket rfl
        · exact brace rfl
      | cons d text => exact s c m

lemma spanDigits_append {text rest : List Char} (close : Closes rest) :
    spanDigits (text ++ rest) = ((spanDigits text).1, (spanDigits text).2 ++ rest) := by
  induction text with
  | nil =>
    cases rest with
    | nil => rfl
    | cons c rest =>
      have h : c.isDigit = false := by
        obtain rfl | rfl | rfl := close c rfl <;> rfl
      simp [spanDigits, h]
  | cons c text ih =>
    simp only [spanDigits, Prod.mk.injEq] at ih
    cases h : c.isDigit <;> simp [spanDigits, h, ih.1, ih.2]

lemma local_someDigits : Local someDigits := by
  intro text mid rest digits close h
  rw [someDigits] at h ⊢
  rw [spanDigits_append close]
  generalize spanDigits text = span at h ⊢
  obtain ⟨run, behind⟩ := span
  cases run with
  | nil => cases behind <;> cases h
  | cons c run =>
    cases h
    rfl

lemma local_exponentPart : Local exponentPart := by
  let value (sign : Int) (digits : List Char) : Int :=
    sign * (digits.foldl (fun n c => 10 * n + digitValue c) 0 : Nat)
  let signed (sign : Int) (text : List Char) : Except Fault (Int × List Char) :=
    (someDigits text).map fun found => (value sign found.1, found.2)
  have l (sign : Int) : Local (signed sign) := local_someDigits.map
  refine local_of_head (fun c => c = '+' ∨ c = '-') (fun c => signed (if c = '+' then 1 else -1))
    (signed 1) ?_ (fun c => l _) (l 1) ?_ ?_
  · rintro c (rfl | rfl) <;> decide
  · rintro c text (rfl | rfl) <;> rfl
  · intro text h
    unfold exponentPart
    split
    · simp at h
    · simp at h
    · rfl

lemma local_floatEnd {negative : Bool} {significand : Nat} {exponent : Int} :
    Local (floatEnd negative significand exponent) := by
  let value (p : Int × List Char) : Except Fault (Numeral × List Char) :=
    floatOf negative significand (exponent + p.1) >>= fun value => .ok (value, p.2)
  have l (power : Int) : Local fun text => value (power, text) := by
    show Local fun text =>
      floatOf negative significand (exponent + power) >>= fun value => .ok (value, text)
    cases floatOf negative significand (exponent + power) with
    | error fault => exact local_error
    | ok value => exact local_ok
  refine local_of_head (fun c => c = 'e' ∨ c = 'E') (fun _ text => exponentPart text >>= value)
    (fun text => value (0, text)) ?_ (fun _ => local_exponentPart.bind l) (l 0) ?_ ?_
  · rintro c (rfl | rfl) <;> decide
  · rintro c text (rfl | rfl) <;> rfl
  · intro text h
    unfold floatEnd
    split
    · simp at h
    · simp at h
    · rfl

lemma local_numeralEnd {negative : Bool} {significand dropped : Nat} :
    Local (numeralEnd negative significand dropped) := by
  let whole (text : List Char) : Except Fault (Numeral × List Char) :=
    if dropped = 0 then .ok (integerOf negative significand, text)
    else floatEnd negative significand dropped text
  have lw : Local whole := by
    show Local fun text => if dropped = 0 then _ else _
    split_ifs
    · exact local_ok
    · exact local_floatEnd
  let fraction (p : List Char × List Char) : Except Fault (Numeral × List Char) :=
    let gathered := gather significand p.1
    floatEnd negative gathered.1 (dropped - (p.1.length - gathered.2 : Nat)) p.2
  have lf (digits : List Char) : Local fun text => fraction (digits, text) := by
    show Local fun text =>
      let gathered := gather significand digits
      floatEnd negative gathered.1 (dropped - (digits.length - gathered.2 : Nat)) text
    exact local_floatEnd
  -- an exponent letter is left to what reads the end of a floating point number
  let letter (c : Char) (text : List Char) := floatEnd negative significand dropped (c :: text)
  have ll (c : Char) : Local (letter c) := fun text => local_floatEnd (c :: text)
  refine local_of_head (fun c => c = '.' ∨ c = 'e' ∨ c = 'E')
    (fun c => if c = '.' then fun text => someDigits text >>= fraction else letter c)
    whole ?_ ?_ lw ?_ ?_
  · rintro c (rfl | rfl | rfl) <;> decide
  · intro c
    split_ifs
    · exact local_someDigits.bind lf
    · exact ll c
  · rintro c text (rfl | rfl | rfl) <;> rfl
  · intro text h
    unfold numeralEnd
    split
    · simp at h
    · simp at h
    · simp at h
    · rfl

lemma local_numeralAfterSign {negative : Bool} : Local (numeralAfterSign negative) := by
  let value (p : List Char × List Char) : Except Fault (Numeral × List Char) :=
    if p.1.head? = some '0' ∧ 1 < p.1.length then .error .malformed
    else
      let gathered := gather 0 p.1
      numeralEnd negative gathered.1 gathered.2 p.2
  have l (digits : List Char) : Local fun text => value (digits, text) := by
    show Local fun text =>
      if digits.head? = some '0' ∧ 1 < digits.length then .error .malformed
      else
        let gathered := gather 0 digits
        numeralEnd negative gathered.1 gathered.2 text
    split_ifs
    · exact local_error
    · exact local_numeralEnd
  exact local_someDigits.bind l

namespace Reader

variable {text rest : List Char} {number : Numeral}

/-- A number starts with its sign or with a digit. -/
theorem reads_head_number :
    head.Reads text (.number number) rest ↔
      ∃ c start, peek.Reads text (some c) start ∧
        (c = '-' ∧ numeralAfterSign true (start.drop 1) = .ok (number, rest) ∨
          c.isDigit = true ∧ numeralAfterSign false start = .ok (number, rest)) := by
  constructor
  · intro h
    obtain ⟨next, start, seen, h⟩ := reads_bind.1 h
    cases next with
    | none => cases not_reads_fail h
    | some c =>
      refine ⟨c, start, seen, ?_⟩
      dsimp only at h
      split_ifs at h with null true_ false_ minus digit quote array object
      · obtain ⟨_, _, _, h⟩ := reads_bind.1 h
        cases (reads_pure.1 h).1
      · obtain ⟨_, _, _, h⟩ := reads_bind.1 h
        cases (reads_pure.1 h).1
      · obtain ⟨_, _, _, h⟩ := reads_bind.1 h
        cases (reads_pure.1 h).1
      · obtain ⟨_, _, s, h⟩ := reads_bind.1 h
        cases reads_skip.1 s
        obtain ⟨n, mid, r, h⟩ := reads_bind.1 h
        obtain ⟨e, rfl⟩ := reads_pure.1 h
        cases e
        exact .inl ⟨minus, r⟩
      · obtain ⟨n, mid, r, h⟩ := reads_bind.1 h
        obtain ⟨e, rfl⟩ := reads_pure.1 h
        cases e
        exact .inr ⟨digit, r⟩
      · obtain ⟨_, _, _, h⟩ := reads_bind.1 h
        obtain ⟨_, _, _, h⟩ := reads_bind.1 h
        cases (reads_pure.1 h).1
      · obtain ⟨_, _, _, h⟩ := reads_bind.1 h
        cases (reads_pure.1 h).1
      · obtain ⟨_, _, _, h⟩ := reads_bind.1 h
        cases (reads_pure.1 h).1
      · cases not_reads_fail h
  · rintro ⟨c, start, seen, ⟨rfl, r⟩ | ⟨digit, r⟩⟩
    · refine seen.bind ?_
      exact Reads.bind ((reads_skip (u := ())).2 rfl)
        (Reads.bind (reads_ofStep.2 r) (reads_pure.2 ⟨rfl, rfl⟩))
    · have ne : c ≠ 'n' ∧ c ≠ 't' ∧ c ≠ 'f' ∧ c ≠ '-' := by
        refine ⟨?_, ?_, ?_, ?_⟩ <;> rintro rfl <;> cases digit
      refine seen.bind ?_
      simp only [if_neg ne.1, if_neg ne.2.1, if_neg ne.2.2.1, if_neg ne.2.2.2, if_pos digit]
      exact Reads.bind (reads_ofStep.2 r) (reads_pure.2 ⟨rfl, rfl⟩)

lemma Reads.peek_append {c : Char} {start : List Char} (h : peek.Reads text (some c) start) :
    peek.Reads (text ++ rest) (some c) (start ++ rest) := by
  obtain ⟨rfl, e⟩ := reads_peek.1 h
  obtain ⟨tail, e⟩ : ∃ tail, text.dropWhile isBlank = c :: tail := List.head?_eq_some_iff.1 e
  apply reads_peek.2
  rw [List.dropWhile_append, e]
  exact ⟨rfl, rfl⟩

/-- A whole text that is a number is read in place. -/
theorem Reads.head_append (h : head.Reads text (.number number) []) (close : Closes rest) :
    head.Reads (text ++ rest) (.number number) rest := by
  obtain ⟨c, start, seen, h⟩ := reads_head_number.1 h
  apply reads_head_number.2
  refine ⟨c, start ++ rest, seen.peek_append, ?_⟩
  cases h with
  | inl h =>
    refine .inl ⟨h.1, ?_⟩
    obtain ⟨tail, rfl⟩ : ∃ tail, start = c :: tail :=
      List.head?_eq_some_iff.1 (reads_peek.1 seen).2
    exact local_numeralAfterSign _ _ _ _ close h.2
  | inr h => exact .inr ⟨h.1, local_numeralAfterSign _ _ _ _ close h.2⟩

end Reader

end TypeSchema.Json
