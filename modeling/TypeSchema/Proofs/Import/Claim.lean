import Mathlib.Data.List.Nodup
import Mathlib.Data.List.Perm.Subperm
import Mathlib.Tactic.Lemma
import TypeSchema.Import.State

/-!
# Fresh identifiers

An identifier that is claimed was not used before: among more candidates than there are used
identifiers one is free, since no two numbers make the same candidate.
-/

namespace TypeSchema

/-- The digits of a number determine it. -/
lemma toString_injective {m n : Nat} (h : toString m = toString n) : m = n := by
  have e : Nat.toDigits 10 m = Nat.toDigits 10 n := by
    rw [← Nat.toList_repr, ← Nat.toList_repr]
    exact congrArg String.toList h
  rw [← @Nat.ofDigitChars_ten_toDigits m, e, Nat.ofDigitChars_ten_toDigits]

/-- The number after a name determines the candidate. -/
lemma numbered_injective {name : String} {m n : Nat}
    (h : name ++ toString m = name ++ toString n) : m = n :=
  toString_injective ((String.append_right_inj name).1 h)

namespace ImportState

/-- If no candidate is free, all those that were tried are used. -/
lemma candidate_mem_of_firstFree_mem {used : List String} {candidate : Nat → String} {tries : Nat}
    {number : Nat} (h : (firstFree used candidate tries number).1 ∈ used) :
    ∀ k ≤ tries, candidate (number + k) ∈ used := by
  induction tries generalizing number with
  | zero =>
    intro k hk
    obtain rfl : k = 0 := by omega
    exact h
  | succ tries ih =>
    unfold firstFree at h
    split at h
    case isTrue m =>
      intro k hk
      cases k with
      | zero => exact m
      | succ k =>
        have h' := ih h k (by omega)
        rwa [show number + (k + 1) = number + 1 + k from by omega]
    case isFalse m => exact absurd h m

/-- Among more candidates than used identifiers one is free. -/
lemma firstFree_not_mem {used : List String} {candidate : Nat → String} {tries number : Nat}
    (inj : ∀ m n, candidate m = candidate n → m = n) (l : used.length ≤ tries) :
    (firstFree used candidate tries number).1 ∉ used := by
  intro h
  have all := candidate_mem_of_firstFree_mem h
  let tried := (List.range (tries + 1)).map fun k => candidate (number + k)
  have nodup : tried.Nodup := by
    refine List.Nodup.map ?_ List.nodup_range
    intro m n e
    have e := inj _ _ e
    omega
  have sub : tried ⊆ used := by
    intro name m
    obtain ⟨k, hk, rfl⟩ := List.mem_map.1 m
    exact all k (by simpa [Nat.lt_succ_iff] using hk)
  have := (nodup.subperm sub).length_le
  simp [tried] at this
  omega

/-- A claimed name was free. -/
lemma claim_not_mem {s : ImportState} {name : String} :
    (s.claim name).1 ∉ s.usedIdentifiers := by
  unfold claim
  split
  case isTrue => exact firstFree_not_mem (fun _ _ => numbered_injective) (Nat.le_refl _)
  case isFalse h => exact h

/-- Claiming a name changes nothing but the used identifiers, which gain it. -/
lemma claim_state {s : ImportState} {name : String} :
    (s.claim name).2 = s.use (s.claim name).1 := by
  unfold claim
  split <;> rfl

/-- A name that is free is claimed as it is. -/
lemma claim_of_not_mem {s : ImportState} {name : String} (h : name ∉ s.usedIdentifiers) :
    s.claim name = (name, s.use name) := by
  simp [claim, h]

/-- A numbered prefix that is claimed was free. -/
lemma claimAnonymous_not_mem {s : ImportState} {start : String} :
    (s.claimAnonymous start).1 ∉ s.usedIdentifiers :=
  firstFree_not_mem (fun _ _ => numbered_injective) (Nat.le_refl _)

/-- Claiming a numbered prefix changes the used identifiers and the count alone. -/
lemma claimAnonymous_state {s : ImportState} {start : String} :
    ∃ count, (s.claimAnonymous start).2 =
      { s.use (s.claimAnonymous start).1 with anonymousCount := count } := ⟨_, rfl⟩

end ImportState

end TypeSchema
