import Mathlib.Data.List.Forall2
import Mathlib.Data.List.Nodup
import Mathlib.Tactic.Lemma
import TypeSchema.Names

/-!
# Lists of names and of places

A list of entries stands for a map: a name is looked up as its first entry. Lists of one length
stand for each other place by place, and what is found in one of them is found in the other where
the relation between the places goes one to one.
-/

namespace TypeSchema

/-- The first find in lists that are joined is the first find in one of them. -/
lemma findSome?_flatMap {α β γ : Type} {f : β → Option γ} {g : α → List β} {as : List α} :
    (as.flatMap g).findSome? f = as.findSome? fun a => (g a).findSome? f := by
  induction as with
  | nil => rfl
  | cons a as ih =>
    rw [List.flatMap_cons, List.findSome?_append, ih, List.findSome?_cons]
    cases (g a).findSome? f <;> rfl

/-- Changing the values of entries changes what is found. -/
lemma lookup_map_snd {κ α β : Type} [BEq κ] {entries : List (κ × α)} {key : κ} {f : α → β} :
    (entries.map (Prod.map id f)).lookup key = (entries.lookup key).map f := by
  induction entries with
  | nil => rfl
  | cons entry entries ih =>
    obtain ⟨name, value⟩ := entry
    simp only [List.map_cons, Prod.map_apply, id, List.lookup_cons, ih]
    split <;> rfl

variable {κ α : Type} [BEq κ] [LawfulBEq κ] {entries : List (κ × α)} {key : κ} {value : α}

/-- What a name is looked up as is one of its entries. -/
lemma mem_of_lookup (h : entries.lookup key = some value) : (key, value) ∈ entries := by
  obtain ⟨before, rest, rfl, -⟩ := List.lookup_eq_some_iff.1 h
  exact List.mem_append_right _ List.mem_cons_self

/-- A name that has an entry is found. -/
lemma lookup_ne_none (m : (key, value) ∈ entries) : entries.lookup key ≠ none := by
  intro h
  simpa using List.lookup_eq_none_iff.1 h _ m

/-- An entry is passed over by another name than its own. -/
lemma lookup_cons_of_ne {other : κ} (ne : key ≠ other) :
    List.lookup key ((other, value) :: entries) = entries.lookup key := by
  rw [List.lookup_cons, beq_eq_false_iff_ne.2 ne]

/-- An entry that is found already changes nothing that is found. -/
lemma lookup_cons_of_lookup {other : κ} (h : entries.lookup other = some value) :
    List.lookup key ((other, value) :: entries) = entries.lookup key := by
  by_cases e : key = other
  · rw [e, List.lookup_cons_self, h]
  · exact lookup_cons_of_ne e

/-- With one more entry there is something to be found for the names that had an entry. -/
lemma exists_lookup_cons {other : κ} (h : key ≠ other → ∃ found, entries.lookup key = some found) :
    ∃ found, List.lookup key ((other, value) :: entries) = some found := by
  by_cases e : key = other
  · exact ⟨value, e ▸ List.lookup_cons_self⟩
  · rw [lookup_cons_of_ne e]
    exact h e

/-- The only entry of a name is found. -/
lemma lookup_of_mem (n : (entries.map (·.1)).Nodup) (m : (key, value) ∈ entries) :
    entries.lookup key = some value := by
  cases h : entries.lookup key with
  | none => exact absurd h (lookup_ne_none m)
  | some other =>
    have e := List.inj_on_of_nodup_map n (mem_of_lookup h) m rfl
    exact congrArg some (Prod.mk.inj e).2

/-- No name is repeated when all of them are different, and from those that are seen. -/
lemma firstRepeated?_eq_none {seen names : List String} :
    firstRepeated? seen names = none ↔ names.Nodup ∧ ∀ name ∈ names, name ∉ seen := by
  induction names generalizing seen with
  | nil => simp [firstRepeated?]
  | cons name names ih =>
    unfold firstRepeated?
    split
    case isTrue m => simp [m]
    case isFalse m =>
      rw [ih, List.nodup_cons]
      constructor
      · rintro ⟨n, all⟩
        refine ⟨⟨fun mn => all name mn List.mem_cons_self, n⟩, ?_⟩
        intro other mo
        cases mo with
        | head => exact m
        | tail _ mo => exact fun ms => all other mo (List.mem_cons_of_mem _ ms)
      · rintro ⟨⟨mn, n⟩, all⟩
        refine ⟨n, ?_⟩
        intro other mo ms
        cases ms with
        | head => exact mn mo
        | tail _ ms => exact all other (List.mem_cons_of_mem _ mo) ms

/-! ## Place by place -/

/-- Elements past the end of the other list are left out. -/
lemma zipWith_append_right {α β γ : Type} {f : α → β → γ} {as : List α} {bs cs : List β}
    (l : bs.length = as.length) : as.zipWith f (bs ++ cs) = as.zipWith f bs := by
  induction as generalizing bs with
  | nil => simp [List.length_eq_zero_iff.1 l]
  | cons a as ih =>
    cases bs with
    | nil => simp at l
    | cons b bs => simp [ih (Nat.succ.inj l)]

/-- Combining with the left elements alone gives the left elements. -/
lemma zipWith_left {α β γ : Type} {f : α → γ} {as : List α} {bs : List β}
    (l : bs.length = as.length) : as.zipWith (fun a _ => f a) bs = as.map f := by
  induction as generalizing bs with
  | nil => rfl
  | cons a as ih =>
    cases bs with
    | nil => simp at l
    | cons b bs => simp [ih (Nat.succ.inj l)]

/-- Combining with the right elements alone gives the right elements. -/
lemma zipWith_right {α β γ : Type} {f : β → γ} {as : List α} {bs : List β}
    (l : bs.length = as.length) : as.zipWith (fun _ b => f b) bs = bs.map f := by
  induction as generalizing bs with
  | nil => simp [List.length_eq_zero_iff.1 l]
  | cons a as ih =>
    cases bs with
    | nil => simp at l
    | cons b bs => simp [ih (Nat.succ.inj l)]

/-- What is made of the left elements and others is related to the left elements if each is. -/
lemma forall₂_zipWith_left {α β γ : Type} {P : α → γ → Prop} {f : α → β → γ} {as : List α}
    {bs : List β} (l : bs.length = as.length) (p : ∀ a b, P a (f a b)) :
    List.Forall₂ P as (as.zipWith f bs) := by
  induction as generalizing bs with
  | nil => simp
  | cons a as ih =>
    cases bs with
    | nil => simp at l
    | cons b bs => exact .cons (p a b) (ih (Nat.succ.inj l))

/-- What holds of the right elements holds of what is made of them, if it is kept by that. -/
lemma forall_mem_zipWith {α β γ : Type} {P : β → Prop} {Q : γ → Prop} {f : α → β → γ}
    {as : List α} {bs : List β} (all : ∀ b ∈ bs, P b) (h : ∀ a b, P b → Q (f a b)) :
    ∀ c ∈ as.zipWith f bs, Q c := by
  induction as generalizing bs with
  | nil => exact fun _ m => absurd m List.not_mem_nil
  | cons a as ih =>
    cases bs with
    | nil => exact fun _ m => absurd m List.not_mem_nil
    | cons b bs =>
      rintro c (_ | ⟨_, m⟩)
      · exact h a b (all b List.mem_cons_self)
      · exact ih (fun b m => all b (List.mem_cons_of_mem _ m)) c m

/-- The right elements are found again in what is made of them. -/
lemma map_zipWith_right {α β γ : Type} {f : α → β → γ} {part : γ → β} {as : List α} {bs : List β}
    (l : bs.length = as.length) (p : ∀ a b, part (f a b) = b) :
    (as.zipWith f bs).map part = bs := by
  induction as generalizing bs with
  | nil => simp [List.length_eq_zero_iff.1 l]
  | cons a as ih =>
    cases bs with
    | nil => simp at l
    | cons b bs => simp [p, ih (Nat.succ.inj l)]

/-- What is combined twice is combined once if the middle list does not matter. -/
lemma zipWith_zipWith_left {α β γ δ ε : Type} {f : α → β → γ} {g : γ → δ → ε} {h : α → δ → ε}
    {as : List α} {bs : List β} (e : ∀ a b d, g (f a b) d = h a d)
    (l : bs.length = as.length) (ds : List δ) :
    (as.zipWith f bs).zipWith g ds = as.zipWith h ds := by
  induction as generalizing bs ds with
  | nil => simp
  | cons a as ih =>
    cases bs with
    | nil => simp at l
    | cons b bs =>
      cases ds with
      | nil => simp
      | cons d ds => simp [e, ih (Nat.succ.inj l)]

/-- The right element at a place is combined with the left one there, or it is one of those past the
end of the left list. -/
lemma zipWith_or_rest {α β γ : Type} {as : List α} {bs cs : List β} {b : β} {i : Nat}
    (f : α → β → γ) (l : bs.length = as.length) (n : (bs ++ cs)[i]? = some b) :
    (∃ a, as[i]? = some a ∧ f a b ∈ as.zipWith f bs) ∨ as[i]? = none ∧ b ∈ cs := by
  cases m : as[i]? with
  | some a =>
    obtain ⟨h, -⟩ := List.getElem?_eq_some_iff.1 m
    rw [List.getElem?_append_left (l ▸ h)] at n
    refine .inl ⟨a, rfl, List.mem_of_getElem? (i := i) ?_⟩
    simp [List.getElem?_zipWith, m, n]
  | none =>
    have h := List.getElem?_eq_none_iff.1 m
    rw [List.getElem?_append_right (l ▸ h)] at n
    exact .inr ⟨rfl, List.mem_of_getElem? n⟩

/-- Elements that all have a counterpart are related to a list of these. -/
lemma exists_forall₂ {α β : Type} {R : α → β → Prop} {as : List α} (h : ∀ a ∈ as, ∃ b, R a b) :
    ∃ bs, List.Forall₂ R as bs := by
  induction as with
  | nil => exact ⟨[], .nil⟩
  | cons a as ih =>
    obtain ⟨⟨b, r⟩, all⟩ := List.forall_mem_cons.1 h
    obtain ⟨bs, rs⟩ := ih all
    exact ⟨b :: bs, .cons r rs⟩

/-- Every element stands for one of the other list. -/
lemma exists_of_forall₂ {α β : Type} {R : α → β → Prop} {as : List α} {bs : List β}
    (h : List.Forall₂ R as bs) : ∀ a ∈ as, ∃ b ∈ bs, R a b := by
  induction h with
  | nil => exact fun _ m => absurd m List.not_mem_nil
  | cons r _ ih =>
    intro a m
    cases m with
    | head => exact ⟨_, List.mem_cons_self, r⟩
    | tail _ m =>
      obtain ⟨b, mb, r⟩ := ih a m
      exact ⟨b, List.mem_cons_of_mem _ mb, r⟩

/-! ## Related lists -/

section

variable {α β γ δ : Type} {P : α → β → Prop} {as : List α} {bs : List β}

/-- Elements that are related are elements of the lists. -/
lemma forall₂_mem (h : List.Forall₂ P as bs) :
    List.Forall₂ (fun a b => a ∈ as ∧ b ∈ bs ∧ P a b) as bs := by
  have right : List.Forall₂ (fun b a => b ∈ bs ∧ P a b) bs as :=
    (List.forall₂_and_left _ _).2 ⟨fun _ m => m, h.flip⟩
  exact (List.forall₂_and_left _ _).2 ⟨fun _ m => m, right.flip⟩

/-- What is in a list at a position is related to what is there in the other list. -/
lemma getElem?_of_forall₂ {a : α} {i : Nat} (h : List.Forall₂ P as bs) (e : as[i]? = some a) :
    ∃ b, bs[i]? = some b ∧ P a b := by
  obtain ⟨l, rfl⟩ := List.getElem?_eq_some_iff.1 e
  have l' := h.length_eq ▸ l
  exact ⟨bs[i], List.getElem?_eq_getElem l', h.get l l'⟩

/-- Related lists are empty alike. -/
lemma isEmpty_of_forall₂ (h : List.Forall₂ P as bs) : as.isEmpty = bs.isEmpty := by
  cases h <;> rfl

/-- The last elements of related lists are related. -/
lemma getLastD_of_forall₂ (h : List.Forall₂ P as bs) {a : α} {b : β} (p : P a b) :
    P (as.getLastD a) (bs.getLastD b) := by
  induction h generalizing a b with
  | nil => exact p
  | cons first _ ih =>
    rw [List.getLastD_cons, List.getLastD_cons]
    exact ih first

/-- Related elements have a property in common if each has it when the other does. -/
lemma all_of_forall₂ {f : α → Bool} {g : β → Bool} (h : List.Forall₂ P as bs)
    (e : ∀ a b, P a b → f a = g b) : as.all f = bs.all g := by
  induction h with
  | nil => rfl
  | cons first _ ih => rw [List.all_cons, List.all_cons, e _ _ first, ih]

/-- The same is made of related elements if the same is made of each. -/
lemma mapM_of_forall₂ {f : α → Option γ} {g : β → Option γ} (h : List.Forall₂ P as bs)
    (e : ∀ a b, P a b → f a = g b) : as.mapM f = bs.mapM g := by
  induction h with
  | nil => rfl
  | cons first _ ih => rw [List.mapM_cons, List.mapM_cons, e _ _ first, ih]

/-- Related elements are combined with the same ones alike. -/
lemma zipWith_of_forall₂ {f : α → γ → δ} {g : β → γ → δ} (h : List.Forall₂ P as bs)
    (e : ∀ a b c, P a b → f a c = g b c) (cs : List γ) : as.zipWith f cs = bs.zipWith g cs := by
  induction h generalizing cs with
  | nil => simp
  | cons p _ ih =>
    cases cs with
    | nil => rfl
    | cons c cs => rw [List.zipWith_cons_cons, List.zipWith_cons_cons, e _ _ c p, ih]

/-- What is made of the same elements and related ones is related. -/
lemma forall₂_zipWith {Q : δ → δ → Prop} {f : γ → α → δ} {g : γ → β → δ}
    (h : List.Forall₂ P as bs) (e : ∀ c a b, P a b → Q (f c a) (g c b)) (cs : List γ) :
    List.Forall₂ Q (cs.zipWith f as) (cs.zipWith g bs) := by
  induction h generalizing cs with
  | nil => simp
  | cons p _ ih =>
    cases cs with
    | nil => exact .nil
    | cons c cs => exact .cons (e c _ _ p) (ih cs)

/-- Elements that were made of others are made of these again. -/
lemma zipWith_map_of_forall₂ {make : α → γ → β} {part : β → γ} (h : List.Forall₂ P as bs)
    (e : ∀ a b, P a b → make a (part b) = b) : as.zipWith make (bs.map part) = bs := by
  induction h with
  | nil => rfl
  | cons first _ ih => rw [List.map_cons, List.zipWith_cons_cons, e _ _ first, ih]

/-- Relations place by place are composed place by place. -/
lemma forall₂_comp {Q : β → γ → Prop} {R : α → γ → Prop} {cs : List γ}
    (h : List.Forall₂ P as bs) (h' : List.Forall₂ Q bs cs)
    (r : ∀ a b c, P a b → Q b c → R a c) : List.Forall₂ R as cs := by
  induction h generalizing cs with
  | nil =>
    cases h'
    exact .nil
  | cons p _ ih =>
    cases h' with
    | cons q h' => exact .cons (r _ _ _ p q) (ih h')

/-- Related options are present alike. -/
lemma isSome_of_rel {a? : Option α} {b? : Option β} (h : Option.Rel P a? b?) :
    a?.isSome = b?.isSome := by
  cases h <;> rfl

/-- The elements of related options are related. -/
lemma toList_of_rel {a? : Option α} {b? : Option β} (h : Option.Rel P a? b?) :
    List.Forall₂ P a?.toList b?.toList := by
  cases h with
  | some p => exact .cons p .nil
  | none => exact .nil

/-- Related lists that may be missing are related. -/
lemma getD_of_rel {as? : Option (List α)} {bs? : Option (List β)}
    (h : Option.Rel (List.Forall₂ P) as? bs?) : List.Forall₂ P (as?.getD []) (bs?.getD []) := by
  cases h with
  | some all => exact all
  | none => exact .nil

end

section

variable {R : κ → κ → Prop} (unique : Relator.BiUnique R) {other : κ}

include unique

/-- Related names are looked up as the same value if their entries correspond. -/
lemma lookup_of_forall₂ {entries entries' : List (κ × α)}
    (h : List.Forall₂ (fun entry entry' => R entry.1 entry'.1 ∧ entry.2 = entry'.2) entries
      entries')
    (r : R key other) : entries.lookup key = entries'.lookup other := by
  induction h with
  | nil => rfl
  | @cons entry entry' _ _ first _ ih =>
    obtain ⟨name, value⟩ := entry
    obtain ⟨name', value'⟩ := entry'
    obtain ⟨rn, rfl⟩ : R name name' ∧ value = value' := first
    have same : (key == name) = (other == name') := by
      rw [Bool.eq_iff_iff, beq_iff_eq, beq_iff_eq]
      exact Relator.rel_eq unique r rn
    rw [List.lookup_cons, List.lookup_cons, same, ih]

/-- Erasing related elements leaves related lists. -/
lemma erase_of_forall₂ {names names' : List κ} (h : List.Forall₂ R names names')
    (r : R key other) : List.Forall₂ R (names.erase key) (names'.erase other) := by
  induction h with
  | nil => exact .nil
  | @cons name name' _ _ rn all ih =>
    have same := Relator.rel_eq unique rn r
    rw [List.erase_cons, List.erase_cons]
    by_cases e : name = key
    · rw [if_pos (by simpa using e), if_pos (by simpa using same.1 e)]
      exact all
    · rw [if_neg (by simpa using e), if_neg (by simpa using mt same.2 e)]
      exact .cons rn ih

end

end TypeSchema
