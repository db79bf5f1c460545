import Mathlib.Data.Finset.Card
import Mathlib.Order.Bounds.Basic
import Mathlib.Order.Interval.Finset.Nat
import TypeSchema.Proofs.Import.Claim
import TypeSchema.Proofs.Import.Run

/-!
# The numbers of claimed identifiers

A name that is taken, and a type without a name, get the least number that makes a free identifier.
`Search` counts up to it as long as it takes, one 32-bit number after the other. It comes to an end
since the identifiers in use are finitely many and no two numbers make the same one, and it tries at
most one number more than there are identifiers in use. So 32 bits are enough for a name if fewer
than `2 ^ 32 - 2` identifiers are in use, and for a type without a name if the count and the used
identifiers together leave one number over. In an import they need not even do so: the numbers up to
the count have all made identifiers that are used, so these are not in the way of the next ones.
-/

namespace TypeSchema

variable {name start : String} {n : Nat}

/-- A number is not empty. -/
lemma toString_ne_empty : toString n ≠ "" := by
  intro e
  have digits : Nat.toDigits 10 n = [] := by
    rw [← Nat.toList_repr]
    exact congrArg String.toList e
  exact Nat.toDigits_ne_nil digits

lemma numbered_ne_empty : name ++ toString n ≠ "" := by
  intro e
  exact toString_ne_empty (String.append_eq_empty_iff.1 e).2

/-- A number changes the name. -/
lemma numbered_ne_self : name ++ toString n ≠ name := by
  intro e
  exact toString_ne_empty (String.append_eq_left_iff.1 e)

namespace ImportState

/-- Counting up from a number through 32-bit ones, a search comes to the first number whose
candidate is free. Past the greatest number it comes to nothing. -/
inductive Search (used : List String) (candidate : Nat → String) : Nat → Nat → Prop
  | free {number} :
    number < UInt32.size →
    candidate number ∉ used →
    Search used candidate number number
  | taken {number last} :
    candidate number ∈ used →
    Search used candidate (number + 1) last →
    Search used candidate number last

/-- Every number up to the count makes an identifier that is used. -/
def Counts (s : ImportState) (start : String) : Prop :=
  ∀ number, 0 < number → number ≤ s.anonymousCount → start ++ toString number ∈ s.usedIdentifiers

/-! ### The least free number -/

section

variable {used : List String} {candidate : Nat → String} {first last : Nat}

/-- The least free number is found by a search, if it is a 32-bit one. -/
lemma search_of_isLeast (least : IsLeast {n | first ≤ n ∧ candidate n ∉ used} last)
    (fits : last < UInt32.size) : Search used candidate first last := by
  obtain ⟨⟨le, free⟩, lower⟩ := least
  obtain ⟨distance, rfl⟩ := Nat.exists_eq_add_of_le le
  -- Each number that is taken brings the search one number closer.
  induction distance generalizing first with
  | zero => exact .free fits free
  | succ distance ih =>
    have taken : candidate first ∈ used := by
      by_contra free
      have := lower ⟨Nat.le_refl first, free⟩
      omega
    have next : first + 1 + distance = first + (distance + 1) := by omega
    refine .taken taken ?_
    rw [← next] at fits free lower ⊢
    exact ih fits (fun n m => lower ⟨Nat.le_of_succ_le m.1, m.2⟩) (Nat.le_add_right _ _) free

/-- The candidates below the first free one are used. -/
lemma firstFree_cases (used : List String) (candidate : Nat → String) (tries first : Nat) :
    (firstFree used candidate tries first).1 =
        candidate (firstFree used candidate tries first).2 ∧
      first ≤ (firstFree used candidate tries first).2 ∧
      ∀ n, first ≤ n → n < (firstFree used candidate tries first).2 → candidate n ∈ used := by
  induction tries generalizing first with
  | zero => exact ⟨rfl, Nat.le_refl _, fun n le lt => absurd lt (Nat.not_lt.2 le)⟩
  | succ tries ih =>
    unfold firstFree
    split
    case isTrue taken =>
      obtain ⟨made, le, below⟩ := ih (first + 1)
      refine ⟨made, Nat.le_of_succ_le le, fun n le lt => ?_⟩
      rcases Nat.eq_or_lt_of_le le with rfl | later
      · exact taken
      · exact below n later lt
    case isFalse => exact ⟨rfl, Nat.le_refl _, fun n le lt => absurd lt (Nat.not_lt.2 le)⟩

/-- Among more candidates than used identifiers the least free one is found. -/
lemma isLeast_firstFree {tries : Nat} (inj : ∀ m n, candidate m = candidate n → m = n)
    (l : used.length ≤ tries) :
    IsLeast {n | first ≤ n ∧ candidate n ∉ used} (firstFree used candidate tries first).2 := by
  obtain ⟨made, le, below⟩ := firstFree_cases used candidate tries first
  refine ⟨⟨le, ?_⟩, fun n m => ?_⟩
  · rw [← made]
    exact firstFree_not_mem inj l
  · by_contra lt
    exact m.2 (below n m.1 (Nat.lt_of_not_le lt))

/-- No more numbers are passed over than there are taken identifiers. -/
lemma number_le_of_taken (candidate : Nat → String) {taken : Finset String}
    (inj : ∀ m n, candidate m = candidate n → m = n)
    (below : ∀ n, first ≤ n → n < last → candidate n ∈ taken) : last ≤ first + taken.card := by
  have card : (Finset.Ico first last).card ≤ taken.card := by
    refine Finset.card_le_card_of_injOn candidate (fun n m => ?_) fun m _ n _ e => inj m n e
    obtain ⟨le, lt⟩ := Finset.mem_Ico.1 m
    exact below n le lt
  rw [Nat.card_Ico] at card
  omega

/-- Below the least free number there is none that is free. -/
lemma mem_of_isLeast (least : IsLeast {n | first ≤ n ∧ candidate n ∉ used} last) (le : first ≤ n)
    (lt : n < last) : candidate n ∈ used := by
  by_contra free
  exact absurd (least.2 ⟨le, free⟩) (Nat.not_le.2 lt)

end

/-! ### Claims -/

variable {s : ImportState} {number : Nat}

/-- A name that is taken is claimed with the least number that makes it free. -/
lemma claim_of_mem (m : name ∈ s.usedIdentifiers) : ∃ number,
    (s.claim name).1 = name ++ toString number ∧
      IsLeast {n | 2 ≤ n ∧ name ++ toString n ∉ s.usedIdentifiers} number := by
  unfold claim
  rw [if_pos m]
  exact ⟨_, (firstFree_cases _ _ _ _).1,
    isLeast_firstFree (fun _ _ => numbered_injective) (Nat.le_refl _)⟩

/-- A name that is taken is none of those that are tried for it. -/
lemma number_lt_of_claim (m : name ∈ s.usedIdentifiers)
    (least : IsLeast {n | 2 ≤ n ∧ name ++ toString n ∉ s.usedIdentifiers} number)
    (few : s.usedIdentifiers.toFinset.card < UInt32.size - 2) : number < UInt32.size := by
  -- The numbers start at two, but one of the used identifiers is the name itself.
  have le : number ≤ 2 + (s.usedIdentifiers.toFinset.erase name).card := by
    refine number_le_of_taken (fun n => name ++ toString n) (fun _ _ => numbered_injective)
      fun n le lt => ?_
    have taken : name ++ toString n ∈ s.usedIdentifiers := mem_of_isLeast least le lt
    exact Finset.mem_erase.2 ⟨numbered_ne_self, List.mem_toFinset.2 taken⟩
  rw [Finset.card_erase_of_mem (List.mem_toFinset.2 m)] at le
  omega

/-- A numbered prefix is claimed with the least free number above the count, which it becomes. -/
lemma claimAnonymous_eq (s : ImportState) (start : String) : ∃ number,
    s.claimAnonymous start = (start ++ toString number,
        { s.use (start ++ toString number) with anonymousCount := number }) ∧
      IsLeast {n | s.anonymousCount < n ∧ start ++ toString n ∉ s.usedIdentifiers} number := by
  have made := (firstFree_cases s.usedIdentifiers (fun number => start ++ toString number)
    s.usedIdentifiers.length (s.anonymousCount + 1)).1
  refine ⟨_, ?_, isLeast_firstFree (fun _ _ => numbered_injective) (Nat.le_refl _)⟩
  unfold claimAnonymous
  rw [← made]

/-- The numbers that are passed over are of used identifiers, and so are those up to the count if it
is a count of such. -/
lemma number_lt_of_claimAnonymous
    (least : IsLeast {n | s.anonymousCount < n ∧ start ++ toString n ∉ s.usedIdentifiers} number)
    (few : s.anonymousCount + s.usedIdentifiers.toFinset.card + 1 < UInt32.size ∨
      s.Counts start ∧ s.usedIdentifiers.toFinset.card < UInt32.size - 2) :
    number < UInt32.size := by
  have taken : ∀ n, s.anonymousCount < n → n < number →
      start ++ toString n ∈ s.usedIdentifiers.toFinset := fun n le lt =>
    List.mem_toFinset.2 (mem_of_isLeast least le lt)
  rcases few with few | ⟨counts, few⟩
  · have le := number_le_of_taken (fun n => start ++ toString n)
      (fun _ _ => numbered_injective) taken
    omega
  · have le : number ≤ 1 + s.usedIdentifiers.toFinset.card := by
      refine number_le_of_taken (fun n => start ++ toString n)
        (fun _ _ => numbered_injective) fun n pos lt => ?_
      by_cases above : s.anonymousCount < n
      · exact taken n above lt
      · exact List.mem_toFinset.2 (counts n pos (Nat.le_of_not_lt above))
    omega

/--
An identifier that is claimed was free and is not empty, unless its name is; it is all that comes to
be used. A free name is claimed as it is, and a taken one with the least number from two on that
makes it free; a prefix is claimed with the least free number above the count. Searches for these
numbers, which have no bound but that of 32-bit numbers, come to them: for a name if fewer than
`2 ^ 32 - 2` identifiers are used, and for a prefix if that many are used and the numbers up to the
count are among theirs, or if the count and the used identifiers leave one number over.
-/
theorem claims_fresh (s : ImportState) (name start : String) :
    (s.claim name).1 ∉ s.usedIdentifiers ∧ (name ≠ "" → (s.claim name).1 ≠ "") ∧
      (s.claim name).2 = s.use (s.claim name).1 ∧
      (name ∉ s.usedIdentifiers → (s.claim name).1 = name) ∧
      (name ∈ s.usedIdentifiers → ∃ number, (s.claim name).1 = name ++ toString number ∧
        IsLeast {n | 2 ≤ n ∧ name ++ toString n ∉ s.usedIdentifiers} number ∧
        (s.usedIdentifiers.toFinset.card < UInt32.size - 2 →
          Search s.usedIdentifiers (fun n => name ++ toString n) 2 number)) ∧
      (s.claimAnonymous start).1 ∉ s.usedIdentifiers ∧ (s.claimAnonymous start).1 ≠ "" ∧
      ∃ number, s.claimAnonymous start = (start ++ toString number,
          { s.use (start ++ toString number) with anonymousCount := number }) ∧
        IsLeast {n | s.anonymousCount < n ∧ start ++ toString n ∉ s.usedIdentifiers} number ∧
        (s.anonymousCount + s.usedIdentifiers.toFinset.card + 1 < UInt32.size ∨
            s.Counts start ∧ s.usedIdentifiers.toFinset.card < UInt32.size - 2 →
          Search s.usedIdentifiers (fun n => start ++ toString n) (s.anonymousCount + 1)
            number) := by
  obtain ⟨count, made, leastCount⟩ := claimAnonymous_eq s start
  refine ⟨claim_not_mem, fun ne => ?_, claim_state, fun free => ?_, fun m => ?_,
    claimAnonymous_not_mem, ?_, count, made, leastCount, fun few => ?_⟩
  · by_cases m : name ∈ s.usedIdentifiers
    · obtain ⟨number, e, -⟩ := claim_of_mem m
      rw [e]
      exact numbered_ne_empty
    · rw [claim_of_not_mem m]
      exact ne
  · rw [claim_of_not_mem free]
  · obtain ⟨number, e, least⟩ := claim_of_mem m
    exact ⟨number, e, least, fun few => search_of_isLeast least (number_lt_of_claim m least few)⟩
  · rw [made]
    exact numbered_ne_empty
  · exact search_of_isLeast leastCount (number_lt_of_claimAnonymous leastCount few)

/-- Where the count is the greatest number, there is no number left though none is used; no import
comes to count so far. -/
example : ¬ ∃ number, Search [] (fun n => start ++ toString n) (UInt32.size - 1 + 1) number := by
  rintro ⟨number, h⟩
  cases h with
  | free fits => exact absurd fits (by decide)
  | taken taken => cases taken

/-- Candidates of different names may be the same: `T12` is one of `T` and one of `T1`. -/
example : (claim ⟨.new ⟨0, 0⟩, [], [], ["T12", "T1", "T"], 0⟩ "T1").1 = "T13" := by
  decide

/-! ### Counts of an import -/

/-- A name that is claimed does not change the count. -/
lemma Counts.claim (c : s.Counts start) (name : String) : (s.claim name).2.Counts start := by
  rw [claim_state]
  exact fun number pos le => List.mem_cons_of_mem _ (c number pos le)

/-- A claimed prefix makes the numbers up to its own ones of used identifiers. -/
lemma Counts.claimAnonymous (c : s.Counts start) : (s.claimAnonymous start).2.Counts start := by
  obtain ⟨count, made, least⟩ := claimAnonymous_eq s start
  rw [made]
  intro number pos le
  have le : number ≤ count := le
  rcases Nat.eq_or_lt_of_le le with rfl | below
  · exact List.mem_cons_self
  · refine List.mem_cons_of_mem _ ?_
    by_cases above : s.anonymousCount < number
    · exact mem_of_isLeast least above below
    · exact c number pos (Nat.le_of_not_lt above)

/-- If the numbers up to the count of the first state are of used identifiers, so are those up to
the count of the second. -/
def KeepsCounts (start : String) (s t : ImportState) : Prop := s.Counts start → t.Counts start

lemma KeepsCounts.refl (s : ImportState) : KeepsCounts start s s := fun c => c

lemma KeepsCounts.trans (s t u : ImportState) (h : KeepsCounts start s t)
    (h' : KeepsCounts start t u) : KeepsCounts start s u := fun c => h' (h c)

end ImportState

namespace Importer

open ImportState

variable {importer : Importer} {room : Nat} {id : TypeId} {α : Type}

/-- Whether it succeeds or stops, the walk keeps the numbers up to the count used. -/
def Counting (importer : Importer) (walk : ImportWalk α) : Prop :=
  walk.Behaves (KeepsCounts importer.options.anonymousPrefix) fun _ => True

lemma counting_pure {a : α} : importer.Counting (pure a : ImportWalk α) :=
  Walk.behaves_pure KeepsCounts.refl

lemma counting_fail {error : ImportError} :
    importer.Counting (Walk.fail error : ImportWalk α) :=
  Walk.behaves_fail KeepsCounts.refl trivial

lemma counting_constructed {result : Except ConstructionError α} :
    importer.Counting (ImportWalk.constructed result) := by
  cases result with
  | ok => exact counting_pure
  | error => exact counting_fail

lemma Counting.bind {β : Type} {walk : ImportWalk α} {next : α → ImportWalk β}
    (h : importer.Counting walk) (h' : ∀ a, importer.Counting (next a)) :
    importer.Counting (walk >>= next) := Walk.Behaves.bind KeepsCounts.trans h h'

lemma counting_importLeaf {leaf : ImportWalk Schema}
    (e : importer.importLeaf? id (importer.checker.flags id) = some leaf) :
    importer.Counting leaf := by
  rcases importLeaf_cases e with ⟨node, rfl⟩ | rfl
  · exact counting_pure
  · exact counting_fail

/-- What a type is referred to by is claimed. -/
lemma counting_identifierFor : importer.Counting (importer.identifierFor id) := by
  intro s
  have g : (importer.identifierFor id).run s =
      (.ok (importer.refer id s).1, (importer.refer id s).2) := gives_identifierFor.2 rfl
  rw [g]
  refine ⟨fun c => ?_, fun _ _ => trivial⟩
  unfold refer
  cases s.currentIdentifier? id with
  | some => exact c
  | none =>
    cases importer.aliasName? id with
    | some name => exact c.claim name
    | none => exact c.claimAnonymous

lemma counting_importStructure {importPart : TypeId → ImportWalk Schema}
    (n : importer.importLeaf? id (importer.checker.flags id) = none)
    (h : ∀ id, importer.Counting (importPart id)) :
    importer.Counting
      (importer.importStructure importPart id (importer.checker.flags id)) := by
  rw [importStructure_eq n]
  refine Counting.bind (Walk.Behaves.mapM KeepsCounts.refl KeepsCounts.trans fun step => ?_)
    fun _ => counting_pure
  cases step with
  | part id => exact h id
  | stop error => exact counting_fail

/-- What a type is completed under is claimed. -/
lemma counts_conclude {isNested : Bool} {identifier : Option String} {s : ImportState}
    {start : String} (c : s.Counts start) :
    (importer.conclude isNested id identifier s).2.Counts start := by
  unfold conclude
  split
  · exact c
  · split
    · split
      · exact c.claim _
      · exact c
    · exact c

lemma counting_importEntered {body : ImportWalk Schema} {isNested : Bool}
    (h : importer.Counting body) :
    importer.Counting (importer.importEntered body isNested id) := by
  intro s
  refine ⟨fun c => ?_, fun _ _ => trivial⟩
  have inside := (h (s.setProgress id none)).1 c
  refine importEntered_outcome ?misused ?stopped ?completed
  case misused =>
    intro result t misuse b l
    rwa [b] at inside
  case stopped =>
    intro stop t guard b l
    rw [b] at inside
    exact inside
  case completed =>
    intro built t guard identifier u b l e
    rw [b] at inside
    have concluded : (importer.conclude isNested id (t.currentIdentifier? id)
        (t.left guard id)).2.Counts importer.options.anonymousPrefix := counts_conclude inside
    rw [e] at concluded
    cases identifier with
    | some => exact concluded
    | none => exact concluded

lemma counting_importWith {importPart? : Option (TypeId → ImportWalk Schema)}
    (h : ∀ importPart, importPart? = some importPart →
      ∀ id, importer.Counting (importPart id)) :
    importer.Counting (importer.importWith importPart? id) := by
  intro s
  refine importWith_outcome ?leaf ?named ?entered ?cycle ?limited
  case leaf => exact fun walk n => counting_importLeaf n s
  case named => exact fun n identifier c => counting_constructed s
  case entered =>
    intro n c guard e importPart p
    exact counting_importEntered (counting_importStructure n (h importPart p)) { s with guard }
  case cycle =>
    intro n c guard e
    exact counting_identifierFor.bind (fun _ => counting_constructed) { s with guard }
  case limited => exact fun n c answer guard e limit => counting_fail { s with guard }

/-- Every import counts its numbers. -/
theorem counting_importType : importer.Counting (importer.importType room id) := by
  induction room generalizing id with
  | zero => exact counting_importWith nofun
  | succ room ih =>
    apply counting_importWith
    rintro importPart e
    cases e
    exact fun id => ih

/-- Whatever an importer is asked, the numbers up to its count have made identifiers that it has
used, so the next search for a number has nothing to fear from these. -/
theorem counts_importEach {ids : List TypeId} :
    (importer.importEach ids).2.Counts importer.options.anonymousPrefix := by
  have walks : ∀ walk ∈ ids.map importer.importRoot, importer.Counting walk := by
    intro walk m
    obtain ⟨id, -, rfl⟩ := List.mem_map.1 m
    exact counting_importType
  have keeps : KeepsCounts _ importer.start (importer.importEach ids).2 :=
    Walk.Behaves.runEach KeepsCounts.refl KeepsCounts.trans walks
  exact keeps fun number pos le => absurd pos (Nat.not_lt.2 le)

end Importer

end TypeSchema
