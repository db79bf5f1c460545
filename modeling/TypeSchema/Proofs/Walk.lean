import Mathlib.Data.List.Forall2
import Mathlib.Tactic.Lemma
import TypeSchema.Walk.Monad

/-!
# Successful walks

A walk that gives a result is taken apart along its construction: a sequence gives a result when
both of its parts do, and a walk over a list when its steps do one after the other. `FailsOnly`
bounds the reasons for which a walk stops in the same way, and `StopsOnly` does so for walks that
are started in certain states. `Behaves` says what is true of the state that a walk leaves even when
it stops, and `BehavesFrom` says it of walks that are started in certain states. `Parallel` says
that two walks from related states have one outcome and leave related states, and `Mirrors` that a
change of the state before a walk is one of the state and the result after it.
-/

namespace TypeSchema.Walk

variable {σ ε α β : Type}

/-- Started in one state, the walk gives a result and leaves another state. -/
def Gives (walk : Walk σ ε α) (s : σ) (a : α) (s' : σ) : Prop := walk.run s = (.ok a, s')

/-- A result alone is given in every state. -/
lemma gives_pure {a b : α} {s s' : σ} :
    (pure a : Walk σ ε α).Gives s b s' ↔ a = b ∧ s = s' := by
  simp [Gives, run_pure]

/-- A walk that stops gives nothing. -/
lemma not_gives_fail {reason : ε} {s s' : σ} {a : α} :
    ¬ (fail reason : Walk σ ε α).Gives s a s' := by
  simp [Gives, run, fail]

/-- A sequence gives what its second part gives after the first one. -/
lemma gives_bind {walk : Walk σ ε α} {next : α → Walk σ ε β} {s s'' : σ} {b : β} :
    (walk >>= next).Gives s b s'' ↔
      ∃ a s', walk.Gives s a s' ∧ (next a).Gives s' b s'' := by
  unfold Gives
  rw [run_bind]
  cases e : walk.run s with
  | mk result s' =>
    cases result with
    | error stop => simp
    | ok a =>
      constructor
      · intro h
        exact ⟨a, s', rfl, h⟩
      · rintro ⟨a', s1, h1, h2⟩
        cases h1
        exact h2

/-- The state is given as it is. -/
lemma gives_get {s s' t : σ} : (get : Walk σ ε σ).Gives s t s' ↔ s = t ∧ s = s' := by
  simp [Gives, run, get]

/-- A change of the state always succeeds. -/
lemma gives_modify {change : σ → σ} {s s' : σ} {u : Unit} :
    (modify change : Walk σ ε Unit).Gives s u s' ↔ change s = s' := by
  simp [Gives, run, modify]

/-- A ready result is given if it is none of failure. -/
lemma gives_ofExcept {result : Except ε α} {s s' : σ} {a : α} :
    (ofExcept result : Walk σ ε α).Gives s a s' ↔ result = .ok a ∧ s = s' := by
  cases result <;> simp [Gives, run, ofExcept, fail, pure]

/-- Every element has a result in a relation, and each starts in the state that the one before it
leaves. -/
inductive Threads (R : α → σ → β → σ → Prop) : List α → σ → List β → σ → Prop
  | nil {s} : Threads R [] s [] s
  | cons {a as s b s' bs s''} :
    R a s b s' →
    Threads R as s' bs s'' →
    Threads R (a :: as) s (b :: bs) s''

/-- No elements are threaded to no results, in one state. -/
lemma threads_nil {R : α → σ → β → σ → Prop} {s s' : σ} {bs : List β} :
    Threads R [] s bs s' ↔ bs = [] ∧ s = s' := by
  constructor
  · intro h
    cases h
    exact ⟨rfl, rfl⟩
  · rintro ⟨rfl, rfl⟩
    exact .nil

/-- A relation that is implied threads the same elements. -/
lemma Threads.imp {R R' : α → σ → β → σ → Prop} {as : List α} {s s' : σ} {bs : List β}
    (h : Threads R as s bs s') (i : ∀ a s b s', R a s b s' → R' a s b s') :
    Threads R' as s bs s' := by
  induction h with
  | nil => exact .nil
  | cons r _ ih => exact .cons (i _ _ _ _ r) ih

/-- Only elements of the list are threaded, and only to results in the list of results. -/
lemma Threads.mem {R : α → σ → β → σ → Prop} {as : List α} {s s' : σ} {bs : List β}
    (h : Threads R as s bs s') :
    Threads (fun a s b s' => a ∈ as ∧ b ∈ bs ∧ R a s b s') as s bs s' := by
  induction h with
  | nil => exact .nil
  | cons r _ ih =>
    refine .cons ⟨List.mem_cons_self, List.mem_cons_self, r⟩ (ih.imp ?_)
    rintro a s b s' ⟨m, m', r⟩
    exact ⟨List.mem_cons_of_mem _ m, List.mem_cons_of_mem _ m', r⟩

/-- Every result is that of an element. -/
lemma Threads.exists_of_mem {R : α → σ → β → σ → Prop} {as : List α} {s s' : σ} {bs : List β}
    (h : Threads R as s bs s') : ∀ b ∈ bs, ∃ a ∈ as, ∃ t t', R a t b t' := by
  induction h with
  | nil =>
    intro b m
    cases m
  | cons r _ ih =>
    intro b m
    cases m with
    | head => exact ⟨_, List.mem_cons_self, _, _, r⟩
    | tail _ m =>
      obtain ⟨a, ma, r'⟩ := ih b m
      exact ⟨a, List.mem_cons_of_mem _ ma, r'⟩

/-- Every element has a result. -/
lemma Threads.exists_result {R : α → σ → β → σ → Prop} {as : List α} {s s' : σ} {bs : List β}
    (h : Threads R as s bs s') : ∀ a ∈ as, ∃ t b t', R a t b t' := by
  induction h with
  | nil =>
    intro a m
    cases m
  | cons r _ ih =>
    intro a m
    cases m with
    | head => exact ⟨_, _, _, r⟩
    | tail _ m => exact ih a m

/-- Every element has exactly one result. -/
lemma Threads.length {R : α → σ → β → σ → Prop} {as : List α} {s s' : σ} {bs : List β}
    (h : Threads R as s bs s') : bs.length = as.length := by
  induction h with
  | nil => rfl
  | cons _ _ ih => simp [ih]

/-- The elements of one list are threaded before those of the list behind it. -/
lemma Threads.append {R : α → σ → β → σ → Prop} {before after : List α} {s s' : σ} {bs : List β}
    (h : Threads R (before ++ after) s bs s') :
    ∃ firsts t rest, Threads R before s firsts t ∧ Threads R after t rest s' ∧
      bs = firsts ++ rest := by
  induction before generalizing s bs with
  | nil => exact ⟨[], s, bs, .nil, h, rfl⟩
  | cons a before ih =>
    cases h with
    | cons r h =>
      obtain ⟨firsts, t, rest, first, last, rfl⟩ := ih h
      exact ⟨_, t, rest, .cons r first, last, rfl⟩

/-- Elements that each have one result, and leave one state, have one list of results. -/
lemma Threads.unique {R : α → σ → β → σ → Prop} {as : List α} {s s' t : σ} {bs cs : List β}
    (h : Threads (fun a s b s' => ∀ c t, R a s c t → c = b ∧ t = s') as s bs s')
    (h' : Threads R as s cs t) : cs = bs ∧ t = s' := by
  induction h generalizing cs t with
  | nil =>
    cases h'
    exact ⟨rfl, rfl⟩
  | cons only _ ih =>
    cases h' with
    | cons r all =>
      obtain ⟨rfl, rfl⟩ := only _ _ r
      obtain ⟨rfl, rfl⟩ := ih all
      exact ⟨rfl, rfl⟩

/-- What each step preserves of the state, and how it may change, holds of all steps together. -/
lemma Threads.preserves {R : α → σ → β → σ → Prop} {I : σ → Prop} {E : σ → σ → Prop} {as : List α}
    {s s' : σ} {bs : List β} (h : Threads R as s bs s') (refl : ∀ s, E s s)
    (trans : ∀ s t u, E s t → E t u → E s u)
    (step : ∀ a s b s', R a s b s' → I s → I s' ∧ E s s') (i : I s) : I s' ∧ E s s' := by
  induction h with
  | nil => exact ⟨i, refl _⟩
  | cons r _ ih =>
    obtain ⟨i1, e1⟩ := step _ _ _ _ r i
    obtain ⟨i2, e2⟩ := ih i1
    exact ⟨i2, trans _ _ _ e1 e2⟩

/-- Each step starts in a state that the steps before it lead to, and the steps after it lead on
from the state it leaves. -/
lemma Threads.forall₂ {R : α → σ → β → σ → Prop} {I : σ → Prop} {E : σ → σ → Prop} {as : List α}
    {s s' : σ} {bs : List β} (h : Threads R as s bs s') (refl : ∀ s, E s s)
    (trans : ∀ s t u, E s t → E t u → E s u)
    (step : ∀ a s b s', R a s b s' → I s → I s' ∧ E s s') (i : I s) :
    List.Forall₂ (fun a b => ∃ t t', R a t b t' ∧ I t ∧ E s t ∧ E t' s') as bs := by
  induction h with
  | nil => exact .nil
  | cons r t ih =>
    obtain ⟨i1, e1⟩ := step _ _ _ _ r i
    have e2 := (t.preserves refl trans step i1).2
    refine .cons ⟨_, _, r, i, refl _, e2⟩ ((ih i1).imp ?_)
    rintro a b ⟨t, t', r', i', e3, e4⟩
    exact ⟨t, t', r', i', trans _ _ _ e1 e3, e4⟩

/-- A walk over a list gives what its steps give one after the other. -/
lemma gives_mapM {step : α → Walk σ ε β} {as : List α} {s s' : σ} {bs : List β} :
    (as.mapM step).Gives s bs s' ↔ Threads (fun a s b s' => (step a).Gives s b s') as s bs s' := by
  induction as generalizing s bs with
  | nil =>
    rw [List.mapM_nil, gives_pure, threads_nil]
    exact and_congr_left' eq_comm
  | cons a as ih =>
    rw [List.mapM_cons, gives_bind]
    constructor
    · rintro ⟨b, s1, h1, h2⟩
      obtain ⟨bs', s2, h3, h4⟩ := gives_bind.1 h2
      obtain ⟨rfl, rfl⟩ := gives_pure.1 h4
      exact .cons h1 (ih.1 h3)
    · intro h
      cases h with
      | cons h1 h2 => exact ⟨_, _, h1, gives_bind.2 ⟨_, _, ih.2 h2, gives_pure.2 ⟨rfl, rfl⟩⟩⟩

/-- A walk over a list succeeds if each step succeeds where the steps before it lead to. -/
lemma exists_gives_mapM {step : α → Walk σ ε β} {I : σ → Prop} {as : List α} {s : σ}
    (h : ∀ a ∈ as, ∀ s, I s → ∃ b s', (step a).Gives s b s' ∧ I s') (i : I s) :
    ∃ bs s', (as.mapM step).Gives s bs s' ∧ I s' := by
  induction as generalizing s with
  | nil => exact ⟨[], s, gives_mapM.2 .nil, i⟩
  | cons a as ih =>
    obtain ⟨b, s1, h1, i1⟩ := h a List.mem_cons_self s i
    obtain ⟨bs, s2, h2, i2⟩ := ih (fun a m => h a (List.mem_cons_of_mem _ m)) i1
    exact ⟨b :: bs, s2, gives_mapM.2 (.cons h1 (gives_mapM.1 h2)), i2⟩

/-- A walk over no elements gives no results. -/
lemma gives_mapM_nil {step : α → Walk σ ε β} {s s' : σ} {bs : List β} :
    (([] : List α).mapM step).Gives s bs s' ↔ bs = [] ∧ s = s' := by
  rw [List.mapM_nil, gives_pure]
  exact and_congr_left' eq_comm

/-- A walk over a list takes the first element and then the others. -/
lemma gives_mapM_cons {step : α → Walk σ ε β} {a : α} {as : List α} {s s'' : σ} {bs : List β} :
    ((a :: as).mapM step).Gives s bs s'' ↔
      ∃ b bs' s', (step a).Gives s b s' ∧ (as.mapM step).Gives s' bs' s'' ∧ bs = b :: bs' := by
  rw [gives_mapM]
  constructor
  · intro h
    cases h with
    | cons h1 h2 => exact ⟨_, _, _, h1, gives_mapM.2 h2, rfl⟩
  · rintro ⟨b, bs', s1, h1, h2, rfl⟩
    exact .cons h1 (gives_mapM.1 h2)

/-- A walk over a list gives as many results as the list has elements. -/
lemma Gives.mapM_length {step : α → Walk σ ε β} {as : List α} {s s' : σ} {bs : List β}
    (h : (as.mapM step).Gives s bs s') : bs.length = as.length := (gives_mapM.1 h).length

/-- A walk over elements that each run a walk on a part and put its result in place runs all of
these walks first. -/
lemma mapM_eq_zipWith {γ δ : Type} {as : List α} {walk : α → Walk σ ε γ} {part : α → β}
    {step : β → Walk σ ε δ} {make : α → δ → γ}
    (h : ∀ a, walk a = do
      let d ← step (part a)
      pure (make a d)) :
    as.mapM walk = (do
      let ds ← (as.map part).mapM step
      pure (as.zipWith make ds)) := by
  induction as with
  | nil => simp
  | cons a as ih => simp [List.mapM_cons, h a, ih]

/-- Two continuations that agree on what a walk gives make the same sequence. -/
lemma bind_congr_of_gives {walk : Walk σ ε α} {next next' : α → Walk σ ε β}
    (h : ∀ s a s', walk.Gives s a s' → next a = next' a) : walk >>= next = walk >>= next' := by
  funext s
  show (walk >>= next).run s = (walk >>= next').run s
  rw [run_bind, run_bind]
  cases e : walk.run s with
  | mk result s' =>
    cases result with
    | error stop => rfl
    | ok a => exact congrArg (fun next => next.run s') (h s a s' e)

/-- Nothing follows a walk that stops. -/
@[simp] lemma fail_bind {reason : ε} {next : α → Walk σ ε β} :
    (fail reason >>= next) = fail reason := rfl

/-- The walk stops only for reasons of a kind. -/
def FailsOnly (P : ε → Prop) (walk : Walk σ ε α) : Prop :=
  ∀ s reason s', walk.run s = (.error (.failed reason), s') → P reason

variable {P : ε → Prop}

/-- A result alone never stops. -/
lemma failsOnly_pure {a : α} : FailsOnly P (pure a : Walk σ ε α) := by
  intro s reason s' h
  simp [run_pure] at h

/-- A walk that stops at once stops for its reason. -/
lemma failsOnly_fail {reason : ε} (h : P reason) : FailsOnly P (fail reason : Walk σ ε α) := by
  intro s reason' s' e
  simp only [run, fail, Prod.mk.injEq, Except.error.injEq, WalkStop.failed.injEq] at e
  exact e.1 ▸ h

/-- A sequence stops for the reasons of its parts. -/
lemma FailsOnly.bind {walk : Walk σ ε α} {next : α → Walk σ ε β} (h : walk.FailsOnly P)
    (h' : ∀ a, (next a).FailsOnly P) : (walk >>= next).FailsOnly P := by
  intro s reason s' e
  rw [run_bind] at e
  cases e1 : walk.run s with
  | mk result s1 =>
    rw [e1] at e
    cases result with
    | error stop =>
      obtain ⟨rfl, rfl⟩ : stop = .failed reason ∧ s1 = s' := by simpa using e
      exact h _ _ _ e1
    | ok a => exact h' a _ _ _ e

/-- A walk over a list stops for the reasons of its steps. -/
lemma FailsOnly.mapM {step : α → Walk σ ε β} {as : List α}
    (h : ∀ a ∈ as, (step a).FailsOnly P) : (as.mapM step).FailsOnly P := by
  induction as with
  | nil =>
    rw [List.mapM_nil]
    exact failsOnly_pure
  | cons a as ih =>
    rw [List.mapM_cons]
    apply (h a (by simp)).bind
    intro b
    apply (ih fun a' ha' => h a' (by simp [ha'])).bind
    intro bs
    exact failsOnly_pure

/-- Every outcome of walks that run one after the other is that of one of them. -/
lemma mem_runEach {walks : List (Walk σ ε α)} {s : σ} {outcome : Except (WalkStop ε) α}
    (m : outcome ∈ (runEach walks s).1) : ∃ walk ∈ walks, ∃ t, (walk.run t).1 = outcome := by
  induction walks generalizing s with
  | nil => exact absurd m List.not_mem_nil
  | cons walk walks ih =>
    cases m with
    | head => exact ⟨walk, List.mem_cons_self, s, rfl⟩
    | tail _ m =>
      obtain ⟨other, mo, t, e⟩ := ih m
      exact ⟨other, List.mem_cons_of_mem _ mo, t, e⟩

/-- Walks that come after others start where these end. -/
lemma runEach_append {walks others : List (Walk σ ε α)} {s : σ} :
    runEach (walks ++ others) s =
      ((runEach walks s).1 ++ (runEach others (runEach walks s).2).1,
        (runEach others (runEach walks s).2).2) := by
  induction walks generalizing s with
  | nil => rfl
  | cons walk walks ih =>
    show ((walk.run s).1 :: (runEach (walks ++ others) (walk.run s).2).1,
      (runEach (walks ++ others) (walk.run s).2).2) = _
    rw [ih]
    rfl

/-- Each of the walks has an outcome. -/
lemma length_runEach {walks : List (Walk σ ε α)} {s : σ} :
    (runEach walks s).1.length = walks.length := by
  induction walks generalizing s with
  | nil => rfl
  | cons walk walks ih => exact congrArg (· + 1) ih

/-! ## Walks that succeed or stop -/

/-- Whether it succeeds or stops, the walk leaves a state that is related to the one it starts in;
and when it stops, it does so in a way of a kind. -/
def Behaves (E : σ → σ → Prop) (Q : WalkStop ε → Prop) (walk : Walk σ ε α) : Prop :=
  ∀ s, E s (walk.run s).2 ∧ ∀ stop, (walk.run s).1 = .error stop → Q stop

variable {E : σ → σ → Prop} {Q : WalkStop ε → Prop}

/-- So it does when it gives a result. -/
lemma Behaves.of_gives {walk : Walk σ ε α} {s s' : σ} {a : α} (b : walk.Behaves E Q)
    (g : walk.Gives s a s') : E s s' := by
  have left : (walk.run s).2 = s' := congrArg Prod.snd g
  exact left ▸ (b s).1

lemma behaves_pure (refl : ∀ s, E s s) {a : α} : Behaves E Q (pure a : Walk σ ε α) :=
  fun s => ⟨refl s, fun _ e => by cases e⟩

lemma behaves_fail (refl : ∀ s, E s s) {reason : ε} (q : Q (.failed reason)) :
    Behaves E Q (fail reason : Walk σ ε α) :=
  fun s => ⟨refl s, fun _ e => by cases e; exact q⟩

lemma behaves_get (refl : ∀ s, E s s) : Behaves E Q (get : Walk σ ε σ) :=
  fun s => ⟨refl s, fun _ e => by cases e⟩

lemma behaves_modify {change : σ → σ} (h : ∀ s, E s (change s)) :
    Behaves E Q (modify change : Walk σ ε Unit) :=
  fun s => ⟨h s, fun _ e => by cases e⟩

lemma Behaves.bind (trans : ∀ s t u, E s t → E t u → E s u) {walk : Walk σ ε α}
    {next : α → Walk σ ε β} (h : walk.Behaves E Q) (h' : ∀ a, (next a).Behaves E Q) :
    (walk >>= next).Behaves E Q := by
  intro s
  obtain ⟨first, stops⟩ := h s
  rw [run_bind]
  cases e : walk.run s with
  | mk result s1 =>
    rw [e] at first stops
    cases result with
    | error stop => exact ⟨first, fun _ e => by cases e; exact stops stop rfl⟩
    | ok a => exact ⟨trans _ _ _ first (h' a s1).1, (h' a s1).2⟩

lemma Behaves.mapM (refl : ∀ s, E s s) (trans : ∀ s t u, E s t → E t u → E s u)
    {step : α → Walk σ ε β} {as : List α} (h : ∀ a, (step a).Behaves E Q) :
    (as.mapM step).Behaves E Q := by
  induction as with
  | nil =>
    rw [List.mapM_nil]
    exact behaves_pure refl
  | cons a as ih =>
    rw [List.mapM_cons]
    apply (h a).bind trans
    intro b
    apply ih.bind trans
    intro bs
    exact behaves_pure refl

lemma Behaves.forM (refl : ∀ s, E s s) (trans : ∀ s t u, E s t → E t u → E s u)
    {step : α → Walk σ ε PUnit} {as : List α} (h : ∀ a, (step a).Behaves E Q) :
    (as.forM step).Behaves E Q := by
  induction as with
  | nil => exact behaves_pure refl
  | cons a as ih => exact (h a).bind trans fun _ => ih

/-- Walks of a list, one after the other, leave a state that is related to the first one. -/
lemma Behaves.runEach (refl : ∀ s, E s s) (trans : ∀ s t u, E s t → E t u → E s u)
    {walks : List (Walk σ ε α)} (h : ∀ walk ∈ walks, walk.Behaves E Q) {s : σ} :
    E s (Walk.runEach walks s).2 := by
  induction walks generalizing s with
  | nil => exact refl s
  | cons walk walks ih =>
    exact trans _ _ _ (h walk List.mem_cons_self s).1
      (ih fun other m => h other (List.mem_cons_of_mem _ m))

variable {I J : σ → Prop}

/-- Started where a property of the state holds, the walk leaves a related state whether it succeeds
or stops, and stops only in ways of a kind. -/
def BehavesFrom (I : σ → Prop) (E : σ → σ → Prop) (Q : WalkStop ε → Prop)
    (walk : Walk σ ε α) : Prop :=
  ∀ s, I s → E s (walk.run s).2 ∧ ∀ stop, (walk.run s).1 = .error stop → Q stop

lemma Behaves.behavesFrom {walk : Walk σ ε α} (h : walk.Behaves E Q) : walk.BehavesFrom I E Q :=
  fun s _ => h s

/-- The second part of a sequence starts where the property still holds. -/
lemma BehavesFrom.bind (trans : ∀ s t u, E s t → E t u → E s u) (keep : ∀ s t, I s → E s t → I t)
    {walk : Walk σ ε α} {next : α → Walk σ ε β} (h : walk.BehavesFrom I E Q)
    (h' : ∀ a, (next a).BehavesFrom I E Q) : (walk >>= next).BehavesFrom I E Q := by
  intro s i
  obtain ⟨first, stops⟩ := h s i
  rw [run_bind]
  cases e : walk.run s with
  | mk result s1 =>
    rw [e] at first stops
    cases result with
    | error stop => exact ⟨first, fun _ e => by cases e; exact stops stop rfl⟩
    | ok a =>
      obtain ⟨second, stops'⟩ := h' a s1 (keep s s1 i first)
      exact ⟨trans _ _ _ first second, stops'⟩

lemma BehavesFrom.mapM (refl : ∀ s, E s s) (trans : ∀ s t u, E s t → E t u → E s u)
    (keep : ∀ s t, I s → E s t → I t) {step : α → Walk σ ε β} {as : List α}
    (h : ∀ a, (step a).BehavesFrom I E Q) : (as.mapM step).BehavesFrom I E Q := by
  induction as with
  | nil =>
    rw [List.mapM_nil]
    exact (behaves_pure refl).behavesFrom
  | cons a as ih =>
    rw [List.mapM_cons]
    apply (h a).bind trans keep
    intro b
    apply ih.bind trans keep
    intro bs
    exact (behaves_pure refl).behavesFrom

/-- Walks of a list, one after the other, leave a state that is related to the first one, and each
of them that stops does so in a way of the kind. -/
lemma BehavesFrom.runEach (refl : ∀ s, E s s) (trans : ∀ s t u, E s t → E t u → E s u)
    (keep : ∀ s t, I s → E s t → I t) {walks : List (Walk σ ε α)}
    (h : ∀ walk ∈ walks, walk.BehavesFrom I E Q) {s : σ} (i : I s) :
    E s (Walk.runEach walks s).2 ∧
      ∀ outcome ∈ (Walk.runEach walks s).1, ∀ stop, outcome = .error stop → Q stop := by
  induction walks generalizing s with
  | nil =>
    refine ⟨refl s, ?_⟩
    rintro outcome ⟨⟩
  | cons walk walks ih =>
    obtain ⟨first, stops⟩ := h walk List.mem_cons_self s i
    obtain ⟨rest, others⟩ := ih (fun other m => h other (List.mem_cons_of_mem _ m))
      (keep _ _ i first)
    refine ⟨trans _ _ _ first rest, ?_⟩
    rintro outcome (_ | ⟨_, m⟩)
    · exact stops
    · exact others outcome m

/-- Started where a property of the state holds, the walk stops only in ways of a kind. -/
def StopsOnly (I : σ → Prop) (Q : WalkStop ε → Prop) (walk : Walk σ ε α) : Prop :=
  ∀ s, I s → ∀ stop s', walk.run s = (.error stop, s') → Q stop

lemma stopsOnly_pure {a : α} : StopsOnly I Q (pure a : Walk σ ε α) :=
  fun _ _ _ _ e => by cases e

lemma stopsOnly_fail {reason : ε} (q : Q (.failed reason)) :
    StopsOnly I Q (fail reason : Walk σ ε α) :=
  fun _ _ _ _ e => by cases e; exact q

/-- A walk that always gives a result stops for nothing. -/
lemma stopsOnly_of_gives {walk : Walk σ ε α} (h : ∀ s, ∃ a s', walk.Gives s a s') :
    walk.StopsOnly I Q := by
  intro s _ stop s' e
  obtain ⟨a, s1, g⟩ := h s
  cases g.symm.trans e

lemma StopsOnly.weaken {walk : Walk σ ε α} (h : walk.StopsOnly I Q) (i : ∀ s, J s → I s) :
    walk.StopsOnly J Q := fun s j => h s (i s j)

/-- A sequence stops where its first part stops, or its second part after the first one. -/
lemma StopsOnly.bind {walk : Walk σ ε α} {next : α → Walk σ ε β} {K : α → σ → Prop}
    (h : walk.StopsOnly I Q) (g : ∀ s a s', I s → walk.Gives s a s' → K a s')
    (h' : ∀ a, (next a).StopsOnly (K a) Q) : (walk >>= next).StopsOnly I Q := by
  intro s i stop s' e
  rw [run_bind] at e
  cases e1 : walk.run s with
  | mk result s1 =>
    rw [e1] at e
    cases result with
    | error stop' =>
      cases e
      exact h s i stop _ e1
    | ok a => exact h' a s1 (g s a s1 i e1) stop s' e

/-- What always gives a result adds no way to stop. -/
lemma StopsOnly.bind_of_gives {walk : Walk σ ε α} {next : α → Walk σ ε β} (h : walk.StopsOnly I Q)
    (g : ∀ a s, ∃ b s', (next a).Gives s b s') : (walk >>= next).StopsOnly I Q :=
  h.bind (K := fun _ _ => True) (fun _ _ _ _ _ => trivial) fun a => stopsOnly_of_gives (g a)

/-- What follows a look at the state starts in that state. -/
lemma stopsOnly_get_bind {next : σ → Walk σ ε β}
    (h : ∀ t, (next t).StopsOnly (fun s => s = t ∧ I s) Q) : (get >>= next).StopsOnly I Q :=
  fun s i => h s s ⟨rfl, i⟩

/-- A walk over a list stops where one of its steps does. -/
lemma StopsOnly.mapM {step : α → Walk σ ε β} {as : List α}
    (h : ∀ a ∈ as, (step a).StopsOnly I Q)
    (g : ∀ a ∈ as, ∀ s b s', I s → (step a).Gives s b s' → I s') :
    (as.mapM step).StopsOnly I Q := by
  induction as with
  | nil =>
    rw [List.mapM_nil]
    exact stopsOnly_pure
  | cons a as ih =>
    rw [List.mapM_cons]
    refine (h a List.mem_cons_self).bind (K := fun _ => I) (g a List.mem_cons_self) fun b => ?_
    have rest := ih (fun a m => h a (List.mem_cons_of_mem _ m))
      fun a m => g a (List.mem_cons_of_mem _ m)
    exact rest.bind_of_gives fun bs s => ⟨_, _, rfl⟩

lemma StopsOnly.forM {step : α → Walk σ ε PUnit} {as : List α}
    (h : ∀ a ∈ as, (step a).StopsOnly I Q)
    (g : ∀ a ∈ as, ∀ s s', I s → (step a).Gives s ⟨⟩ s' → I s') : (as.forM step).StopsOnly I Q := by
  induction as with
  | nil => exact stopsOnly_pure
  | cons a as ih =>
    refine (h a List.mem_cons_self).bind (K := fun _ => I)
      (fun s _ => g a List.mem_cons_self s) fun _ => ?_
    exact ih (fun a m => h a (List.mem_cons_of_mem _ m)) fun a m => g a (List.mem_cons_of_mem _ m)

/-! ## Walks whose outcome is known -/

/-- The result, unless there is a reason to stop. -/
def outcome (reason? : Option ε) (result : α) : Except (WalkStop ε) α :=
  match reason? with
  | none => .ok result
  | some reason => .error (.failed reason)

/-- Started where a property of the state holds, the walk gives the result, unless it stops for the
reason, and leaves a state where the property holds. -/
def Answers (I : σ → Prop) (reason? : Option ε) (result : α) (walk : Walk σ ε α) : Prop :=
  ∀ s, I s → (walk.run s).1 = outcome reason? result ∧ I (walk.run s).2

lemma answers_pure {result : α} : Answers I none result (pure result : Walk σ ε α) :=
  fun _ i => ⟨rfl, i⟩

lemma answers_fail {reason : ε} {result : α} :
    Answers I (some reason) result (fail reason : Walk σ ε α) :=
  fun _ i => ⟨rfl, i⟩

/-- A sequence stops for the reason of its first part, or else for that of its second one. -/
lemma Answers.bind {walk : Walk σ ε α} {next : α → Walk σ ε β} {reason? reason'? : Option ε}
    {a : α} {b : β} (h : walk.Answers I reason? a) (h' : (next a).Answers I reason'? b) :
    (walk >>= next).Answers I (reason?.or reason'?) b := by
  intro s i
  obtain ⟨first, left⟩ := h s i
  rw [run_bind]
  cases e : walk.run s with
  | mk result s1 =>
    rw [e] at first left
    dsimp only at first left
    cases reason? with
    | some reason =>
      subst first
      exact ⟨rfl, left⟩
    | none =>
      subst first
      exact h' s1 left

/-- What is made of the result adds no reason to stop. -/
lemma Answers.bind_pure {walk : Walk σ ε α} {reason? : Option ε} {a : α} {make : α → β}
    (h : walk.Answers I reason? a) :
    (walk >>= fun a => pure (make a)).Answers I reason? (make a) := by
  have made : (walk >>= fun a => pure (make a)).Answers I (reason?.or none) (make a) :=
    h.bind answers_pure
  rwa [Option.or_none] at made

/-- A walk over a list stops for the reason of the first step that has one. -/
lemma Answers.mapM {step : α → Walk σ ε β} {as : List α} {reason? : α → Option ε} {result : α → β}
    (h : ∀ a ∈ as, (step a).Answers I (reason? a) (result a)) :
    (as.mapM step).Answers I (as.findSome? reason?) (as.map result) := by
  induction as with
  | nil =>
    rw [List.mapM_nil]
    exact answers_pure
  | cons a as ih =>
    have rest := ih fun a m => h a (List.mem_cons_of_mem _ m)
    have all : (step a >>= fun b => as.mapM step >>= fun bs => pure (b :: bs)).Answers I
        ((reason? a).or (as.findSome? reason?)) (result a :: as.map result) :=
      (h a List.mem_cons_self).bind rest.bind_pure
    rw [List.mapM_cons, List.findSome?_cons]
    cases e : reason? a with
    | none => rwa [e] at all
    | some reason => rwa [e] at all

/-! ## Walks that run in parallel -/

/-- Two ways to stop are the same up to a relation between the reasons. -/
inductive SameStop (K : ε → ε → Prop) : WalkStop ε → WalkStop ε → Prop
  | failed {reason reason' : ε} :
    K reason reason' →
    SameStop K (.failed reason) (.failed reason')
  | misused {misuse : WalkMisuse} :
    SameStop K (.misused misuse) (.misused misuse)

/-- Two outcomes are the same result, or both stops that are the same up to a relation between the
reasons. -/
inductive SameOutcome (K : ε → ε → Prop) :
    Except (WalkStop ε) α → Except (WalkStop ε) α → Prop
  | ok {a : α} :
    SameOutcome K (.ok a) (.ok a)
  | stop {stop stop' : WalkStop ε} :
    SameStop K stop stop' →
    SameOutcome K (.error stop) (.error stop')

/-- Started in states that are related, both walks leave states that are related and have the same
outcome. -/
def Parallel (S : σ → σ → Prop) (K : ε → ε → Prop) (walk walk' : Walk σ ε α) : Prop :=
  ∀ s s', S s s' →
    SameOutcome K (walk.run s).1 (walk'.run s').1 ∧ S (walk.run s).2 (walk'.run s').2

variable {S : σ → σ → Prop} {K : ε → ε → Prop}

lemma parallel_pure {a : α} : Parallel S K (pure a : Walk σ ε α) (pure a) :=
  fun _ _ r => ⟨.ok, r⟩

lemma parallel_fail {reason reason' : ε} (k : K reason reason') :
    Parallel S K (fail reason : Walk σ ε α) (fail reason') :=
  fun _ _ r => ⟨.stop (.failed k), r⟩

/-- Sequences run in parallel if their parts do. -/
lemma Parallel.bind {walk walk' : Walk σ ε α} {next next' : α → Walk σ ε β}
    (h : walk.Parallel S K walk') (h' : ∀ a, (next a).Parallel S K (next' a)) :
    (walk >>= next).Parallel S K (walk' >>= next') := by
  intro s s' r
  obtain ⟨same, left⟩ := h s s' r
  rw [run_bind, run_bind]
  cases e : walk.run s with
  | mk result s1 =>
    cases e' : walk'.run s' with
    | mk result' s1' =>
      rw [e, e'] at same left
      cases same with
      | ok => exact h' _ _ _ left
      | stop k => exact ⟨.stop k, left⟩

/-- Walks over lists run in parallel if their steps do, place by place. -/
lemma Parallel.mapM {γ : Type} {step : α → Walk σ ε β} {step' : γ → Walk σ ε β} {as : List α}
    {cs : List γ} (h : List.Forall₂ (fun a c => (step a).Parallel S K (step' c)) as cs) :
    (as.mapM step).Parallel S K (cs.mapM step') := by
  induction h with
  | nil => exact parallel_pure
  | cons first _ ih =>
    rw [List.mapM_cons, List.mapM_cons]
    apply first.bind
    intro b
    apply ih.bind
    intro bs
    exact parallel_pure

/-! ## Walks on a changed state -/

variable {γ δ : Type} {g : σ → σ}

/-- Changing the state before the one walk leaves what changing it after the other one leaves, and
the results are those of the other one, changed as well. -/
def Mirrors (g : σ → σ) (f : α → β) (walk : Walk σ ε α) (walk' : Walk σ ε β) : Prop :=
  ∀ s, walk'.run (g s) = ((walk.run s).1.map f, g (walk.run s).2)

lemma mirrors_pure {f : α → β} {a : α} : Mirrors g f (pure a : Walk σ ε α) (pure (f a)) :=
  fun _ => rfl

lemma mirrors_fail {f : α → β} {reason : ε} :
    Mirrors g f (fail reason : Walk σ ε α) (fail reason) :=
  fun _ => rfl

/-- A change of the state that does the same to changed states. -/
lemma mirrors_modify {change change' : σ → σ} (h : ∀ s, change' (g s) = g (change s)) :
    Mirrors g id (modify change : Walk σ ε Unit) (modify change') := by
  intro s
  show (_, change' (g s)) = _
  rw [h]
  rfl

/-- Sequences mirror each other if their parts do. -/
lemma Mirrors.bind {f : α → β} {h : γ → δ} {walk : Walk σ ε α} {walk' : Walk σ ε β}
    {next : α → Walk σ ε γ} {next' : β → Walk σ ε δ} (m : walk.Mirrors g f walk')
    (n : ∀ a, (next a).Mirrors g h (next' (f a))) :
    (walk >>= next).Mirrors g h (walk' >>= next') := by
  intro s
  rw [run_bind, run_bind, m s]
  cases walk.run s with
  | mk result s1 =>
    cases result with
    | ok a => exact n a s1
    | error stop => rfl

/-- Walks over lists mirror each other if their steps do. -/
lemma Mirrors.mapM {f : γ → δ} {p : α → β} {step : α → Walk σ ε γ} {step' : β → Walk σ ε δ}
    {as : List α} (m : ∀ a ∈ as, (step a).Mirrors g f (step' (p a))) :
    (as.mapM step).Mirrors g (List.map f) ((as.map p).mapM step') := by
  induction as with
  | nil => exact mirrors_pure
  | cons a as ih =>
    rw [List.mapM_cons, List.map_cons, List.mapM_cons]
    apply (m a List.mem_cons_self).bind
    intro b
    apply (ih fun a ma => m a (List.mem_cons_of_mem _ ma)).bind
    intro bs
    exact mirrors_pure

end TypeSchema.Walk
