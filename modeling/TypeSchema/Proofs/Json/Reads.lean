import Mathlib.Tactic.Lemma
import Mathlib.Tactic.SplitIfs
import TypeSchema.Json.Reader

/-!
# Successful readings

A reader is taken apart along its construction, like a walk: a sequence of readers reads a text when
the first one reads its front and the second one what the first one leaves.
-/

namespace TypeSchema.Json

/-- A sequence gives what its second part gives for the result of the first one. -/
lemma bind_eq_ok {ε α β : Type} {result : Except ε α} {next : α → Except ε β} {b : β} :
    result >>= next = .ok b ↔ ∃ a, result = .ok a ∧ next a = .ok b := by
  cases result with
  | error fault => simp [bind, Except.bind]
  | ok a =>
    constructor
    · intro h
      exact ⟨a, rfl, h⟩
    · rintro ⟨_, e, h⟩
      cases e
      exact h

end TypeSchema.Json

namespace TypeSchema.Json.Reader

variable {α β : Type}

/-- The reader takes the front of a text for a value, and leaves the rest. -/
def Reads (reader : Reader α) (text : List Char) (a : α) (rest : List Char) : Prop :=
  reader text = .ok (a, rest)

instance [DecidableEq α] {reader : Reader α} {text rest : List Char} {a : α} :
    Decidable (reader.Reads text a rest) :=
  match h : reader text with
  | .ok p => decidable_of_iff (p = (a, rest)) (by rw [Reads, h, Except.ok.injEq])
  | .error _ => isFalse (by rw [Reads, h]; exact nofun)

lemma reads_pure {a b : α} {text rest : List Char} :
    (pure a : Reader α).Reads text b rest ↔ a = b ∧ text = rest := by
  show (Except.ok (a, text) : Except Fault (α × List Char)) = .ok (b, rest) ↔ _
  simp

lemma not_reads_fail {fault : Fault} {text rest : List Char} {a : α} :
    ¬ (fail fault : Reader α).Reads text a rest := by
  intro h
  cases h

lemma not_reads_refuse {fault : DataFault} {text rest : List Char} {a : α} :
    ¬ (refuse fault : Reader α).Reads text a rest := by
  intro h
  cases h

lemma reads_bind {reader : Reader α} {next : α → Reader β} {text rest : List Char} {b : β} :
    (reader >>= next).Reads text b rest ↔
      ∃ a mid, reader.Reads text a mid ∧ (next a).Reads mid b rest := by
  have parts : (reader >>= next).Reads text b rest ↔
      ∃ p, reader text = .ok p ∧ next p.1 p.2 = .ok (b, rest) := bind_eq_ok
  rw [parts]
  exact Prod.exists

/-- A reader that reads a text is followed by the next one. -/
lemma Reads.bind {reader : Reader α} {next : α → Reader β} {text mid rest : List Char} {a : α}
    {b : β} (h : reader.Reads text a mid) (h' : (next a).Reads mid b rest) :
    (reader >>= next).Reads text b rest :=
  reads_bind.2 ⟨a, mid, h, h'⟩

lemma reads_get {text a rest : List Char} :
    (get : Reader (List Char)).Reads text a rest ↔ text = a ∧ text = rest := by
  simp [Reads, get, getThe, MonadStateOf.get, StateT.get, pure, Except.pure]

lemma reads_ofStep {step : List Char → Except Fault (α × List Char)} {text rest : List Char}
    {a : α} : (ofStep step).Reads text a rest ↔ step text = .ok (a, rest) := Iff.rfl

lemma reads_skip {text rest : List Char} {u : Unit} :
    skip.Reads text u rest ↔ text.drop 1 = rest := by
  simp [Reads, skip, modify, modifyGet, MonadStateOf.modifyGet, StateT.modifyGet, pure, Except.pure]

lemma reads_peek {text rest : List Char} {next : Option Char} :
    peek.Reads text next rest ↔ text.dropWhile isBlank = rest ∧ rest.head? = next := by
  constructor
  · intro h
    cases h
    exact ⟨rfl, rfl⟩
  · rintro ⟨rfl, rfl⟩
    rfl

/-! ### What every reading gives -/

/-- Whatever the text, what is read has a property. -/
def Yields (reader : Reader α) (P : α → Prop) : Prop :=
  ∀ text a rest, reader.Reads text a rest → P a

variable {reader : Reader α} {P : α → Prop}

lemma yields_true : reader.Yields fun _ => True := fun _ _ _ _ => trivial

lemma yields_pure {a : α} (h : P a) : (pure a : Reader α).Yields P := by
  intro text b rest r
  obtain ⟨rfl, _⟩ := reads_pure.1 r
  exact h

lemma yields_fail {fault : Fault} : (fail fault : Reader α).Yields P :=
  fun _ _ _ r => absurd r not_reads_fail

lemma yields_refuse {fault : DataFault} : (refuse fault : Reader α).Yields P :=
  fun _ _ _ r => absurd r not_reads_refuse

lemma Yields.bind {next : α → Reader β} {Q : β → Prop} (h : reader.Yields P)
    (h' : ∀ a, P a → (next a).Yields Q) : (reader >>= next).Yields Q := by
  intro text b rest r
  obtain ⟨a, mid, r, r'⟩ := reads_bind.1 r
  exact h' a (h text a mid r) mid b rest r'

/-- What comes first does not matter. -/
lemma Yields.after {next : α → Reader β} {Q : β → Prop} (h : ∀ a, (next a).Yields Q) :
    (reader >>= next).Yields Q := yields_true.bind fun a _ => h a

lemma Yields.imp {Q : α → Prop} (h : reader.Yields P) (i : ∀ a, P a → Q a) : reader.Yields Q :=
  fun text a rest r => i a (h text a rest r)

lemma Yields.nested {room : Nat} (h : 0 < room → reader.Yields P) :
    (nested room reader).Yields P := by
  unfold Reader.nested
  split_ifs with full
  · exact yields_fail
  · exact h (Nat.pos_of_ne_zero full)

/-- The elements of an array have the property of each element. -/
lemma Yields.arrayEnd (h : reader.Yields P) : (arrayEnd reader).Yields fun as => ∀ a ∈ as, P a := by
  have elements (count : Nat) (isFirst : Bool) :
      (elements reader count isFirst).Yields fun as => ∀ a ∈ as, P a := by
    induction count generalizing isFirst with
    | zero => exact yields_fail
    | succ count ih =>
      refine .after fun has => ?_
      cases has with
      | false => exact yields_pure nofun
      | true =>
        refine h.bind fun a ha => (ih false).bind fun as has => yields_pure ?_
        exact List.forall_mem_cons.2 ⟨ha, has⟩
  refine .after fun text => (elements _ true).bind fun as has => ?_
  exact .after fun _ => yields_pure has

/-- The members of an object keep what each of them keeps. -/
lemma Yields.objectEnd {σ : Type} {member : String → σ → Reader σ} {I : σ → Prop} {start : σ}
    (h : ∀ name s, I s → (member name s).Yields I) (h' : I start) :
    (objectEnd member start).Yields I := by
  have members (count : Nat) (isFirst : Bool) (s : σ) (hs : I s) :
      (members member count isFirst s).Yields I := by
    induction count generalizing isFirst s with
    | zero => exact yields_fail
    | succ count ih =>
      refine .after fun has => ?_
      cases has with
      | false => exact yields_pure hs
      | true => exact .after fun name => (h name s hs).bind fun s' hs' => ih false s' hs'
  refine .after fun text => (members _ true start h').bind fun s hs => ?_
  exact .after fun _ => yields_pure hs

end TypeSchema.Json.Reader
