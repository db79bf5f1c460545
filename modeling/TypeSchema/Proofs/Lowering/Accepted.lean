import TypeSchema.Proofs.Lowering.Chains
import TypeSchema.Proofs.Lowering.Faithful
import TypeSchema.Proofs.Lowering.Stops

/-!
# Declarations that are accepted

Whether declarations are lowered can be told from them alone, but for their depth: their names are
different, the alias chain of every name that is referred to ends, `Record` and `Array` have their
arguments, and the key type of every record stands for `string`, `number`, a literal or a union of
them. None of this depends on the order in which aliases are resolved. A union that is the key type
of a record has no record inside, so its handle is never only reserved when the record is lowered.
-/

namespace TypeSchema.Lowering

/-! ## Resolved names -/

/-- The alias chains of all resolved names end. -/
def Grounded (declarations : List Declaration) (resolved : List (String × TypeId)) : Prop :=
  ∀ name id, resolved.lookup name = some id → ∃ last, EndsAt declarations name last

variable {declarations : List Declaration} {s s' : LowerState} {type type' : TypeExpr} {id : TypeId}
  {chain : List String} {name : String} {last : Declaration} {pending : List String}

lemma Grounded.cons (g : Grounded declarations s.resolved) (e : EndsAt declarations name last) :
    Grounded declarations ((name, id) :: s.resolved) := by
  intro other id' r
  rw [List.lookup_cons] at r
  split at r
  case h_1 eq =>
    obtain rfl := eq_of_beq eq
    exact ⟨last, e⟩
  case h_2 => exact g other id' r

lemma Grounded.withChain (g : Grounded declarations s.resolved)
    (ends : ∀ name ∈ chain, EndsAt declarations name last) :
    Grounded declarations (s.withChain chain id).resolved := by
  intro other id' r
  by_cases m : other ∈ chain
  · exact ⟨last, ends other m⟩
  · rw [lookup_withChain_of_not_mem m] at r
    exact g other id' r

/-- The names of a chain that leads to a body end there. -/
lemma endsAt_of_body (r : s.resolved.lookup name = none)
    (e : chainEnd declarations s.resolved name = .body chain last) :
    (∀ name ∈ chain, EndsAt declarations name last) ∧ EndsAt declarations last.name last := by
  have l := aliasChain_of_chainEnd r e
  have own : EndsAt declarations last.name last :=
    .own l.declared (endsAt_of_chainEnd e).aliasTarget?
  exact ⟨l.endsAt own, own⟩

/-- The names of a chain that leads to a resolved alias end where that one does. -/
lemma endsAt_of_linked (g : Grounded declarations s.resolved) (r : s.resolved.lookup name = none)
    (e : chainEnd declarations s.resolved name = .resolved chain id) :
    ∃ target last, s.resolved.lookup target = some id ∧ EndsAt declarations target last ∧
      ∀ name ∈ chain, EndsAt declarations name last := by
  obtain ⟨-, declaration, target, l, t, found⟩ :
    EndsWell declarations s.resolved name (.resolved chain id) := e ▸ endsWell_chainEnd r
  obtain ⟨last, ends⟩ := g target id found
  refine ⟨target, last, found, ends, l.endsAt (.link l.declared ?_ ends)⟩
  obtain ⟨_, c⟩ := ends.exists_declared
  simp [t, TypeExpr.aliasTarget?, c]

lemma grounded_threads {types : List TypeExpr} {ids : List TypeId}
    (h : Walk.Threads (fun _ s _ s' => Grounded declarations s.resolved →
      Grounded declarations s'.resolved) types s ids s') (g : Grounded declarations s.resolved) :
    Grounded declarations s'.resolved :=
  (h.preserves (E := fun _ _ => True) (fun _ => trivial) (fun _ _ _ _ _ => trivial)
    (fun _ _ _ _ h g => ⟨h g, trivial⟩) g).1

/-- A lowering resolves only names whose alias chains end. -/
theorem Lowers.grounded (h : Lowers declarations type s id s')
    (g : Grounded declarations s.resolved) : Grounded declarations s'.resolved := by
  induction h using Lowers.induct with
  | keyword => exact g
  | literal => exact g
  | known => exact g
  | linked r e =>
    obtain ⟨_, last, -, -, ends⟩ := endsAt_of_linked g r e
    exact g.withChain ends
  | plain r e _ _ ih =>
    obtain ⟨ends, own⟩ := endsAt_of_body r e
    exact Grounded.withChain (Grounded.withChain (ih g) (List.forall_mem_singleton.2 own)) ends
  | @body name s chain declaration ids t data r e _ _ _ ih =>
    obtain ⟨ends, own⟩ := endsAt_of_body r e
    have entered : Grounded declarations (s.resolving declaration.name).resolved := g.cons own
    have inside : Grounded declarations t.resolved :=
      grounded_threads (ih.imp fun _ _ _ _ ⟨_, h⟩ => h) entered
    exact Grounded.withChain inside ends
  | @parted type s ids t data _ _ _ ih =>
    have inside : Grounded declarations t.resolved :=
      grounded_threads (ih.imp fun _ _ _ _ ⟨_, h⟩ => h) g
    exact inside

/-! ## What expressions stand for -/

/-- What an expression stands for: itself, or for a name the body at the end of its alias chain. -/
inductive Means (declarations : List Declaration) : TypeExpr → TypeExpr → Prop
  | own {type : TypeExpr} : (∀ name, type ≠ .named name []) → Means declarations type type
  | name {name : String} {last : Declaration} :
    EndsAt declarations name last →
    Means declarations (.named name []) last.type

/-- The expression stands for `string` or `number`. -/
def MeansIndex (declarations : List Declaration) (type : TypeExpr) : Prop :=
  Means declarations type (.keyword .string) ∨ Means declarations type (.keyword .number)

/-- The expression stands for a literal that names a property. -/
def MeansProperty (declarations : List Declaration) (type : TypeExpr) : Prop :=
  ∃ value name, Means declarations type (.literal value) ∧ value.propertyName? = some name

/-- The key types of records. -/
inductive KeyType (declarations : List Declaration) : TypeExpr → Prop
  | index {type : TypeExpr} : MeansIndex declarations type → KeyType declarations type
  | property {type : TypeExpr} : MeansProperty declarations type → KeyType declarations type
  | indexes {type : TypeExpr} {members : List TypeExpr} :
    Means declarations type (.composite .union members) →
    (∀ member ∈ members, MeansIndex declarations member) →
    KeyType declarations type
  | properties {type : TypeExpr} {members : List TypeExpr} :
    Means declarations type (.composite .union members) →
    (∀ member ∈ members, MeansProperty declarations member) →
    KeyType declarations type

/-- The expression is accepted, whatever is resolved already. -/
inductive Admits (declarations : List Declaration) : TypeExpr → Prop
  | keyword {word : Keyword} : Admits declarations (.keyword word)
  | literal {value : Literal} : Admits declarations (.literal value)
  | name {name : String} {last : Declaration} :
    EndsAt declarations name last →
    Admits declarations (.named name [])
  | parted {type : TypeExpr} :
    type.isStructural = true →
    type.fault? = none →
    (∀ key value, type = .named "Record" [key, value] → KeyType declarations key) →
    (∀ part ∈ type.parts, Admits declarations part) →
    Admits declarations type

/-- Declarations of different names whose bodies are accepted. -/
structure Accepted (declarations : List Declaration) : Prop where
  nodup : (declarations.map (·.name)).Nodup
  admits : ∀ declaration ∈ declarations, Admits declarations declaration.type

lemma Means.unique {other : TypeExpr} (h : Means declarations type type')
    (h' : Means declarations type other) : type' = other := by
  cases h with
  | own n =>
    cases h' with
    | own => rfl
    | name => exact absurd rfl (n _)
  | name e =>
    cases h' with
    | own n => exact absurd rfl (n _)
    | name e' => rw [e.unique e']

/-- Whether a name is a key type is told by what it stands for. -/
lemma KeyType.of_means {other : TypeExpr} (k : KeyType declarations type)
    (m : Means declarations type type') (m' : Means declarations other type') :
    KeyType declarations other := by
  cases k with
  | index i =>
    rcases i with i | i
    · exact .index (.inl (m.unique i ▸ m'))
    · exact .index (.inr (m.unique i ▸ m'))
  | property p =>
    obtain ⟨value, name, i, e⟩ := p
    exact .property ⟨value, name, m.unique i ▸ m', e⟩
  | indexes i all => exact .indexes (m.unique i ▸ m') all
  | properties i all => exact .properties (m.unique i ▸ m') all

/-! ## Accepted declarations in any order -/

/-- The declaration of a name is the same in every order. -/
lemma declared?_perm {others : List Declaration} (p : declarations.Perm others)
    (n : (declarations.map (·.name)).Nodup) : declared? declarations = declared? others := by
  have n' : (others.map (·.name)).Nodup := (p.map _).nodup_iff.1 n
  funext name
  cases c : declared? declarations name with
  | some declaration =>
    obtain rfl := name_of_declared? c
    exact (declared?_eq_some n' (p.mem_iff.1 (List.mem_of_find?_eq_some c))).symm
  | none =>
    cases c' : declared? others name with
    | none => rfl
    | some declaration =>
      obtain rfl := name_of_declared? c'
      rw [declared?_eq_some n (p.mem_iff.2 (List.mem_of_find?_eq_some c'))] at c
      cases c

section

variable {others : List Declaration} (same : declared? declarations = declared? others)

include same

lemma EndsAt.congr (h : EndsAt declarations name last) : EndsAt others name last := by
  have target : ∀ type : TypeExpr, type.aliasTarget? declarations = type.aliasTarget? others := by
    intro type
    unfold TypeExpr.aliasTarget?
    rw [same]
  induction h with
  | own c t => exact .own (same ▸ c) (target _ ▸ t)
  | link c t _ ih => exact .link (same ▸ c) (target _ ▸ t) ih

lemma Means.congr (h : Means declarations type type') : Means others type type' := by
  cases h with
  | own n => exact .own n
  | name e => exact .name (e.congr same)

lemma MeansIndex.congr (h : MeansIndex declarations type) : MeansIndex others type :=
  h.imp (·.congr same) (·.congr same)

lemma MeansProperty.congr (h : MeansProperty declarations type) : MeansProperty others type := by
  obtain ⟨value, name, m, e⟩ := h
  exact ⟨value, name, m.congr same, e⟩

lemma KeyType.congr (h : KeyType declarations type) : KeyType others type := by
  cases h with
  | index i => exact .index (i.congr same)
  | property p => exact .property (p.congr same)
  | indexes m all => exact .indexes (m.congr same) fun member mm => (all member mm).congr same
  | properties m all => exact .properties (m.congr same) fun member mm => (all member mm).congr same

lemma Admits.congr (h : Admits declarations type) : Admits others type := by
  induction h with
  | keyword => exact .keyword
  | literal => exact .literal
  | name e => exact .name (e.congr same)
  | parted k fault keys _ ih =>
    exact .parted k fault (fun key value e => (keys key value e).congr same) ih

end

/-- Declarations that are accepted are so in every order. -/
theorem Accepted.perm {others : List Declaration} (h : Accepted declarations)
    (p : declarations.Perm others) : Accepted others where
  nodup := (p.map _).nodup_iff.1 h.nodup
  admits declaration m :=
    (h.admits declaration (p.mem_iff.2 m)).congr (declared?_perm p h.nodup)

end TypeSchema.Lowering
