import TypeSchema.Proofs.Lowering.Acceptance
import TypeSchema.Proofs.Lowering.Occurrences

/-!
# What is asked of declarations

Declarations are lowered when nothing is wrong with any expression that occurs in them, and no names
stand for each other in a circle. These conditions are read off the declarations, and mention
neither an order nor a walk. Recursion through an expression with parts breaks none of them: a chain
of names ends at such an expression.
-/

namespace TypeSchema.Lowering

variable {declarations : List Declaration} {resolved : List (String × TypeId)}
  {name target other : String} {chain : List String} {declaration last : Declaration}
  {type : TypeExpr} {store store' : TypeStore}

/-! ## Chains without cycles -/

/-- The name of which a declaration is the bare name is declared. -/
lemma declared_of_aliasTarget? (t : type.aliasTarget? declarations = some target) :
    ∃ declaration, declared? declarations target = some declaration := by
  rw [eq_named_of_aliasTarget? t] at t
  obtain ⟨declaration, c, -⟩ := Option.map_eq_some_iff.1 t
  exact ⟨declaration, c⟩

lemma LeadsTo.nil : LeadsTo declarations [] name :=
  ⟨.nil, List.nil_subset _, fun _ m => absurd m List.not_mem_nil⟩

/-- Where no names lead back to themselves, a chain that is followed comes to its end. -/
lemma endsAt_of_leadsTo {steps : Nat}
    (acyclic : ∀ name, ¬ Relation.TransGen (Links declarations) name name)
    (c : declared? declarations name = some declaration)
    (l : steps + chain.length = declarations.length + 1) (b : LeadsTo declarations chain name) :
    ∃ last, EndsAt declarations name last := by
  induction steps generalizing chain name declaration with
  | zero =>
    have := b.length_le
    omega
  | succ steps ih =>
    cases t : declaration.type.aliasTarget? declarations with
    | none => exact ⟨declaration, .own c t⟩
    | some target =>
      have fresh : name ∉ chain := fun m => acyclic name (b.links name m)
      obtain ⟨following, c'⟩ := declared_of_aliasTarget? t
      obtain ⟨last, e⟩ := ih c' (by rw [List.length_cons]; omega) (b.cons c fresh ⟨_, c, t⟩)
      exact ⟨last, .link c t e⟩

/-- Where no names lead back to themselves, the chain of every declared name ends. -/
theorem endsAt_of_acyclic
    (acyclic : ∀ name, ¬ Relation.TransGen (Links declarations) name name)
    (c : declared? declarations name = some declaration) :
    ∃ last, EndsAt declarations name last :=
  endsAt_of_leadsTo acyclic c rfl LeadsTo.nil

/-- A chain that is said to come back to a name does: its steps are never used up. -/
lemma transGen_of_followChain {steps : Nat}
    (e : followChain declarations resolved steps chain name = .cycle other)
    (l : steps + chain.length = declarations.length + 1) (b : LeadsTo declarations chain name) :
    Relation.TransGen (Links declarations) other other := by
  induction steps generalizing chain name with
  | zero =>
    have := b.length_le
    omega
  | succ steps ih =>
    unfold followChain at e
    cases c : declared? declarations name with
    | none => simp [c] at e
    | some declaration =>
      obtain rfl := name_of_declared? c
      simp only [c] at e
      split at e
      case isTrue m =>
        cases e
        exact b.links _ m
      case isFalse fresh =>
        cases t : declaration.type.aliasTarget? declarations with
        | none => simp [t] at e
        | some target =>
          simp only [t] at e
          split at e
          case h_1 => cases e
          case h_2 =>
            refine ih e ?_ (b.cons c fresh ⟨_, c, t⟩)
            rw [List.length_cons]
            omega

/-- Where a chain ends is found in the steps that there are; more of them change nothing. -/
lemma followChain_add {steps : Nat} (more : Nat)
    (l : steps + chain.length = declarations.length + 1) (b : LeadsTo declarations chain name) :
    followChain declarations resolved (steps + more) chain name =
      followChain declarations resolved steps chain name := by
  induction steps generalizing chain name with
  | zero =>
    have := b.length_le
    omega
  | succ steps ih =>
    rw [Nat.succ_add, followChain, followChain]
    cases c : declared? declarations name with
    | none => rfl
    | some declaration =>
      obtain rfl := name_of_declared? c
      dsimp only
      split
      case isTrue => rfl
      case isFalse fresh =>
        cases t : declaration.type.aliasTarget? declarations with
        | none => rfl
        | some target =>
          dsimp only
          split
          case h_1 => rfl
          case h_2 =>
            refine ih ?_ (b.cons c fresh ⟨_, c, t⟩)
            rw [List.length_cons]
            omega

/-! ## Reported cycles -/

/-- The stop reports no cycle of aliases, or one that there is. -/
def Truthful (declarations : List Declaration) (stop : WalkStop LowerError) : Prop :=
  ∀ name, stop = .failed (.aliasCycle name) → Relation.TransGen (Links declarations) name name

lemma fault?_ne_aliasCycle : type.fault? ≠ some (.aliasCycle name) := by
  cases type with
  | named other arguments =>
    rw [TypeExpr.fault?]
    cases TypeExpr.arity? other with
    | none => simp
    | some count =>
      dsimp only
      split <;> simp
  | _ => simp [TypeExpr.fault?]

/-- An expression with parts reports what they report. -/
lemma stopsOnly_lowerStructure_truthful {room : Nat}
    (h : ∀ part, (lowerType declarations room part).StopsOnly (fun _ => True)
      (Truthful declarations)) :
    (lowerStructure (lowerType declarations room) type).StopsOnly (fun _ => True)
      (Truthful declarations) := by
  apply stopsOnly_lowerStructure
  · rintro _ fault name ⟨⟩
    exact absurd fault fault?_ne_aliasCycle
  · exact fun part _ => h part
  · exact fun _ _ _ _ _ _ _ => trivial
  · exact fun _ _ _ _ _ _ name e => nomatch e

/-- A name reports a cycle that its chain runs into, or what the body at its end reports. -/
lemma stopsOnly_resolveAlias_truthful {room : Nat}
    (h : ∀ part, (lowerType declarations room part).StopsOnly (fun _ => True)
      (Truthful declarations)) :
    (resolveAlias (lowerType declarations room) declarations name).StopsOnly (fun _ => True)
      (Truthful declarations) := by
  apply stopsOnly_resolveAlias
  · exact fun _ _ _ _ _ name e => nomatch e
  · rintro s _ _ other c name ⟨⟩
    exact transGen_of_followChain c rfl LeadsTo.nil
  · intro chain declaration
    refine (stopsOnly_lowerAliasBody (I := fun _ => True) (J := fun _ => True) ?_ ?_ ?_).weaken
      fun _ _ => trivial
    · exact fun _ => h declaration.type
    · exact fun _ => stopsOnly_deeper (stopsOnly_lowerStructure_truthful h) (fun _ _ => trivial)
        (fun _ _ _ name e => nomatch e) fun _ name e => nomatch e
    · exact fun _ _ _ => trivial

/-- A lowering reports only cycles of aliases that there are. -/
lemma stopsOnly_lowerType_truthful (room : Nat) (type : TypeExpr) :
    (lowerType declarations room type).StopsOnly (fun _ => True) (Truthful declarations) := by
  induction room generalizing type with
  | zero =>
    exact stopsOnly_deeper (J := fun _ => True) (Walk.stopsOnly_fail fun name e => nomatch e)
      (fun _ _ => trivial) (fun _ _ _ name e => nomatch e) fun _ name e => nomatch e
  | succ room ih =>
    refine stopsOnly_deeper (J := fun _ => True) (stopsOnly_lowerExpr ?_ ?_ ?_)
      (fun _ _ => trivial) (fun _ _ _ name e => nomatch e) fun _ name e => nomatch e
    · exact fun _ => stopsOnly_lowerStructure_truthful ih
    · exact fun _ _ _ name e => nomatch e
    · exact fun name _ => stopsOnly_resolveAlias_truthful ih

/-- A cycle of aliases that is reported is one. -/
theorem transGen_of_aliasCycle
    (h : lowerDeclarations store declarations = (.error (.failed (.aliasCycle name)), store')) :
    Relation.TransGen (Links declarations) name name := by
  by_cases n : (declarations.map (·.name)).Nodup
  · rw [lowerDeclarations_of_nodup n] at h
    have e : ((lowerAll declarations).run (start store)).1 = .error (.failed (.aliasCycle name)) :=
      (Prod.mk.inj h).1
    have all : (lowerAll declarations).StopsOnly (fun _ => True) (Truthful declarations) :=
      stopsOnly_lowerAll
        (fun _ _ => stopsOnly_resolveAlias_truthful (stopsOnly_lowerType_truthful maxRoom))
        fun _ _ _ _ _ _ _ => trivial
    exact all (start store) trivial _ _ (Prod.ext e rfl) name rfl
  · -- Names that are repeated are reported first.
    unfold lowerDeclarations checkNames at h
    cases repeated : firstRepeated? [] (declarations.map (·.name)) with
    | none => exact absurd (firstRepeated?_eq_none.1 repeated).1 n
    | some other =>
      rw [repeated] at h
      cases h

/-! ## Conditions -/

/-- What is asked of declarations, apart from their depth. -/
structure Admissible (declarations : List Declaration) : Prop where
  distinct : (declarations.map (·.name)).Nodup
  /-- No names have one another's bare names as their bodies in a circle. -/
  acyclic : ∀ name, ¬ Relation.TransGen (Links declarations) name name
  /-- Names without arguments are declared. -/
  declared : ∀ name, .named name [] ∈ occurring declarations → name ∈ declarations.map (·.name)
  /-- Names with arguments are those of records and arrays. -/
  applied : ∀ name arguments, .named name arguments ∈ occurring declarations → arguments ≠ [] →
    (name = "Record" ∧ arguments.length = 2) ∨ (name = "Array" ∧ arguments.length = 1)
  /-- The key types of records are such. -/
  keyed : ∀ key value, .named "Record" [key, value] ∈ occurring declarations →
    KeyType declarations key

/-- All that occurs in accepted declarations is accepted. -/
lemma Accepted.admits_of_occurring (a : Accepted declarations)
    (m : type ∈ occurring declarations) : Admits declarations type := by
  have inner : ∀ outer : TypeExpr, Admits declarations outer → type ∈ outer.preorder →
      Admits declarations type := by
    intro outer
    induction outer using TypeExpr.partsInduction with
    | step outer ih =>
      intro admitted m
      rcases TypeExpr.eq_or_mem_part m with rfl | ⟨part, mp, m⟩
      · exact admitted
      · exact ih part mp (admitted.part mp) m
  obtain ⟨declaration, md, m⟩ := mem_occurring.1 m
  exact inner declaration.type (a.admits declaration md) m

lemma isStructural_of_arguments {arguments : List TypeExpr} (some : arguments ≠ []) :
    (TypeExpr.named name arguments).isStructural = true := by
  cases arguments with
  | nil => exact absurd rfl some
  | cons => rfl

lemma mem_names_of_declared? (c : declared? declarations name = some declaration) :
    name ∈ declarations.map (·.name) := by
  rw [← name_of_declared? c]
  exact List.mem_map_of_mem (List.mem_of_find?_eq_some c)

lemma Accepted.admissible (a : Accepted declarations) : Admissible declarations where
  distinct := a.nodup
  acyclic name cycle := by
    obtain ⟨_, ⟨declaration, c, -⟩, -⟩ := Relation.TransGen.head'_iff.1 cycle
    obtain ⟨last, e⟩ := a.endsAt (List.mem_of_find?_eq_some c)
    rw [name_of_declared? c] at e
    exact e.not_transGen cycle
  declared name m := by
    obtain ⟨last, e⟩ := (a.admits_of_occurring m).endsAt
    obtain ⟨_, c⟩ := e.exists_declared
    exact mem_names_of_declared? c
  applied name arguments m some := by
    have fault := (a.admits_of_occurring m).fault?_eq_none (isStructural_of_arguments some)
    rcases TypeExpr.named_of_fault?_eq_none fault with ⟨e, key, value, rfl⟩ | ⟨e, element, rfl⟩
    · exact .inl ⟨e, rfl⟩
    · exact .inr ⟨e, rfl⟩
  keyed key value m := (a.admits_of_occurring m).keyType

namespace Admissible

variable (a : Admissible declarations)

include a

/-- The chains of declared names end. -/
lemma endsAt (m : name ∈ declarations.map (·.name)) : ∃ last, EndsAt declarations name last := by
  obtain ⟨declaration, md, rfl⟩ := List.mem_map.1 m
  exact endsAt_of_acyclic a.acyclic (declared?_eq_some a.distinct md)

/-- Expressions with parts that occur are not refused for their form. -/
lemma fault?_eq_none (m : type ∈ occurring declarations) (k : type.isStructural = true) :
    type.fault? = none := by
  cases type with
  | keyword => cases k
  | literal => cases k
  | named name arguments =>
    have some : arguments ≠ [] := by
      rintro rfl
      cases k
    unfold TypeExpr.fault? TypeExpr.arity?
    rcases a.applied name arguments m some with ⟨rfl, l⟩ | ⟨rfl, l⟩
    · simp [l]
    · simp [l]
  | _ => rfl

/-- All that occurs in the declarations is accepted. -/
lemma admits (m : type ∈ occurring declarations) : Admits declarations type := by
  induction type using TypeExpr.partsInduction with
  | step type ih =>
    by_cases k : type.isStructural = true
    · refine .parted k (a.fault?_eq_none m k) ?_ fun part mp => ih part mp (occurring_of_part m mp)
      rintro key value rfl
      exact a.keyed key value m
    · cases type with
      | keyword => exact .keyword
      | literal => exact .literal
      | named name arguments =>
        cases arguments with
        | nil =>
          obtain ⟨last, e⟩ := a.endsAt (a.declared name m)
          exact .name e
        | cons => exact absurd rfl k
      | _ => exact absurd rfl k

lemma accepted : Accepted declarations :=
  ⟨a.distinct, fun _ m => a.admits (occurring_of_mem m)⟩

end Admissible

/-- Declarations that do not lie too deep are lowered if and only if they are admissible. A cycle of
aliases that is reported is one of bare names, and every chain of names is followed to its end. -/
theorem lowerDeclarations_iff_admissible (r : store.Reachable)
    (n : (lowerDeclarations store declarations).1 ≠ .error (.failed .depthLimitExceeded)) :
    ((∃ ids, (lowerDeclarations store declarations).1 = .ok ids) ↔ Admissible declarations) ∧
    (∀ name, (lowerDeclarations store declarations).1 = .error (.failed (.aliasCycle name)) →
      Relation.TransGen (Links declarations) name name) ∧
    ∀ resolved name more,
      followChain declarations resolved (declarations.length + 1 + more) [] name =
        chainEnd declarations resolved name := by
  refine ⟨?_, ?_, ?_⟩
  · rw [exists_lowerDeclarations_iff r n]
    exact ⟨fun a => a.admissible, fun a => a.accepted⟩
  · exact fun name e => transGen_of_aliasCycle (Prod.ext e rfl)
  · exact fun resolved name more => followChain_add more rfl LeadsTo.nil

/-- The forest is admissible, though its trees are made of forests. -/
theorem forest_admissible :
    TypeStore.new.Reachable ∧
    (lowerDeclarations .new forest).1 ≠ .error (.failed .depthLimitExceeded) ∧
    Admissible forest := by
  obtain ⟨store', h⟩ := lowerDeclarations_forest
  have n : (lowerDeclarations .new forest).1 ≠ .error (.failed .depthLimitExceeded) := by
    rw [h]
    exact nofun
  exact ⟨.new, n, (lowerDeclarations_iff_admissible .new n).1.1 ⟨_, congrArg Prod.fst h⟩⟩

end TypeSchema.Lowering
