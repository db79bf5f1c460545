import Mathlib.Data.List.Perm.Subperm
import Mathlib.Logic.Relation
import TypeSchema.Proofs.Lowering.Inversion

/-!
# Where alias chains end

The alias chain of a name ends at a declaration whose body is not the bare name of another one,
unless it leads nowhere or back to itself. Following a chain that ends finds a resolved alias on the
way, or the declaration at its end.
-/

namespace TypeSchema.Lowering

/-- The alias chain of the name ends at the declaration. -/
inductive EndsAt (declarations : List Declaration) : String → Declaration → Prop
  | own {name : String} {declaration : Declaration} :
    declared? declarations name = some declaration →
    declaration.type.aliasTarget? declarations = none →
    EndsAt declarations name declaration
  | link {name target : String} {declaration last : Declaration} :
    declared? declarations name = some declaration →
    declaration.type.aliasTarget? declarations = some target →
    EndsAt declarations target last →
    EndsAt declarations name last

/-- The body of the first name's declaration is the second name. -/
def Links (declarations : List Declaration) (name target : String) : Prop :=
  ∃ declaration, declared? declarations name = some declaration ∧
    declaration.type.aliasTarget? declarations = some target

variable {declarations : List Declaration} {resolved : List (String × TypeId)}
  {name target : String} {chain : List String} {declaration last : Declaration}

lemma Links.unique {other : String} (h : Links declarations name target)
    (h' : Links declarations name other) : target = other := by
  obtain ⟨declaration, c, t⟩ := h
  obtain ⟨declaration', c', t'⟩ := h'
  rw [c, Option.some.injEq] at c'
  subst c'
  rw [t, Option.some.injEq] at t'
  exact t'

namespace EndsAt

/-- The declaration at the end of a chain is one of its own name. -/
lemma declared (h : EndsAt declarations name last) :
    declared? declarations last.name = some last := by
  induction h with
  | own c _ =>
    obtain rfl := name_of_declared? c
    exact c
  | link _ _ _ ih => exact ih

lemma exists_declared (h : EndsAt declarations name last) :
    ∃ declaration, declared? declarations name = some declaration := by
  cases h with
  | own c => exact ⟨_, c⟩
  | link c => exact ⟨_, c⟩

lemma aliasTarget? (h : EndsAt declarations name last) :
    last.type.aliasTarget? declarations = none := by
  induction h with
  | own _ t => exact t
  | link _ _ _ ih => exact ih

/-- A chain has one end. -/
lemma unique {other : Declaration} (h : EndsAt declarations name last)
    (h' : EndsAt declarations name other) : last = other := by
  induction h with
  | own c t =>
    cases h' with
    | own c' => exact Option.some.inj (c.symm.trans c')
    | link c' t' =>
      obtain rfl := Option.some.inj (c.symm.trans c')
      cases t.symm.trans t'
  | link c t _ ih =>
    cases h' with
    | own c' t' =>
      obtain rfl := Option.some.inj (c.symm.trans c')
      cases t.symm.trans t'
    | link c' t' h' =>
      obtain rfl := Option.some.inj (c.symm.trans c')
      obtain rfl := Option.some.inj (t.symm.trans t')
      exact ih h'

/-- A chain that ends does not come back to its first name. -/
lemma not_transGen (h : EndsAt declarations name last) :
    ¬ Relation.TransGen (Links declarations) name name := by
  induction h with
  | own c t =>
    intro cycle
    obtain ⟨target, ⟨declaration, c', t'⟩, -⟩ := Relation.TransGen.head'_iff.1 cycle
    obtain rfl := Option.some.inj (c.symm.trans c')
    rw [t] at t'
    cases t'
  | link c t _ ih =>
    intro cycle
    obtain ⟨_, first, rest⟩ := Relation.TransGen.head'_iff.1 cycle
    obtain rfl := first.unique ⟨_, c, t⟩
    exact ih (Relation.TransGen.tail' rest first)

end EndsAt

/-- The body that a chain is followed to is at its end. -/
lemma endsAt_of_followChain {steps : Nat} {found : List String}
    (e : followChain declarations resolved steps chain name = .body found last) :
    EndsAt declarations name last := by
  induction steps generalizing chain name with
  | zero => cases e
  | succ steps ih =>
    unfold followChain at e
    cases c : declared? declarations name with
    | none => simp [c] at e
    | some declaration =>
      simp only [c] at e
      split at e
      case isTrue => cases e
      case isFalse =>
        cases t : declaration.type.aliasTarget? declarations with
        | none =>
          simp only [t] at e
          cases e
          exact .own c t
        | some target =>
          simp only [t] at e
          split at e
          case h_1 => cases e
          case h_2 => exact .link c t (ih e)

/-- The body that a chain leads to is at its end. -/
theorem endsAt_of_chainEnd {found : List String}
    (e : chainEnd declarations resolved name = .body found last) : EndsAt declarations name last :=
  endsAt_of_followChain e

/-- All names of a chain end where its last one does. -/
lemma AliasChain.endsAt (l : AliasChain declarations resolved chain declaration)
    (e : EndsAt declarations declaration.name last) :
    ∀ name ∈ chain, EndsAt declarations name last := by
  induction l with
  | start =>
    intro name m
    cases List.mem_singleton.1 m
    exact e
  | @next chain declaration following before t c _ ih =>
    refine List.forall_mem_cons.2 ⟨e, ih (.link before.declared ?_ e)⟩
    simp [t, TypeExpr.aliasTarget?, c]

/-- The chain of names is one that may be followed from the name: its names are declared, each
occurs in it once, and all lead to the name. -/
structure LeadsTo (declarations : List Declaration) (chain : List String) (name : String) :
    Prop where
  nodup : chain.Nodup
  declared : chain ⊆ declarations.map (·.name)
  links : ∀ other ∈ chain, Relation.TransGen (Links declarations) other name

/-- There are more steps than declarations, so that a chain of different names never uses them
up. -/
lemma LeadsTo.length_le (b : LeadsTo declarations chain name) :
    chain.length ≤ declarations.length := by
  simpa using (List.subperm_of_subset b.nodup b.declared).length_le

lemma LeadsTo.cons (b : LeadsTo declarations chain name)
    (c : declared? declarations name = some declaration) (fresh : name ∉ chain)
    (link : Links declarations name target) : LeadsTo declarations (name :: chain) target where
  nodup := List.nodup_cons.2 ⟨fresh, b.nodup⟩
  declared := by
    refine List.cons_subset.2 ⟨?_, b.declared⟩
    rw [← name_of_declared? c]
    exact List.mem_map_of_mem (List.mem_of_find?_eq_some c)
  links := List.forall_mem_cons.2 ⟨.single link, fun other m => (b.links other m).tail link⟩

/-- The chain ends at a resolved alias, or at the body of the declaration. -/
inductive Arrives (last : Declaration) : ChainEnd → Prop
  | resolved {chain : List String} {id : TypeId} : Arrives last (.resolved chain id)
  | body {chain : List String} : Arrives last (.body chain last)

/-- A chain that ends is followed to a resolved alias or to its end. -/
lemma arrives_followChain {steps : Nat} (h : EndsAt declarations name last)
    (l : steps + chain.length = declarations.length + 1) (b : LeadsTo declarations chain name) :
    Arrives last (followChain declarations resolved steps chain name) := by
  induction h generalizing steps chain with
  | @own name declaration c t =>
    have fresh : name ∉ chain := fun m => (EndsAt.own c t).not_transGen (b.links name m)
    obtain ⟨steps, rfl⟩ : ∃ more, steps = more + 1 := ⟨steps - 1, by have := b.length_le; omega⟩
    obtain rfl := name_of_declared? c
    unfold followChain
    simp only [c, if_neg fresh, t]
    exact .body
  | @link name target declaration last c t h ih =>
    -- A name that is met again would lead back to itself, and its chain would not end.
    have fresh : name ∉ chain := fun m => (EndsAt.link c t h).not_transGen (b.links name m)
    obtain ⟨steps, rfl⟩ : ∃ more, steps = more + 1 := ⟨steps - 1, by have := b.length_le; omega⟩
    have longer := b.cons c fresh ⟨declaration, c, t⟩
    obtain rfl := name_of_declared? c
    unfold followChain
    simp only [c, if_neg fresh, t]
    split
    case h_1 => exact .resolved
    case h_2 =>
      refine ih ?_ longer
      rw [List.length_cons]
      omega

/-- The chain of a name that ends leads to a resolved alias or to its end. -/
theorem arrives_chainEnd (h : EndsAt declarations name last) :
    Arrives last (chainEnd declarations resolved name) :=
  arrives_followChain h rfl ⟨.nil, List.nil_subset _, fun _ m => absurd m List.not_mem_nil⟩

end TypeSchema.Lowering
