import TypeSchema.Proofs.Lowering.Levels
import TypeSchema.Proofs.RoundTrip.Expression

/-!
# Levels of exported declarations

The exporter bounds the depth of every declaration on its own: it starts afresh for each of them,
and does not enter a node that it refers to by name. Lowering counts the name as a level too, and
counts on through it into the declaration it refers to. So the declarations of a tree that can be
exported may lie too deep for it all the same.
-/

namespace TypeSchema

namespace Exporter

open Lowering

variable {exporter : Exporter} {place : Place} {node : Schema} {s s' : ExportState}
  {type : TypeExpr} {types : List TypeExpr} {room n : Nat}

/-- Whatever its kind, the parts of the expression of a node are among those it is put together
from. -/
lemma mem_of_mem_parts_assemble {part : TypeExpr} (l : types.length = node.parts.length)
    (m : part ∈ (exporter.assemble node types).parts) : part ∈ types := by
  by_cases k : node.mayBeIdentified
  · rwa [Schema.parts_assemble k l] at m
  · cases node with
    | primitive => cases m
    | literal => cases m
    | reference => cases m
    | _ => exact absurd trivial k

/-- With nothing declared, every way stays inside the expression. -/
lemma levels_nil_cases (l : Levels [] [] type n) :
    n = 1 ∨ ∃ part ∈ type.parts, ∃ m, Levels [] [] part m ∧ n = m + 1 := by
  cases l with
  | one => exact .inl rfl
  | part m l => exact .inr ⟨_, m, _, l, rfl⟩
  | body e =>
    obtain ⟨_, c⟩ := e.exists_declared
    cases c

/-- An expression has one level for every node that the export enters, and one more for the names of
those that it does not. -/
lemma levels_of_gives_exportNode (g : (exporter.exportNode room place node).Gives s type s')
    (l : Levels [] [] type n) : n ≤ room + 1 := by
  induction room generalizing place node s type s' n with
  | zero =>
    obtain ⟨_, _, _, -, g, -⟩ := gives_within.1 g
    exact absurd g Walk.not_gives_fail
  | succ room ih =>
    obtain ⟨guard, inside, guard', -, g, -, -⟩ := gives_within.1 g
    rw [exportStructure_eq] at g
    obtain ⟨_, s1, -, g⟩ := Walk.gives_bind.1 g
    obtain ⟨types, s2, parts, g⟩ := Walk.gives_bind.1 g
    obtain ⟨rfl, rfl⟩ := Walk.gives_pure.1 g
    have threads := Walk.gives_mapM.1 parts
    have length : types.length = node.parts.length :=
      threads.length.trans length_members
    rcases levels_nil_cases l with rfl | ⟨part, m, n, below, rfl⟩
    · omega
    · obtain ⟨placed, -, t, t', g⟩ :=
        threads.exists_of_mem part (mem_of_mem_parts_assemble length m)
      unfold exportPlaced at g
      rw [exportMember_eq] at g
      split at g
      case h_1 identifier =>
        -- The part is named, and exported on its own.
        obtain ⟨_, _, -, g⟩ := Walk.gives_bind.1 g
        obtain ⟨rfl, rfl⟩ := Walk.gives_pure.1 g
        have := below.eq_one rfl rfl
        omega
      case h_2 =>
        have := ih g below
        omega

end Exporter

namespace Schema

open Lowering

variable {exporter : Exporter} {node : Schema} {name : String} {declarations : List Declaration}
  {s s' : ExportState}

/-- What holds of every expression that is exported holds of the declared ones. -/
lemma forall_of_gives_exportDeclarations {P : TypeExpr → Prop}
    (root : ∀ place node s type s', (exporter.exportRoot place node).Gives s type s' → P type)
    (g : (exportDeclarations exporter name node).Gives s declarations s') :
    ∀ declaration ∈ declarations, P declaration.type :=
  forall_of_declared (Q := fun _ => True) (fun place node s type s' _ => root place node s type s')
    (fun _ _ _ _ => trivial) trivial (fun _ _ => trivial) g

/--
Exporter and lowering count levels in different ways. Each declaration of a tree that can be
exported has, on its own, at most one level more than a lowering may enter, which is that of a name.
A lowering fails for its depth only where a way through the declarations, on which no body is
entered twice, has more levels than it may enter. The way may go through several declarations, or
stay inside of one that has the one level more.
-/
theorem levels_of_toDeclarations (h : node.toDeclarations {} name = .ok declarations) :
    (∀ declaration ∈ declarations, ∀ n, Levels [] [] declaration.type n → n ≤ maxRoom + 1) ∧
      ∀ store', lowerDeclarations .new declarations =
          (.error (.failed .depthLimitExceeded), store') →
        ∃ declaration ∈ declarations, ∃ n, maxRoom < n ∧
          Levels declarations [declaration.name] declaration.type n := by
  refine ⟨?_, fun store' => exists_levels_of_lowerDeclarations⟩
  obtain ⟨-, -, s', g⟩ := gives_of_toDeclarations h
  have root : ∀ place node s type s',
      (Exporter.exportRoot ⟨{}, true⟩ place node).Gives s type s' →
        ∀ n, Levels [] [] type n → n ≤ maxRoom + 1 :=
    fun _ _ _ _ _ g n l => Exporter.levels_of_gives_exportNode g l
  exact forall_of_gives_exportDeclarations root g

/-- Arrays of arrays of a node. -/
def nestedArrays : Nat → Schema → Schema
  | 0, node => node
  | n + 1, node => arrayOf (nestedArrays n node)

/-- Sixteen nests of arrays in one another, each but the outermost with an identifier. -/
def tower : Schema :=
  nestedArrays 31 (["A0", "A1", "A2", "A3", "A4", "A5", "A6", "A7", "A8", "A9", "A10", "A11", "A12",
    "A13", "A14"].foldr
      (fun identifier inner => (nestedArrays 31 inner).withIdentifier (some identifier))
      (ofPrimitive .string))

lemma lowered_tower : ((tower.toDeclarations {} "Root").toOption.map fun declarations =>
    (lowerDeclarations .new declarations).1) = some (.error (.failed .depthLimitExceeded)) := by
  decide +kernel

/-- The tower is exported, and refused for its depth when its declarations are lowered. -/
theorem lowerDeclarations_tower : ∃ declarations store',
    tower.toDeclarations {} "Root" = .ok declarations ∧
      lowerDeclarations .new declarations = (.error (.failed .depthLimitExceeded), store') := by
  have lowered := lowered_tower
  cases given : tower.toDeclarations {} "Root" with
  | error stop =>
    rw [given] at lowered
    cases lowered
  | ok declarations =>
    rw [given] at lowered
    exact ⟨declarations, _, rfl, Prod.ext (Option.some.inj lowered) rfl⟩

/-- So a way through its declarations has too many levels, though no declaration has. -/
theorem levels_tower : ∃ declarations, tower.toDeclarations {} "Root" = .ok declarations ∧
    (∀ declaration ∈ declarations, ∀ n, Levels [] [] declaration.type n → n ≤ 501) ∧
    ∃ declaration ∈ declarations, ∃ n, 500 < n ∧
      Levels declarations [declaration.name] declaration.type n := by
  have lowered := lowered_tower
  cases given : tower.toDeclarations {} "Root" with
  | error stop =>
    rw [given] at lowered
    cases lowered
  | ok declarations =>
    rw [given] at lowered
    obtain ⟨own, through⟩ := levels_of_toDeclarations given
    exact ⟨declarations, rfl, own, through _ (Prod.ext (Option.some.inj lowered) rfl)⟩

end Schema

end TypeSchema
