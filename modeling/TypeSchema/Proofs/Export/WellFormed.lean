import TypeSchema.Proofs.Import.Claim
import TypeSchema.Proofs.Lowering.Occurrences
import TypeSchema.Proofs.RoundTrip.Levels

/-!
# Well-formed type expressions

What is exported can be written down as type syntax: no union of a single type, no name given twice
in one list, nothing required behind something optional, no number without a literal, and no type
arguments besides the two of a record. Each condition is about one expression and its direct parts,
so it is proved where the parts of a node are put together.
-/

namespace TypeSchema

namespace TypeExpr

/-- What type syntax asks of an expression, its parts left aside. -/
def RootWellFormed : TypeExpr → Prop
  | keyword _ | array _ => True
  | literal (.number number) => number.isFinite = true
  | literal _ => True
  | object members => (members.map (·.name)).Nodup
  | composite _ members => 2 ≤ members.length
  | tuple members => members.Pairwise fun a b => a.isOptional = true → b.isOptional = true
  | named name arguments => arguments = [] ∨ name = "Record" ∧ arguments.length = 2
  | function parameters _ => (parameters.map (·.name)).Nodup ∧
      parameters.Pairwise fun a b => a.isOptional = true → b.isOptional = true

/-- What type syntax asks of every expression in an expression. -/
def WellFormed (type : TypeExpr) : Prop := ∀ inner ∈ type.preorder, inner.RootWellFormed

/-- An expression is well-formed if it is so itself and its parts are. -/
lemma WellFormed.of_parts {type : TypeExpr} (root : type.RootWellFormed)
    (parts : ∀ part ∈ type.parts, part.WellFormed) : type.WellFormed := by
  intro inner m
  rw [preorder_eq] at m
  rcases List.mem_cons.1 m with rfl | m
  · exact root
  · obtain ⟨part, mp, m⟩ := List.mem_flatMap.1 m
    exact parts part mp inner m

lemma wellFormed_reference (name : String) : (reference name).WellFormed :=
  .of_parts (.inl rfl) fun _ m => absurd m List.not_mem_nil

end TypeExpr

namespace Schema

/-- What the syntax of a node needs of the node itself. What a reference refers to is a name of any
kind. -/
def RootSpellable : Schema → Prop
  | object properties _ => (properties.map (·.1)).Nodup
  | composite _ members _ => 2 ≤ members.length
  | _ => True

/-- Every composite of a tree has two members or more, and no object has two properties of one
name. -/
def Spellable (node : Schema) : Prop := ∀ inner ∈ node.preorder, inner.RootSpellable

lemma WellFormed.spellable {node : Schema} (w : node.WellFormed) : node.Spellable := by
  intro inner m
  have root := w inner m
  cases inner with
  | reference => trivial
  | _ => exact root

lemma Spellable.of_exported {node : Schema} (spellable : node.Spellable) (inner : Schema)
    (m : inner ∈ node.exported) : inner.Spellable :=
  fun innermost m' => spellable innermost (preorder_trans (mem_preorder_of_exported m) m')

/-- A list is split in two: the members in front are kept as they are, those behind are all
optional and lose their marks. -/
lemma splitTrailing_eq (nodes : List Schema) : ∃ kept run, nodes = kept ++ run ∧
    (∀ node ∈ run, node.splitOptional.2 = true) ∧
    splitTrailing nodes = kept.map (fun node => (node, false)) ++ run.map splitOptional := by
  have general : ∃ kept run, nodes = kept ++ run ∧
      (∀ node ∈ run, node.splitOptional.2 = true) ∧
      (splitRun nodes).1 = kept.map (fun node => (node, false)) ++ run.map splitOptional ∧
      ((splitRun nodes).2 = true → kept = []) := by
    induction nodes with
    | nil => exact ⟨[], [], rfl, fun _ m => absurd m List.not_mem_nil, rfl, fun _ => rfl⟩
    | cons node nodes ih =>
      obtain ⟨kept, run, rfl, optional, e, whole⟩ := ih
      simp only [splitRun]
      split
      case isTrue h =>
        obtain ⟨isRun, isSplit⟩ := Bool.and_eq_true_iff.1 h
        obtain rfl := whole isRun
        exact ⟨[], node :: run, rfl, List.forall_mem_cons.2 ⟨isSplit, optional⟩,
          congrArg (node.splitOptional :: ·) e, fun _ => rfl⟩
      case isFalse =>
        exact ⟨node :: kept, run, rfl, optional, congrArg ((node, false) :: ·) e,
          fun h => absurd h Bool.false_ne_true⟩
  obtain ⟨kept, run, append, optional, e, -⟩ := general
  exact ⟨kept, run, append, optional, e⟩

/-- Behind a member that is split every member is. -/
lemma pairwise_splitTrailing (nodes : List Schema) :
    (splitTrailing nodes).Pairwise fun a b => a.2 = true → b.2 = true := by
  obtain ⟨kept, run, -, optional, e⟩ := splitTrailing_eq nodes
  rw [e, List.pairwise_append]
  have required : ∀ member ∈ kept.map fun node => (node, false), member.2 = false := by
    intro member m
    obtain ⟨node, -, rfl⟩ := List.mem_map.1 m
    rfl
  have split : ∀ member ∈ run.map splitOptional, member.2 = true := by
    intro member m
    obtain ⟨node, mn, rfl⟩ := List.mem_map.1 m
    exact optional node mn
  refine ⟨?_, ?_, fun a ma b mb _ => split b mb⟩
  · exact List.pairwise_of_forall_mem_list fun a ma b _ h => absurd h (by simp [required a ma])
  · exact List.pairwise_of_forall_mem_list fun a _ b mb _ => split b mb

end Schema

namespace Exporter

variable {exporter : Exporter} {place : Place} {node : Schema} {s s' : ExportState}
  {type : TypeExpr} {types : List TypeExpr} {room : Nat}

/-- Parameters are named by their positions. -/
lemma map_name_parameters {position : Nat} {members : List (Schema × Bool)}
    (l : members.length ≤ types.length) :
    (exporter.parameters position members types).map (·.name) =
      (List.range' position members.length).map fun position =>
        exporter.options.parameterPrefix ++ toString position := by
  induction members generalizing position types with
  | nil => simp [parameters]
  | cons member members ih =>
    cases types with
    | nil => cases l
    | cons type types =>
      simp [parameters, List.range'_succ, ih (Nat.le_of_succ_le_succ l)]

/-- Parameters have the marks of the members. -/
lemma map_isOptional_parameters {position : Nat} {members : List (Schema × Bool)}
    (l : members.length ≤ types.length) :
    (exporter.parameters position members types).map (·.isOptional) = members.map (·.2) := by
  induction members generalizing position types with
  | nil => simp [parameters]
  | cons member members ih =>
    cases types with
    | nil => cases l
    | cons type types => simp [parameters, ih (Nat.le_of_succ_le_succ l)]

/-- The expression of a node that can be spelled is well-formed, its parts left aside. -/
lemma rootWellFormed_assemble (spellable : node.RootSpellable)
    (l : types.length = node.parts.length)
    (finite : ∀ number info, node = .literal (.number number) info → number.isFinite = true) :
    (exporter.assemble node types).RootWellFormed := by
  cases node with
  | primitive => trivial
  | literal value info =>
    cases value with
    | number number => exact finite number info rfl
    | _ => trivial
  | object properties info =>
    have l : types.length = properties.length := l.trans (List.length_map _)
    have names : (properties.zipWith Schema.propertySignature types).map (·.name) =
        properties.map (·.1) := by
      rw [List.map_zipWith]
      exact zipWith_left l
    show ((properties.zipWith Schema.propertySignature types).map (·.name)).Nodup
    rw [names]
    exact spellable
  | array => trivial
  | tuple elements info =>
    have marks : ((Schema.splitTrailing elements).zipWith Schema.tupleMember types).map
        (·.isOptional) = (Schema.splitTrailing elements).map (·.2) := by
      rw [List.map_zipWith]
      exact zipWith_left l
    refine List.pairwise_map.1 (?_ : (_ : List Bool).Pairwise fun a b => a = true → b = true)
    rw [marks, List.pairwise_map]
    exact Schema.pairwise_splitTrailing elements
  | composite connective members info =>
    have l : types.length = members.length := l.trans (List.length_map _)
    show 2 ≤ types.length
    rw [l]
    exact spellable
  | record => exact .inr ⟨rfl, l⟩
  | function arguments returns info =>
    have l : (Schema.splitTrailing arguments).length ≤ types.length := by
      rw [l, Schema.parts, List.length_append]
      exact Nat.le_add_right _ _
    constructor
    · rw [map_name_parameters l]
      exact (List.nodup_range').map fun _ _ => numbered_injective
    · refine List.pairwise_map.1 (?_ : (_ : List Bool).Pairwise fun a b => a = true → b = true)
      rw [map_isOptional_parameters l, List.pairwise_map]
      exact Schema.pairwise_splitTrailing arguments
  | reference => exact .inl rfl

/-- A number that passes the check is finite. -/
lemma isFinite_of_checkLiteral {number : Binary64} {info : NodeInfo}
    (g : (Schema.literal (.number number) info).checkLiteral.Gives s () s') :
    number.isFinite = true := by
  by_contra infinite
  rw [Schema.checkLiteral, if_neg infinite] at g
  exact Walk.not_gives_fail g

/-- The expression that is exported of a tree that can be spelled is well-formed. -/
lemma wellFormed_of_gives_exportNode (spellable : node.Spellable)
    (g : (exporter.exportNode room place node).Gives s type s') : type.WellFormed := by
  induction room generalizing place node s type s' with
  | zero =>
    obtain ⟨_, _, _, -, g, -⟩ := gives_within.1 g
    exact absurd g Walk.not_gives_fail
  | succ room ih =>
    obtain ⟨guard, inside, guard', -, g, -, -⟩ := gives_within.1 g
    rw [exportStructure_eq] at g
    obtain ⟨_, s1, check, g⟩ := Walk.gives_bind.1 g
    obtain ⟨types, s2, parts, g⟩ := Walk.gives_bind.1 g
    obtain ⟨rfl, rfl⟩ := Walk.gives_pure.1 g
    have threads := Walk.gives_mapM.1 parts
    have length : types.length = node.parts.length := threads.length.trans length_members
    have root := spellable node Schema.mem_preorder_self
    refine .of_parts (rootWellFormed_assemble root length ?_) ?_
    · rintro number info rfl
      exact isFinite_of_checkLiteral check
    · intro part m
      obtain ⟨placed, mp, t, t', g⟩ :=
        threads.exists_of_mem part (mem_of_mem_parts_assemble length m)
      unfold exportPlaced at g
      rw [exportMember_eq] at g
      split at g
      case h_1 =>
        obtain ⟨_, _, -, g⟩ := Walk.gives_bind.1 g
        obtain ⟨rfl, rfl⟩ := Walk.gives_pure.1 g
        exact TypeExpr.wellFormed_reference _
      case h_2 =>
        obtain ⟨isSplit, mp⟩ := Schema.mem_placedParts mp
        exact ih (fun inner mi => spellable inner
          (Schema.preorder_trans (Schema.mem_preorder_of_part mp) mi)) g

end Exporter

namespace Schema

variable {options : ExportOptions} {name : String} {node : Schema}

/-- A tree that is exported as one expression is exported from the root on. -/
lemma gives_of_toTypeExpr {type : TypeExpr} (h : node.toTypeExpr options = .ok type) :
    ∃ s', (Exporter.exportRoot ⟨options, false⟩ .root node).Gives (Exporter.start ⟨options, false⟩)
      type s' := by
  unfold toTypeExpr at h
  split at h
  case h_1 =>
    unfold toTypeExprUnchecked Exporter.finish at h
    dsimp only at h
    split at h
    case h_1 => exact ⟨_, Prod.ext h rfl⟩
    case h_2 => cases h
  case h_2 => cases h

/-- Whatever the options and the name, all that is exported of a tree that can be spelled is
well-formed at every depth: a single expression as well as each of the declarations. -/
theorem export_wellFormed (spellable : node.Spellable) :
    (∀ type, node.toTypeExpr options = .ok type → type.WellFormed) ∧
      ∀ declarations, node.toDeclarations options name = .ok declarations →
        ∀ declaration ∈ declarations, declaration.type.WellFormed := by
  have root : ∀ hoists place inner s type s', inner.Spellable →
      (Exporter.exportRoot ⟨options, hoists⟩ place inner).Gives s type s' → type.WellFormed :=
    fun _ _ _ _ _ _ spellable g => Exporter.wellFormed_of_gives_exportNode spellable g
  constructor
  · intro type h
    obtain ⟨s', g⟩ := gives_of_toTypeExpr h
    exact root _ _ _ _ _ _ spellable g
  · intro declarations h
    obtain ⟨-, -, s', g⟩ := gives_of_toDeclarations h
    exact forall_of_declared (root true) (fun _ => Spellable.of_exported) spellable
      (fun _ m => absurd m List.not_mem_nil) g

/-- An object with a call, whose last parameter is optional, and a table of named pairs. -/
def callTable : Schema :=
  .object
    [("call", .function
      [.composite .union [.literal (.number (.ofNat 1)) {}, .literal (.string "one") {}] {},
        .composite .union [.primitive .string {}, undefinedNode] {}] (.primitive .void {}) {}),
      ("table", .record (.primitive .string {})
        (.tuple [.primitive .string {}, .composite .union [.primitive .number {}, undefinedNode] {}]
          { identifier := some "Pair" }) {})] {}

/-- The call and the table are exported as well-formed declarations. -/
theorem callTable_wellFormed : callTable.Spellable ∧
    ∃ declarations, callTable.toDeclarations {} "Root" = .ok declarations ∧
      ∀ declaration ∈ declarations, declaration.type.WellFormed := by
  have spellable : callTable.Spellable := WellFormed.spellable (by decide)
  have given : (callTable.toDeclarations {} "Root").isOk = true := by decide +kernel
  cases e : callTable.toDeclarations {} "Root" with
  | error stop =>
    rw [e] at given
    cases given
  | ok declarations => exact ⟨spellable, declarations, rfl, (export_wellFormed spellable).2 _ e⟩

end Schema

end TypeSchema
