import Mathlib.Tactic.Lemma
import Mathlib.Tactic.SplitIfs
import TypeSchema.Syntax.Printer

/-!
# Spliced expressions

A union that is a direct member of a union is printed like its members in its place, and so is an
intersection in an intersection. Splicing puts the members in the place of such a member; it does
not change the text, and leaves no composite with a member of its own kind.
-/

namespace TypeSchema

namespace TypeExpr

/-- How the members of an expression are joined, if it has members. -/
def connective? : TypeExpr → Option Connective
  | composite connective _ => some connective
  | _ => none

/-- What an expression is as a part of a composite: its members if they are joined in the same
way. -/
def membersOf (connective : Connective) : TypeExpr → List TypeExpr
  | composite own members => if own = connective then members else [composite own members]
  | type => [type]

mutual

/-- An expression with the members of composites in composites of the same kind put in their
place. -/
def spliced : TypeExpr → TypeExpr
  | keyword word => keyword word
  | literal value => literal value
  | object members => object (splicedProperties members)
  | composite connective members => composite connective (splicedMembers connective members)
  | array element => array element.spliced
  | tuple members => tuple (splicedElements members)
  | named name arguments => named name (splicedList arguments)
  | function parameters returns => function (splicedParameters parameters) returns.spliced

/-- The members of a composite, spliced into it. -/
def splicedMembers (connective : Connective) : List TypeExpr → List TypeExpr
  | [] => []
  | type :: rest => type.spliced.membersOf connective ++ splicedMembers connective rest

/-- The properties of an object type, their types spliced. -/
def splicedProperties : List (PropertySignature TypeExpr) → List (PropertySignature TypeExpr)
  | [] => []
  | ⟨name, isOptional, type, documentation⟩ :: rest =>
    ⟨name, isOptional, type.spliced, documentation⟩ :: splicedProperties rest

/-- The elements of a tuple type, their types spliced. -/
def splicedElements : List (TupleMember TypeExpr) → List (TupleMember TypeExpr)
  | [] => []
  | ⟨isOptional, type⟩ :: rest => ⟨isOptional, type.spliced⟩ :: splicedElements rest

/-- The parameters of a function type, their types spliced. -/
def splicedParameters : List (Parameter TypeExpr) → List (Parameter TypeExpr)
  | [] => []
  | ⟨name, isOptional, type⟩ :: rest => ⟨name, isOptional, type.spliced⟩ :: splicedParameters rest

/-- Spliced expressions one by one. -/
def splicedList : List TypeExpr → List TypeExpr
  | [] => []
  | type :: rest => type.spliced :: splicedList rest

end

end TypeExpr

/-- A name that stands for itself in a printed type. -/
structure IsTypeName (name : String) : Prop where
  isIdentifier : Text.isIdentifier name = true
  notKeyword : Keyword.ofText? name = none
  notTrue : name ≠ "true"
  notFalse : name ≠ "false"

namespace TypeExpr

/-- The expressions whose text can be taken apart again, without documentation. What a composite may
have as a member is left open. -/
inductive Printed (admits : Connective → TypeExpr → Prop) : TypeExpr → Prop
  | keyword {word} : Printed admits (.keyword word)
  | literal {value} :
    (∀ number, value = .number number → number.isFinite = true) →
    Printed admits (.literal value)
  | object {members} :
    (∀ member ∈ members, member.documentation = none) →
    (∀ member ∈ members, Printed admits member.type) →
    Printed admits (.object members)
  | composite {connective members} :
    2 ≤ members.length →
    (∀ member ∈ members, admits connective member) →
    (∀ member ∈ members, Printed admits member) →
    Printed admits (.composite connective members)
  | array {element} :
    Printed admits element →
    Printed admits (.array element)
  | tuple {members} :
    (∀ member ∈ members, Printed admits member.type) →
    Printed admits (.tuple members)
  | named {name arguments} :
    IsTypeName name →
    (∀ argument ∈ arguments, Printed admits argument) →
    Printed admits (.named name arguments)
  | function {parameters returns} :
    (∀ parameter ∈ parameters, IsTypeName parameter.name) →
    (∀ parameter ∈ parameters, Printed admits parameter.type) →
    Printed admits returns →
    Printed admits (.function parameters returns)

/-- Expressions without documentation, whose composites have two members at least, whose numbers are
finite and whose names stand for themselves. -/
def Readable : TypeExpr → Prop := Printed fun _ _ => True

/-- Readable expressions in which no member of a composite is joined like the composite. -/
def Canonical : TypeExpr → Prop :=
  Printed fun connective member => member.connective? ≠ some connective

/-! ### Printed parts -/

/-- The text of an expression that stands at a position. -/
def printIn (position : Position) (level : Nat) (type : TypeExpr) : String :=
  position.wrap type (type.printAt level)

/-- The text of an element of a tuple type. -/
def elementText (level : Nat) (element : TupleMember TypeExpr) : String :=
  if element.isOptional then element.type.printIn .optionalElement level ++ "?"
  else element.type.printAt level

/-- The text of a parameter of a function type. -/
def parameterText (level : Nat) (parameter : Parameter TypeExpr) : String :=
  parameter.name ++ optionalMark parameter.isOptional ++ ": " ++ parameter.type.printAt level

/-- The lines of a member of an object type. -/
def propertyText (level : Nat) (member : PropertySignature TypeExpr) : String :=
  (match member.documentation with
    | some text => documentationText level text
    | none => "") ++
    indentation level ++ propertyNameText member.name ++ optionalMark member.isOptional ++ ": " ++
    member.type.printAt level ++ ";\n"

variable {connective : Connective} {position : Position} {type : TypeExpr} {level : Nat}

lemma printMembers_eq (members : List TypeExpr) :
    printMembers level position members = members.map (printIn position level) := by
  induction members with
  | nil => rfl
  | cons type members ih => rw [printMembers, ih]; rfl

lemma printElements_eq (members : List (TupleMember TypeExpr)) :
    printElements level members = members.map (elementText level) := by
  induction members with
  | nil => rfl
  | cons member members ih => rw [printElements, ih]; rfl

lemma printParameters_eq (parameters : List (Parameter TypeExpr)) :
    printParameters level parameters = parameters.map (parameterText level) := by
  induction parameters with
  | nil => rfl
  | cons parameter parameters ih => rw [printParameters, ih]; rfl

lemma printProperties_cons (member : PropertySignature TypeExpr)
    (members : List (PropertySignature TypeExpr)) :
    printProperties level (member :: members) =
      propertyText level member ++ printProperties level members := by
  obtain ⟨name, isOptional, type, documentation⟩ := member
  cases documentation <;> simp only [printProperties, propertyText, String.append_assoc]

lemma printAt_object {members : List (PropertySignature TypeExpr)} (ne : members ≠ []) :
    (object members).printAt level =
      "\x7b\n" ++ printProperties (level + 1) members ++ indentation level ++ "\x7d" := by
  cases members with
  | nil => exact absurd rfl ne
  | cons member members => rfl

lemma printAt_tuple (members : List (TupleMember TypeExpr)) :
    (tuple members).printAt level =
      "[" ++ String.intercalate ", " (members.map (elementText level)) ++ "]" := by
  rw [printAt, printElements_eq]

lemma printAt_function (parameters : List (Parameter TypeExpr)) (returns : TypeExpr) :
    (function parameters returns).printAt level =
      "(" ++ String.intercalate ", " (parameters.map (parameterText level)) ++ ") => " ++
        returns.printAt level := by
  rw [printAt, printParameters_eq]

/-- Nothing stands in parentheses at the top. -/
lemma printIn_top : type.printIn .top level = type.printAt level := by
  cases type with
  | composite connective => cases connective <;> rfl
  | _ => rfl

lemma printAt_named {name : String} {arguments : List TypeExpr} (ne : arguments ≠ []) :
    (named name arguments).printAt level =
      name ++ "<" ++ String.intercalate ", " (arguments.map (printAt level)) ++ ">" := by
  cases arguments with
  | nil => exact absurd rfl ne
  | cons argument arguments =>
    have texts : printMembers level .top (argument :: arguments) =
        (argument :: arguments).map (printAt level) := by
      rw [printMembers_eq]
      exact List.map_congr_left fun type _ => printIn_top
    rw [← texts]
    rfl

/-- A composite that is a member of one of its kind has no parentheses. -/
lemma printIn_own {members : List TypeExpr} :
    (composite connective members).printIn (.member connective) level =
      (composite connective members).printAt level := by
  cases connective <;> rfl

/-! ### Spliced parts -/

lemma splicedMembers_eq (members : List TypeExpr) :
    splicedMembers connective members =
      members.flatMap fun type => type.spliced.membersOf connective := by
  induction members with
  | nil => rfl
  | cons type members ih => rw [splicedMembers, ih, List.flatMap_cons]

lemma splicedProperties_eq (members : List (PropertySignature TypeExpr)) :
    splicedProperties members = members.map fun member =>
      { member with type := member.type.spliced } := by
  induction members with
  | nil => rfl
  | cons member members ih => rw [splicedProperties, ih]; rfl

lemma splicedElements_eq (members : List (TupleMember TypeExpr)) :
    splicedElements members = members.map fun member =>
      { member with type := member.type.spliced } := by
  induction members with
  | nil => rfl
  | cons member members ih => rw [splicedElements, ih]; rfl

lemma splicedParameters_eq (parameters : List (Parameter TypeExpr)) :
    splicedParameters parameters = parameters.map fun parameter =>
      { parameter with type := parameter.type.spliced } := by
  induction parameters with
  | nil => rfl
  | cons parameter parameters ih => rw [splicedParameters, ih]; rfl

lemma splicedList_eq (types : List TypeExpr) : splicedList types = types.map spliced := by
  induction types with
  | nil => rfl
  | cons type types ih => rw [splicedList, ih]; rfl

/-- An expression either has the members of a composite or is a member by itself. -/
lemma membersOf_cases (connective : Connective) (type : TypeExpr) :
    (∃ members, type = composite connective members ∧ type.membersOf connective = members) ∨
      (type.connective? ≠ some connective ∧ type.membersOf connective = [type]) := by
  cases type with
  | composite own members =>
    by_cases same : own = connective
    · subst same
      exact .inl ⟨members, rfl, if_pos rfl⟩
    · exact .inr ⟨fun e => same (Option.some.inj e), if_neg same⟩
  | _ => exact .inr ⟨nofun, rfl⟩

/-! ### Splicing gives canonical expressions -/

lemma Canonical.membersOf (canonical : Canonical type) (connective : Connective) :
    type.membersOf connective ≠ [] ∧
      ∀ member ∈ type.membersOf connective,
        member.connective? ≠ some connective ∧ Canonical member := by
  obtain ⟨members, rfl, e⟩ | ⟨other, e⟩ := membersOf_cases connective type
  · rw [e]
    cases canonical with
    | composite many admitted printed =>
      refine ⟨?_, fun member m => ⟨admitted member m, printed member m⟩⟩
      exact List.ne_nil_of_length_pos (Nat.lt_of_succ_lt many)
  · rw [e]
    exact ⟨List.cons_ne_nil _ _, List.forall_mem_singleton.2 ⟨other, canonical⟩⟩

lemma length_le_flatMap {α β : Type} {f : α → List β} {as : List α} (h : ∀ a ∈ as, f a ≠ []) :
    as.length ≤ (as.flatMap f).length := by
  induction as with
  | nil => exact Nat.zero_le _
  | cons a as ih =>
    have one := List.length_pos_iff.2 (h a List.mem_cons_self)
    have others := ih fun a m => h a (List.mem_cons_of_mem _ m)
    rw [List.flatMap_cons, List.length_append, List.length_cons]
    omega

/-- Splicing leaves no composite with a member of its kind. -/
theorem Printed.canonical_spliced {admits : Connective → TypeExpr → Prop}
    (printed : Printed admits type) : Canonical type.spliced := by
  induction printed with
  | keyword => exact .keyword
  | literal finite => exact .literal finite
  | object undocumented _ ih =>
    rw [spliced, splicedProperties_eq]
    exact .object (List.forall_mem_map.2 undocumented) (List.forall_mem_map.2 ih)
  | @composite connective members many _ _ ih =>
    rw [spliced, splicedMembers_eq]
    have parts (member : TypeExpr) (m : member ∈ members) := (ih member m).membersOf connective
    refine .composite ?_ ?_ ?_
    · exact Nat.le_trans many (length_le_flatMap fun member m => (parts member m).1)
    all_goals
      intro part m
      obtain ⟨member, m, m'⟩ := List.mem_flatMap.1 m
    · exact ((parts member m).2 part m').1
    · exact ((parts member m).2 part m').2
  | array _ ih => exact .array ih
  | tuple _ ih =>
    rw [spliced, splicedElements_eq]
    exact .tuple (List.forall_mem_map.2 ih)
  | named name _ ih =>
    rw [spliced, splicedList_eq]
    exact .named name (List.forall_mem_map.2 ih)
  | function names _ _ ih ihr =>
    rw [spliced, splicedParameters_eq]
    exact .function (List.forall_mem_map.2 names) (List.forall_mem_map.2 ih) ihr

/-! ### Splicing keeps the text -/

lemma intercalate_flatMap {α : Type} {separator : String} {f : α → List String} {g : α → String}
    {as : List α} (h : ∀ a ∈ as, f a ≠ [] ∧ separator.intercalate (f a) = g a) :
    separator.intercalate (as.flatMap f) = separator.intercalate (as.map g) := by
  induction as with
  | nil => rfl
  | cons a as ih =>
    obtain ⟨ne, e⟩ := h a List.mem_cons_self
    have others := ih fun a m => h a (List.mem_cons_of_mem _ m)
    cases as with
    | nil => simpa using e
    | cons b as =>
      have ne' : (b :: as).flatMap f ≠ [] := by
        rw [List.flatMap_cons]
        exact List.append_ne_nil_of_left_ne_nil (h b (.tail _ (.head _))).1 _
      have ne'' : (b :: as).map g ≠ [] := nofun
      calc separator.intercalate ((a :: b :: as).flatMap f)
        _ = separator.intercalate (f a) ++ separator ++
            separator.intercalate ((b :: as).flatMap f) := by
          rw [List.flatMap_cons, String.intercalate_append_of_ne_nil ne ne']
        _ = separator.intercalate [g a] ++ separator ++
            separator.intercalate ((b :: as).map g) := by
          rw [e, others, String.intercalate_singleton]
        _ = separator.intercalate ((a :: b :: as).map g) :=
          (String.intercalate_append_of_ne_nil (List.cons_ne_nil _ _) ne'').symm

lemma needsParens_spliced : position.needsParens type.spliced = position.needsParens type := by
  cases type with
  | composite connective => cases connective <;> rfl
  | _ => rfl

lemma printIn_spliced (h : type.spliced.printAt level = type.printAt level) :
    type.spliced.printIn position level = type.printIn position level := by
  rw [printIn, printIn, Position.wrap, Position.wrap, needsParens_spliced, h]

/-- The parts of a member are printed as it is printed itself. -/
lemma intercalate_membersOf (h : type.spliced.printAt level = type.printAt level) :
    connective.separator.intercalate
      ((type.spliced.membersOf connective).map (printIn (.member connective) level)) =
      type.printIn (.member connective) level := by
  rw [← printIn_spliced h]
  obtain ⟨members, e, e'⟩ | ⟨_, e'⟩ := membersOf_cases connective type.spliced
  · rw [e', e, printIn_own, printAt, printMembers_eq]
  · rw [e']
    simp

lemma printProperties_spliced {members : List (PropertySignature TypeExpr)}
    (h : ∀ member ∈ members, member.type.spliced.printAt level = member.type.printAt level) :
    printProperties level (splicedProperties members) = printProperties level members := by
  induction members with
  | nil => rfl
  | cons member members ih =>
    have first := h member List.mem_cons_self
    have others := ih fun member m => h member (List.mem_cons_of_mem _ m)
    rw [splicedProperties, printProperties_cons, printProperties_cons, others, propertyText,
      propertyText, first]

/-- Splicing does not change the text. -/
theorem Printed.printAt_spliced {admits : Connective → TypeExpr → Prop}
    (printed : Printed admits type) (level : Nat) :
    type.spliced.printAt level = type.printAt level := by
  induction printed generalizing level with
  | keyword => rfl
  | literal => rfl
  | @object members _ _ ih =>
    cases members with
    | nil => rfl
    | cons member members =>
      have ne : splicedProperties (member :: members) ≠ [] := nofun
      rw [spliced, printAt_object ne, printAt_object (List.cons_ne_nil _ _),
        printProperties_spliced fun member m => ih member m (level + 1)]
  | @composite connective members many _ printed ih =>
    rw [spliced, splicedMembers_eq, printAt, printAt, printMembers_eq, printMembers_eq,
      List.map_flatMap]
    refine intercalate_flatMap fun member m => ⟨?_, ?_⟩
    · have some := ((printed member m).canonical_spliced.membersOf connective).1
      exact mt List.map_eq_nil_iff.1 some
    · exact intercalate_membersOf (ih member m level)
  | array _ ih =>
    exact congrArg (· ++ "[]") (printIn_spliced (ih level))
  | @tuple members _ ih =>
    rw [spliced, splicedElements_eq, printAt_tuple, printAt_tuple, List.map_map]
    refine congrArg (fun texts => "[" ++ String.intercalate ", " texts ++ "]")
      (List.map_congr_left fun member m => ?_)
    have same := ih member m level
    rw [Function.comp_apply, elementText, elementText, printIn_spliced same, same]
  | @named name arguments _ _ ih =>
    cases arguments with
    | nil => rfl
    | cons argument arguments =>
      have ne : (argument :: arguments).map spliced ≠ [] := nofun
      rw [spliced, splicedList_eq, printAt_named ne, printAt_named (List.cons_ne_nil _ _),
        List.map_map]
      refine congrArg (fun texts => name ++ "<" ++ String.intercalate ", " texts ++ ">")
        (List.map_congr_left fun member m => ?_)
      exact ih member m level
  | @function parameters returns _ _ _ ih ihr =>
    rw [spliced, splicedParameters_eq, printAt_function, printAt_function, List.map_map, ihr level]
    refine congrArg (fun texts => "(" ++ String.intercalate ", " texts ++ ") => " ++
      returns.printAt level) (List.map_congr_left fun parameter m => ?_)
    rw [Function.comp_apply, parameterText, parameterText, ih parameter m level]

end TypeExpr

end TypeSchema
