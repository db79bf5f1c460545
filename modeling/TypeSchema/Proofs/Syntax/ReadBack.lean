import TypeSchema.Proofs.Syntax.Parts

/-!
# Printed types are read back

The text of a canonical type is read for that type, at the level at which it binds: a type without
connectives and arrows outside of brackets as a factor, an intersection as a term. So no two
canonical types have the same text, and two types that have the same text differ in what splicing
changes.
-/

namespace TypeSchema

namespace TypeReader

open Json (Reader)
open Json.Reader

variable {number : List Char → Option Binary64} {depth level : Nat} {name : String}
  {type : TypeExpr} {text mid rest : List Char}

/-- A type whose text is read for it at every level at which it binds, if brackets may be nested
deep enough. -/
structure ReadsBack (number : List Char → Option Binary64) (type : TypeExpr) : Prop where
  factor : Position.arrayElement.needsParens type = false →
    ∀ depth level rest, sizeOf type ≤ depth + 1 → Stops rest →
      (factor number (read number depth) level).Reads ((type.printAt level).toList ++ rest)
        (suffixes type rest).1 (suffixes type rest).2
  term : type.connective? = some .intersection →
    ∀ depth level rest, sizeOf type ≤ depth + 1 → EndsTerm rest →
      (term number (read number depth) level).Reads ((type.printAt level).toList ++ rest) type rest
  whole : ∀ depth level rest, sizeOf type ≤ depth → Ends rest →
    (read number depth level).Reads ((type.printAt level).toList ++ rest) type rest

lemma exists_depth (h : sizeOf type ≤ depth) : ∃ depth', depth = depth' + 1 := by
  refine Nat.exists_eq_add_one_of_ne_zero ?_
  rintro rfl
  cases type <;> simp at h

/-- A type without connectives and arrows outside of brackets is a factor. -/
lemma ReadsBack.of_factor (plain : Position.arrayElement.needsParens type = false)
    (h : ∀ depth level rest, sizeOf type ≤ depth + 1 → Stops rest →
      (TypeReader.factor number (read number depth) level).Reads
        ((type.printAt level).toList ++ rest)
        (suffixes type rest).1 (suffixes type rest).2) : ReadsBack number type where
  factor := fun _ => h
  term := by
    intro e
    cases type with
    | composite connective =>
      cases e
      cases plain
    | _ => cases e
  whole := by
    intro depth level rest size ends
    obtain ⟨depth, rfl⟩ := exists_depth size
    exact reads_of_factor (h depth level rest size ends.stops) ends

lemma ReadsBack.of_atom (plain : Position.arrayElement.needsParens type = false)
    (h : ∀ depth level rest, sizeOf type ≤ depth + 1 → Stops rest →
      (atom number (read number depth) level).Reads ((type.printAt level).toList ++ rest) type
        rest) :
    ReadsBack number type :=
  .of_factor plain fun depth level rest size stops =>
    reads_factor_of_atom (h depth level rest size stops)

/-- A part of a type is a factor if it is plain or stands in parentheses. -/
lemma ReadsBack.reads_factor {position : Position} (h : ReadsBack number type) (level : Nat)
    (tight : position.needsParens type = true ∨ Position.arrayElement.needsParens type = false)
    (size : sizeOf type ≤ depth) (stops : Stops rest) :
    (TypeReader.factor number (read number depth) level).Reads
      ((type.printIn position level).toList ++ rest) (suffixes type rest).1
      (suffixes type rest).2 := by
  unfold TypeExpr.printIn Position.wrap
  split_ifs with parens
  · have r := h.whole depth level (')' :: rest) size (ends_cons (by decide))
    rw [String.toList_append, String.toList_append, List.append_assoc, List.append_assoc]
    exact reads_factor_of_atom (reads_atom_group r)
  · exact h.factor (tight.resolve_left parens) depth level rest (Nat.le_succ_of_le size) stops

lemma needsParens_intersection (other : type.connective? ≠ some .intersection) :
    (Position.member .intersection).needsParens type = true ∨
      Position.arrayElement.needsParens type = false := by
  cases type with
  | composite connective =>
    cases connective with
    | union => exact .inl rfl
    | intersection => exact absurd rfl other
  | function => exact .inl rfl
  | _ => exact .inr rfl

/-- A member of a union is a term. -/
lemma ReadsBack.reads_term (h : ReadsBack number type) (other : type.connective? ≠ some .union)
    (size : sizeOf type ≤ depth) (ends : EndsTerm rest) :
    (TypeReader.term number (read number depth) level).Reads
      ((type.printIn (.member .union) level).toList ++ rest) type rest := by
  by_cases both : type.connective? = some .intersection
  · have bare : type.printIn (.member .union) level = type.printAt level := by
      cases type with
      | composite connective =>
        cases both
        rfl
      | _ => cases both
    rw [bare]
    exact h.term both depth level rest (Nat.le_succ_of_le size) ends
  · have tight : (Position.member .union).needsParens type = true ∨
        Position.arrayElement.needsParens type = false := by
      cases type with
      | composite connective =>
        cases connective with
        | union => exact absurd rfl other
        | intersection => exact absurd rfl both
      | function => exact .inl rfl
      | _ => exact .inr rfl
    have factor : EndsFactor rest := .inr ends
    have r := h.reads_factor level tight size factor.stops
    rw [factor.suffixes] at r
    exact reads_composed_single r ends.not_ampersand

lemma readsBack_keyword {word : Keyword} : ReadsBack number (.keyword word) := by
  refine .of_atom rfl fun depth level rest _ stops => ?_
  have spelled : Text.isIdentifier word.text = true := by cases word <;> decide
  exact reads_atom_name spelled (.inl stops) (reads_nameEnd_keyword word)

lemma readsBack_literal {value : Literal}
    (known : ∀ x : Binary64, x.isFinite = true → number x.text.toList = some x)
    (finite : ∀ x, value = .number x → x.isFinite = true) : ReadsBack number (.literal value) := by
  refine .of_atom rfl fun depth level rest _ stops => ?_
  cases value with
  | boolean value =>
    have spelled : Text.isIdentifier (Literal.boolText value) = true := by cases value <;> decide
    exact reads_atom_name spelled (.inl stops) (reads_nameEnd_boolean value)
  | number x =>
    have finite := finite x rfl
    have e : (TypeExpr.literal (.number x)).printAt level = x.text := if_pos finite
    rw [e]
    exact reads_atom_number finite (known x finite) stops
  | string s => exact reads_atom_string s

lemma readsBack_array {element : TypeExpr} (h : ReadsBack number element) :
    ReadsBack number (.array element) := by
  refine .of_factor rfl fun depth level rest size stops => ?_
  have inside : sizeOf element ≤ depth := by
    rw [TypeExpr.array.sizeOf_spec] at size
    omega
  have tight : Position.arrayElement.needsParens element = true ∨
      Position.arrayElement.needsParens element = false := by
    cases Position.arrayElement.needsParens element <;> simp
  have bracket : Stops ('[' :: ']' :: rest) := stops_cons (by decide)
  have r := h.reads_factor level tight inside bracket
  have split : ((TypeExpr.array element).printAt level).toList ++ rest =
      (element.printIn .arrayElement level).toList ++ '[' :: ']' :: rest := by
    rw [TypeExpr.printAt, String.toList_append, List.append_assoc]
    rfl
  rw [split]
  exact r

lemma sizeOf_property_lt {member : PropertySignature TypeExpr}
    {members : List (PropertySignature TypeExpr)} (m : member ∈ members) :
    sizeOf member.type < sizeOf (TypeExpr.object members) := by
  have small := List.sizeOf_lt_of_mem m
  cases member
  simp only [PropertySignature.mk.sizeOf_spec, TypeExpr.object.sizeOf_spec] at small ⊢
  omega

-- the element itself may stand in parentheses, which take a level of their own
lemma sizeOf_element_lt {element : TupleMember TypeExpr} {elements : List (TupleMember TypeExpr)}
    (m : element ∈ elements) : sizeOf element.type + 1 < sizeOf (TypeExpr.tuple elements) := by
  have small := List.sizeOf_lt_of_mem m
  cases element
  simp only [TupleMember.mk.sizeOf_spec, TypeExpr.tuple.sizeOf_spec] at small ⊢
  omega

lemma sizeOf_parameter_lt {parameter : Parameter TypeExpr} {parameters : List (Parameter TypeExpr)}
    {returns : TypeExpr} (m : parameter ∈ parameters) :
    sizeOf parameter.type < sizeOf (TypeExpr.function parameters returns) := by
  have small := List.sizeOf_lt_of_mem m
  cases parameter
  simp only [Parameter.mk.sizeOf_spec, TypeExpr.function.sizeOf_spec] at small ⊢
  omega

lemma readsBack_object {members : List (PropertySignature TypeExpr)}
    (undocumented : ∀ member ∈ members, member.documentation = none)
    (h : ∀ member ∈ members, ReadsBack number member.type) :
    ReadsBack number (.object members) := by
  refine .of_atom rfl fun depth level rest size stops => ?_
  by_cases ne : members = []
  · subst ne
    have e : ((TypeExpr.object []).printAt level).toList ++ rest =
        '\x7b' :: ("\x7d".toList ++ rest) := by
      rw [TypeExpr.printAt]
      rfl
    rw [e]
    exact reads_atom_object (reads_accept.bind (reads_pure.2 ⟨rfl, rfl⟩))
  · have inside : ∀ member ∈ members, ∀ rest, Ends rest → (read number depth (level + 1)).Reads
        ((member.type.printAt (level + 1)).toList ++ rest) member.type rest := by
      intro member m rest ends
      have small := sizeOf_property_lt m
      exact (h member m).whole depth (level + 1) rest (by omega) ends
    generalize split : (TypeExpr.printProperties (level + 1) members).toList ++
      ((indentation level ++ "\x7d").toList ++ rest) = lines
    have e :
        ((TypeExpr.object members).printAt level).toList ++ rest = '\x7b' :: '\n' :: lines := by
      rw [TypeExpr.printAt_object ne, ← split]
      simp [String.toList_append]
    have enough : members.length < lines.length + 1 := by
      have many := length_le_printProperties (level + 1) members
      rw [← split, List.length_append]
      omega
    have other : ¬ "\x7d".toList <+: '\n' :: lines := by
      rintro ⟨_, e⟩
      cases e
    rw [e]
    refine reads_atom_object ((reads_accept_false other).bind (Reads.bind (reads_word.2 rfl) ?_))
    refine Reads.bind (reads_get.2 ⟨rfl, rfl⟩) (Reads.bind ?_ (reads_pure.2 ⟨rfl, rfl⟩))
    rw [← split] at enough ⊢
    exact reads_properties enough undocumented inside

/-- A comma or a closing bracket ends a type. -/
lemma ends_of_next {close : Char} (m : close ∈ ",;)]>?:".toList)
    (next : ", ".toList <+: mid ∨ mid = close :: rest) : Ends mid := by
  obtain ⟨_, rfl⟩ | rfl := next
  · exact ends_cons (by decide)
  · exact ends_cons m

/-- An element of a tuple is read with its mark; an optional one may stand in parentheses. -/
lemma ReadsBack.reads_element {element : TupleMember TypeExpr} (h : ReadsBack number element.type)
    (size : sizeOf element.type < depth) (next : ", ".toList <+: mid ∨ mid = "]".toList ++ rest) :
    (TypeReader.element (read number depth level)).Reads
      ((TypeExpr.elementText level element).toList ++ mid) element mid := by
  obtain ⟨isOptional, type⟩ := element
  dsimp only at h size
  cases isOptional with
  | true =>
    obtain ⟨depth, rfl⟩ := exists_depth (Nat.le_of_lt size)
    have tight : Position.optionalElement.needsParens type = true ∨
        Position.arrayElement.needsParens type = false := by
      cases type with
      | composite connective => cases connective <;> exact .inl rfl
      | function => exact .inl rfl
      | _ => exact .inr rfl
    have ends : Ends ("?".toList ++ mid) := ends_cons (by decide)
    have r := h.reads_factor level tight (Nat.le_of_lt_succ size) ends.stops
    rw [TypeExpr.elementText, if_pos rfl, String.toList_append, List.append_assoc]
    exact (reads_of_factor r ends).bind (reads_accept.bind (reads_pure.2 ⟨rfl, rfl⟩))
  | false =>
    have ends : Ends mid := ends_of_next (by decide) next
    have other : ¬ "?".toList <+: mid := by
      rintro ⟨_, rfl⟩
      obtain ⟨_, e⟩ | e := next <;> cases e
    exact (h.whole depth level mid (Nat.le_of_lt size) ends).bind
      ((reads_accept_false other).bind (reads_pure.2 ⟨rfl, rfl⟩))

lemma readsBack_tuple {elements : List (TupleMember TypeExpr)}
    (h : ∀ element ∈ elements, ReadsBack number element.type) :
    ReadsBack number (.tuple elements) := by
  refine .of_atom rfl fun depth level rest size stops => ?_
  have refuses : ∀ more (element : TupleMember TypeExpr) mid,
      ¬ (TypeReader.element (read number depth level)).Reads ("]".toList ++ more) element mid := by
    intro more element mid r
    obtain ⟨type, mid, r, _⟩ := reads_bind.1 r
    exact not_reads_close (by decide) r
  have inside : ∀ element ∈ elements, ∀ mid, ", ".toList <+: mid ∨ mid = "]".toList ++ rest →
      (TypeReader.element (read number depth level)).Reads
        ((TypeExpr.elementText level element).toList ++ mid) element mid := by
    intro element m mid next
    have small := sizeOf_element_lt m
    exact (h element m).reads_element (by omega) next
  have e : ((TypeExpr.tuple elements).printAt level).toList ++ rest =
      '[' :: ((String.intercalate ", " (elements.map (TypeExpr.elementText level))).toList ++
        ("]".toList ++ rest)) := by
    rw [TypeExpr.printAt_tuple]
    simp [String.toList_append]
  have last : ¬ ", ".toList <+: "]".toList ++ rest := by
    rintro ⟨_, e⟩
    cases e
  rw [e]
  exact reads_atom_tuple ((reads_bracketed refuses last inside).bind (reads_pure.2 ⟨rfl, rfl⟩))

lemma readsBack_named {arguments : List TypeExpr} (spelled : IsTypeName name)
    (h : ∀ argument ∈ arguments, ReadsBack number argument) :
    ReadsBack number (.named name arguments) := by
  refine .of_atom rfl fun depth level rest size stops => ?_
  by_cases ne : arguments = []
  · subst ne
    rw [TypeExpr.printAt]
    exact reads_atom_named spelled stops
  · have refuses : ∀ more argument mid,
        ¬ (read number depth level).Reads (">".toList ++ more) argument mid :=
      fun _ _ _ => not_reads_close (by decide)
    have inside : ∀ argument ∈ arguments, ∀ mid, ", ".toList <+: mid ∨ mid = ">".toList ++ rest →
        (read number depth level).Reads ((argument.printAt level).toList ++ mid) argument mid := by
      intro argument m mid next
      have small := List.sizeOf_lt_of_mem m
      rw [TypeExpr.named.sizeOf_spec] at size
      exact (h argument m).whole depth level mid (by omega) (ends_of_next (by decide) next)
    have e : ((TypeExpr.named name arguments).printAt level).toList ++ rest =
        name.toList ++ ("<".toList ++
          ((String.intercalate ", " (arguments.map (TypeExpr.printAt level))).toList ++
            (">".toList ++ rest))) := by
      rw [TypeExpr.printAt_named ne]
      simp only [String.toList_append, List.append_assoc]
    have last : ¬ ", ".toList <+: ">".toList ++ rest := by
      rintro ⟨_, e⟩
      cases e
    rw [e]
    refine reads_atom_name spelled.isIdentifier (.inr rfl) ?_
    rw [nameEnd_eq spelled]
    exact reads_accept.bind ((reads_bracketed refuses last inside).bind (reads_pure.2 ⟨rfl, rfl⟩))

lemma exists_intercalate (separator item : String) (items : List String) :
    ∃ more, (separator.intercalate (item :: items)).toList = item.toList ++ more := by
  cases items with
  | nil => exact ⟨[], by rw [String.intercalate_singleton, List.append_nil]⟩
  | cons =>
    rw [String.intercalate_cons_cons, String.toList_append, String.toList_append, List.append_assoc]
    exact ⟨_, rfl⟩

/-- The parameters of a function type are no type in parentheses: the first one is read as a name
that no parenthesis follows. -/
lemma not_reads_groupEnd {parameters : List (Parameter TypeExpr)}
    (spelled : ∀ parameter ∈ parameters, IsTypeName parameter.name) :
    ¬ (groupEnd (read number depth) level).Reads
      ((String.intercalate ", " (parameters.map (TypeExpr.parameterText level))).toList ++
        (")".toList ++ text)) type rest := by
  intro r
  obtain ⟨inside, mid, r, r'⟩ := reads_bind.1 r
  obtain ⟨_, _, close, _⟩ := reads_bind.1 r'
  cases parameters with
  | nil => exact not_reads_close (by decide) r
  | cons parameter parameters =>
    obtain ⟨more, e⟩ := exists_intercalate ", " (TypeExpr.parameterText level parameter)
      (parameters.map (TypeExpr.parameterText level))
    obtain ⟨name, isOptional, type⟩ := parameter
    obtain ⟨c, behind, mark, e'⟩ : ∃ c behind, (c = '?' ∨ c = ':') ∧
        (TypeExpr.parameterText level ⟨name, isOptional, type⟩).toList =
          name.toList ++ c :: behind := by
      rw [TypeExpr.parameterText]
      simp only [String.toList_append, List.append_assoc]
      cases isOptional with
      | true => exact ⟨'?', _, .inl rfl, rfl⟩
      | false => exact ⟨':', _, .inr rfl, rfl⟩
    rw [List.map_cons, e, e', List.append_assoc, List.append_assoc] at r
    have ends : Ends (c :: behind ++ (more ++ (")".toList ++ text))) := by
      obtain rfl | rfl := mark <;> exact ends_cons (by decide)
    cases depth with
    | zero => exact not_reads_fail r
    | succ depth =>
      have named : IsTypeName name := spelled _ List.mem_cons_self
      obtain ⟨_, rfl⟩ := r.unique (reads_of_atom (reads_atom_named named ends.stops) ends)
      cases reads_word.1 close
      obtain e | e := mark <;> cases e

lemma readsBack_function {parameters : List (Parameter TypeExpr)} {returns : TypeExpr}
    (spelled : ∀ parameter ∈ parameters, IsTypeName parameter.name)
    (h : ∀ parameter ∈ parameters, ReadsBack number parameter.type)
    (h' : ReadsBack number returns) : ReadsBack number (.function parameters returns) where
  factor := nofun
  term := nofun
  whole := by
    intro depth level rest size ends
    obtain ⟨depth, rfl⟩ := exists_depth size
    -- No parameter begins with the parenthesis that ends the list of them.
    have refuses : ∀ more (parameter : Parameter TypeExpr) mid,
        ¬ (signature identifier (read number depth level)).Reads (")".toList ++ more) parameter
          mid := by
      intro more parameter mid r
      have refused : signature identifier (read number depth level) (")".toList ++ more) =
        .error .malformed := rfl
      cases refused.symm.trans r
    have e : ((TypeExpr.function parameters returns).printAt level).toList ++ rest =
        '(' :: ((String.intercalate ", " (parameters.map (TypeExpr.parameterText level))).toList ++
          (")".toList ++ (" => ".toList ++ ((returns.printAt level).toList ++ rest)))) := by
      rw [TypeExpr.printAt_function]
      simp [String.toList_append]
    have inside : ∀ parameter ∈ parameters, ∀ mid,
        ", ".toList <+: mid ∨
          mid = ")".toList ++ (" => ".toList ++ ((returns.printAt level).toList ++ rest)) →
        (signature identifier (read number depth level)).Reads
          ((TypeExpr.parameterText level parameter).toList ++ mid) parameter mid := by
      intro parameter m mid next
      have small : sizeOf parameter.type < sizeOf (TypeExpr.function parameters returns) :=
        sizeOf_parameter_lt m
      have typed := (h parameter m).whole depth level mid (by omega) (ends_of_next (by decide) next)
      have named := (spelled parameter m).isIdentifier
      rw [TypeExpr.parameterText, String.toList_append, List.append_assoc]
      exact reads_signature (fun _ stops => reads_identifier named (.inl stops)) typed
    have last : ¬ ", ".toList <+:
        ")".toList ++ (" => ".toList ++ ((returns.printAt level).toList ++ rest)) := by
      rintro ⟨_, e⟩
      cases e
    have returned :
        (read number depth level).Reads ((returns.printAt level).toList ++ rest) returns rest := by
      rw [TypeExpr.function.sizeOf_spec] at size
      exact h'.whole depth level rest (by omega) ends
    have arrow :
        (functionEnd (read number depth) level).Reads _ (.function parameters returns) rest :=
      (reads_bracketed refuses last inside).bind
        (Reads.bind (reads_word.2 rfl) (returned.bind (reads_pure.2 ⟨rfl, rfl⟩)))
    rw [e]
    exact reads_of_atom (reads_atom_function arrow fun _ _ => not_reads_groupEnd spelled) ends

lemma readsBack_composite {connective : Connective} {members : List TypeExpr}
    (many : 2 ≤ members.length)
    (other : ∀ member ∈ members, member.connective? ≠ some connective)
    (h : ∀ member ∈ members, ReadsBack number member) :
    ReadsBack number (.composite connective members) := by
  have small : ∀ depth, sizeOf (TypeExpr.composite connective members) ≤ depth + 1 →
      ∀ member ∈ members, sizeOf member ≤ depth := by
    intro depth size member m
    have small := List.sizeOf_lt_of_mem m
    rw [TypeExpr.composite.sizeOf_spec] at size
    omega
  have e (level : Nat) : (TypeExpr.composite connective members).printAt level =
      connective.separator.intercalate
        (members.map (TypeExpr.printIn (.member connective) level)) := by
    rw [TypeExpr.printAt, TypeExpr.printMembers_eq]
  cases connective with
  | union =>
    refine ⟨fun e => (by cases e), fun e => (by cases e), ?_⟩
    intro depth level rest size ends
    obtain ⟨depth, rfl⟩ := exists_depth size
    rw [e]
    refine reads_composed many ends.not_space fun member m mid next => ?_
    have ends : EndsTerm mid := by
      obtain next | rfl := next
      · exact .inl next
      · exact .inr ends
    exact (h member m).reads_term (other member m) (small depth size member m) ends
  | intersection =>
    have joined : ∀ depth level rest,
        sizeOf (TypeExpr.composite .intersection members) ≤ depth + 1 →
        EndsTerm rest → (TypeReader.term number (read number depth) level).Reads
          (((TypeExpr.composite .intersection members).printAt level).toList ++ rest)
          (.composite .intersection members) rest := by
      intro depth level rest size ends
      rw [e]
      refine reads_composed many ends.not_ampersand fun member m mid next => ?_
      have factor : EndsFactor mid := by
        obtain next | rfl := next
        · exact .inl next
        · exact .inr ends
      have r := (h member m).reads_factor level (needsParens_intersection (other member m))
        (small depth size member m) factor.stops
      rw [factor.suffixes] at r
      exact r
    refine ⟨fun e => (by cases e), fun _ => joined, ?_⟩
    intro depth level rest size ends
    obtain ⟨depth, rfl⟩ := exists_depth size
    exact reads_composed_single (joined depth level rest size (.inr ends)) ends.not_space

/-- Canonical types are read back. -/
theorem readsBack (known : ∀ x : Binary64, x.isFinite = true → number x.text.toList = some x)
    (canonical : type.Canonical) : ReadsBack number type := by
  induction canonical with
  | keyword => exact readsBack_keyword
  | literal finite => exact readsBack_literal known finite
  | object undocumented _ ih => exact readsBack_object undocumented ih
  | composite many other _ ih => exact readsBack_composite many other ih
  | array _ ih => exact readsBack_array ih
  | tuple _ ih => exact readsBack_tuple ih
  | named spelled _ ih => exact readsBack_named spelled ih
  | function spelled _ _ ih ihr => exact readsBack_function spelled ih ihr

end TypeReader

/-! ### Unambiguity -/

/-- There is a way to read numbers, for no two finite ones are written alike. -/
lemma Binary64.exists_reader :
    ∃ number : List Char → Option Binary64,
      ∀ x, x.isFinite = true → number x.text.toList = some x := by
  classical
  refine ⟨fun cs =>
    if h : ∃ x, x.isFinite = true ∧ x.text.toList = cs then some h.choose else none, ?_⟩
  intro x finite
  have h : ∃ y : Binary64, y.isFinite = true ∧ y.text.toList = x.text.toList := ⟨x, finite, rfl⟩
  obtain ⟨finite', e⟩ := h.choose_spec
  calc (if h : ∃ y : Binary64, y.isFinite = true ∧ y.text.toList = x.text.toList then
      some h.choose else none)
    _ = some h.choose := dif_pos h
    _ = some x := congrArg some (Binary64.text_injective finite' finite (String.toList_inj.1 e))

/-- Canonical types are told by their texts. -/
theorem TypeExpr.Canonical.print_injective {a b : TypeExpr} (ha : a.Canonical) (hb : b.Canonical)
    (h : a.print = b.print) : a = b := by
  obtain ⟨number, known⟩ := Binary64.exists_reader
  have ra := (TypeReader.readsBack known ha).whole (max (sizeOf a) (sizeOf b)) 0 []
    (Nat.le_max_left _ _) nofun
  have rb := (TypeReader.readsBack known hb).whole (max (sizeOf a) (sizeOf b)) 0 []
    (Nat.le_max_right _ _) nofun
  have same : a.printAt 0 = b.printAt 0 := h
  rw [same] at ra
  exact (ra.unique rb).1

/-- Printing is unambiguous: readable types of the same text are equal when they are spliced. -/
theorem TypeExpr.spliced_eq_of_print {a b : TypeExpr} (ha : a.Readable) (hb : b.Readable)
    (h : a.print = b.print) : a.spliced = b.spliced := by
  have same : a.spliced.print = b.spliced.print := by
    calc a.spliced.print
      _ = a.print := ha.printAt_spliced 0
      _ = b.print := h
      _ = b.spliced.print := (hb.printAt_spliced 0).symm
  exact ha.canonical_spliced.print_injective hb.canonical_spliced same

/-- A union and the same union spliced into the one around it have one text. -/
theorem TypeExpr.spliced_eq_of_print_nested :
    let array := TypeExpr.array (.literal (.number ⟨0x3ff8000000000000⟩))
    let callback := TypeExpr.function [⟨"x", true, .literal (.string "a")⟩] (.keyword .void)
    let nested := TypeExpr.object [⟨"a b", false,
      .composite .union [.named "T" [], .composite .union [array, callback]], none⟩]
    let flat := TypeExpr.object [⟨"a b", false,
      .composite .union [.named "T" [], array, callback], none⟩]
    nested.Readable ∧ flat.Readable ∧ nested.print = flat.print ∧
      nested.spliced = flat.spliced := by
  intro array callback nested flat
  have named (name : String) (h : Text.isIdentifier name = true ∧ Keyword.ofText? name = none ∧
      name ≠ "true" ∧ name ≠ "false") : IsTypeName name := ⟨h.1, h.2.1, h.2.2.1, h.2.2.2⟩
  have ra : array.Readable := .array (.literal (by rintro x ⟨⟩; decide))
  have rc : callback.Readable :=
    .function (List.forall_mem_singleton.2 (named "x" (by decide)))
      (List.forall_mem_singleton.2 (.literal nofun)) .keyword
  have rt : (TypeExpr.named "T" []).Readable := .named (named "T" (by decide)) nofun
  have inner : (TypeExpr.composite .union [array, callback]).Readable :=
    .composite (by decide) (fun _ _ => trivial)
      (List.forall_mem_cons.2 ⟨ra, List.forall_mem_singleton.2 rc⟩)
  have rn : nested.Readable := by
    refine .object (List.forall_mem_singleton.2 rfl) (List.forall_mem_singleton.2 ?_)
    refine .composite (by decide) (fun _ _ => trivial) ?_
    exact List.forall_mem_cons.2 ⟨rt, List.forall_mem_singleton.2 inner⟩
  have rf : flat.Readable := by
    refine .object (List.forall_mem_singleton.2 rfl) (List.forall_mem_singleton.2 ?_)
    refine .composite (by decide) (fun _ _ => trivial) ?_
    exact List.forall_mem_cons.2 ⟨rt, List.forall_mem_cons.2 ⟨ra, List.forall_mem_singleton.2 rc⟩⟩
  have same : nested.print = flat.print := by decide +kernel
  exact ⟨rn, rf, same, TypeExpr.spliced_eq_of_print rn rf same⟩

end TypeSchema
