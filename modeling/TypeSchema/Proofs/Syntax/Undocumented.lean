import TypeSchema.Proofs.Export.Cosmetic
import TypeSchema.Proofs.Syntax.Comments
import TypeSchema.Proofs.Syntax.Spliced

/-!
# Documentation and the printed type

Documentation is printed as comments and has no other part in the text, so a printed type without
its comments is the type that is printed without documentation. This takes that no documentation
holds the end of a comment: nothing is escaped in a comment, so what stands after such an end is
read as part of the type.
-/

namespace TypeSchema

open Text

namespace TypeExpr

/-- The expressions whose references and parameters have identifiers as names, and whose
documentation has a property. -/
inductive Spelled (P : String → Prop) : TypeExpr → Prop
  | keyword {word} : Spelled P (.keyword word)
  | literal {value} : Spelled P (.literal value)
  | object {members} :
    (∀ member ∈ members, ∀ text ∈ member.documentation, P text) →
    (∀ member ∈ members, Spelled P member.type) →
    Spelled P (.object members)
  | composite {connective members} :
    (∀ member ∈ members, Spelled P member) →
    Spelled P (.composite connective members)
  | array {element} :
    Spelled P element →
    Spelled P (.array element)
  | tuple {members} :
    (∀ member ∈ members, Spelled P member.type) →
    Spelled P (.tuple members)
  | named {name arguments} :
    isIdentifier name = true →
    (∀ argument ∈ arguments, Spelled P argument) →
    Spelled P (.named name arguments)
  | function {parameters returns} :
    (∀ parameter ∈ parameters, isIdentifier parameter.name = true) →
    (∀ parameter ∈ parameters, Spelled P parameter.type) →
    Spelled P returns →
    Spelled P (.function parameters returns)

/-! ## Texts that show the same -/

/-- Read as code, both texts show the same, and the second one has no comments. -/
def SameCode (text text' : String) : Prop :=
  ∃ parts parts', Scans text.toList parts ∧ Scans text'.toList parts' ∧
    parts.filter isVisible = parts'.filter isVisible ∧ ∀ part ∈ parts', part.1 ≠ .comment

namespace SameCode

variable {a a' b b' : String}

lemma append (h : SameCode a a') (h' : SameCode b b') : SameCode (a ++ b) (a' ++ b') := by
  obtain ⟨p, p', s, s', e, n⟩ := h
  obtain ⟨q, q', t, t', f, m⟩ := h'
  refine ⟨p ++ q, p' ++ q', ?_, ?_, ?_, ?_⟩
  · rw [String.toList_append]
    exact s.append t
  · rw [String.toList_append]
    exact s'.append t'
  · rw [List.filter_append, List.filter_append, e, f]
  · exact List.forall_mem_append.2 ⟨n, m⟩

/-- A text without comments shows the same as itself. -/
lemma of_scans {parts : List (TextPart × Char)} (h : Scans a.toList parts)
    (n : ∀ part ∈ parts, part.1 ≠ .comment) : SameCode a a := ⟨parts, parts, h, h, rfl, n⟩

lemma plain (h : ∀ c ∈ a.toList, isPlain c = true) : SameCode a a := by
  refine of_scans (scans_plain h) fun part m => ?_
  obtain ⟨c, -, rfl⟩ := List.mem_map.1 m
  exact nofun

lemma quoted (s : String) : SameCode (Text.quoted s) (Text.quoted s) := by
  refine of_scans (scans_quoted s) fun part m => ?_
  obtain ⟨c, -, rfl⟩ := List.mem_map.1 m
  exact nofun

/-- A given text without quotes and slashes. -/
lemma fixed (text : String) (h : text.toList.all isPlain = true) :
    SameCode text text := plain (List.all_eq_true.1 h)

/-- Texts with a separator between them. -/
lemma intercalate {separator : String} (h : SameCode separator separator) {as bs : List String}
    (all : List.Forall₂ SameCode as bs) :
    SameCode (separator.intercalate as) (separator.intercalate bs) := by
  induction all with
  | nil => exact fixed "" rfl
  | cons first others ih =>
    cases others with
    | nil => simpa using first
    | cons =>
      rw [String.intercalate_cons_cons, String.intercalate_cons_cons]
      exact (first.append h).append ih

end SameCode

/-! ## Printed parts -/

/-- Characters of a kind are plain if no quote and no slash is of the kind. -/
lemma isPlain_of_kind {p : Char → Bool} (special : ['"', '\x27', '\x60', '/'].any p = false)
    {c : Char} (h : p c = true) : isPlain c = true := by
  have other : c ∉ ['"', '\x27', '\x60', '/'] := fun m =>
    List.any_eq_false.1 special c m h
  simpa [isPlain, isQuote, and_assoc] using other

lemma sameCode_identifier {name : String} (h : isIdentifier name = true) : SameCode name name := by
  obtain ⟨_, _, _, _, all⟩ := TypeReader.exists_cons_of_isIdentifier h
  exact .plain fun c m => isPlain_of_kind rfl (all c m)

lemma sameCode_keyword (word : Keyword) : SameCode word.text word.text := by
  cases word <;> exact .fixed _ rfl

lemma sameCode_typeText (value : Literal) : SameCode value.typeText value.typeText := by
  cases value with
  | boolean value => cases value <;> exact .fixed _ rfl
  | string s => exact .quoted s
  | number x =>
    have e : (Literal.number x).typeText = if x.isFinite then x.text else "number" := rfl
    rw [e]
    split_ifs with finite
    · obtain ⟨_, _, _, _, all⟩ := TypeReader.isNumeral_text finite
      exact .plain fun c m => isPlain_of_kind rfl (all c m)
    · exact .fixed "number" rfl

lemma sameCode_propertyNameText (name : String) :
    SameCode (propertyNameText name) (propertyNameText name) := by
  unfold propertyNameText
  split_ifs with h
  · exact sameCode_identifier h
  · exact .quoted name

lemma sameCode_optionalMark (isOptional : Bool) :
    SameCode (optionalMark isOptional) (optionalMark isOptional) := by
  cases isOptional <;> exact .fixed _ rfl

lemma sameCode_indentation (level : Nat) : SameCode (indentation level) (indentation level) := by
  refine .plain fun c m => ?_
  rw [toList_indentation] at m
  rw [(List.mem_replicate.1 m).2]
  rfl

/-- Documentation shows nothing. -/
lemma sameCode_documentation (level : Nat) : ∀ documentation : Option String,
    (∀ text ∈ documentation, ¬ ClosesComment text.toList) →
    SameCode
      (match documentation with
        | some text => documentationText level text
        | none => "") ""
  | none, _ => .fixed "" rfl
  | some text, h => by
    obtain ⟨parts, s, e⟩ := scans_documentationText level (h text rfl)
    exact ⟨parts, [], s, .nil, e, nofun⟩

variable {type : TypeExpr} {position : Position} {level : Nat}

lemma needsParens_undocumented :
    position.needsParens type.undocumented = position.needsParens type := by
  cases type with
  | composite connective => cases connective <;> rfl
  | _ => rfl

lemma SameCode.printIn (h : SameCode (type.printAt level) (type.undocumented.printAt level)) :
    SameCode (type.printIn position level) (type.undocumented.printIn position level) := by
  unfold TypeExpr.printIn Position.wrap
  rw [needsParens_undocumented]
  split_ifs
  · exact ((SameCode.fixed "(" rfl).append h).append (.fixed ")" rfl)
  · exact h

/-! ## Expressions without documentation -/

lemma undocumentedElements_eq (members : List (TupleMember TypeExpr)) :
    undocumentedElements members = members.map fun member =>
      { member with type := member.type.undocumented } := by
  induction members with
  | nil => rfl
  | cons member members ih => rw [undocumentedElements, ih]; rfl

lemma undocumentedParameters_eq (parameters : List (Parameter TypeExpr)) :
    undocumentedParameters parameters = parameters.map fun parameter =>
      { parameter with type := parameter.type.undocumented } := by
  induction parameters with
  | nil => rfl
  | cons parameter parameters ih => rw [undocumentedParameters, ih]; rfl

lemma sameCode_propertyText {member : PropertySignature TypeExpr}
    (documented : ∀ text ∈ member.documentation, ¬ ClosesComment text.toList)
    (h : SameCode (member.type.printAt level) (member.type.undocumented.printAt level)) :
    SameCode (propertyText level member) (propertyText level
      ⟨member.name, member.isOptional, member.type.undocumented, none⟩) := by
  have colon := SameCode.fixed ": " rfl
  have semicolon := SameCode.fixed ";\n" rfl
  have start := (sameCode_documentation level _ documented).append (sameCode_indentation level)
  have name := start.append (sameCode_propertyNameText member.name)
  have marked := name.append (sameCode_optionalMark member.isOptional)
  exact ((marked.append colon).append h).append semicolon

lemma sameCode_printProperties {members : List (PropertySignature TypeExpr)}
    (documented : ∀ member ∈ members, ∀ text ∈ member.documentation, ¬ ClosesComment text.toList)
    (h : ∀ member ∈ members,
      SameCode (member.type.printAt level) (member.type.undocumented.printAt level)) :
    SameCode (printProperties level members)
      (printProperties level (undocumentedMembers members)) := by
  induction members with
  | nil => exact .fixed "" rfl
  | cons member members ih =>
    obtain ⟨comment, comments⟩ := List.forall_mem_cons.1 documented
    obtain ⟨type, types⟩ := List.forall_mem_cons.1 h
    rw [undocumentedMembers, printProperties_cons, printProperties_cons]
    exact (sameCode_propertyText comment type).append (ih comments types)

/-- Texts of parts, joined. -/
lemma SameCode.intercalate_map {α : Type} {separator : String} {f g : α → String} {as : List α}
    (h : SameCode separator separator) (all : ∀ a ∈ as, SameCode (f a) (g a)) :
    SameCode (separator.intercalate (as.map f)) (separator.intercalate (as.map g)) := by
  refine h.intercalate ?_
  rw [List.forall₂_map_left_iff, List.forall₂_map_right_iff, List.forall₂_same]
  exact all

lemma sameCode_elementText {element : TupleMember TypeExpr}
    (h : SameCode (element.type.printAt level) (element.type.undocumented.printAt level)) :
    SameCode (elementText level element)
      (elementText level { element with type := element.type.undocumented }) := by
  unfold elementText
  split_ifs
  · exact h.printIn.append (.fixed "?" rfl)
  · exact h

lemma sameCode_parameterText {parameter : Parameter TypeExpr}
    (identifier : isIdentifier parameter.name = true)
    (h : SameCode (parameter.type.printAt level) (parameter.type.undocumented.printAt level)) :
    SameCode (parameterText level parameter)
      (parameterText level { parameter with type := parameter.type.undocumented }) := by
  have colon := SameCode.fixed ": " rfl
  have name := (sameCode_identifier identifier).append (sameCode_optionalMark parameter.isOptional)
  exact (name.append colon).append h

/-- An expression shows the same with and without documentation. -/
theorem Spelled.sameCode (spelled : type.Spelled fun text => ¬ ClosesComment text.toList)
    (level : Nat) : SameCode (type.printAt level) (type.undocumented.printAt level) := by
  have comma := SameCode.fixed ", " rfl
  induction spelled generalizing level with
  | @keyword word => exact sameCode_keyword word
  | @literal value => exact sameCode_typeText value
  | @object members documented _ ih =>
    cases members with
    | nil => exact .fixed "\x7b\x7d" rfl
    | cons member members =>
      have ne : undocumentedMembers (member :: members) ≠ [] := List.cons_ne_nil _ _
      have opening := SameCode.fixed "\x7b\n" rfl
      have closing := SameCode.fixed "\x7d" rfl
      have properties := sameCode_printProperties documented fun member m => ih member m (level + 1)
      rw [undocumented, printAt_object (List.cons_ne_nil _ _), printAt_object ne]
      exact ((opening.append properties).append (sameCode_indentation level)).append closing
  | @composite connective members _ ih =>
    have separator : SameCode connective.separator connective.separator := by
      cases connective <;> exact .fixed _ rfl
    rw [undocumented, undocumentedList_eq, printAt, printAt, printMembers_eq, printMembers_eq,
      List.map_map]
    exact separator.intercalate_map fun member m => (ih member m level).printIn
  | array _ ih => exact (ih level).printIn.append (.fixed "[]" rfl)
  | @tuple members _ ih =>
    have opening := SameCode.fixed "[" rfl
    have closing := SameCode.fixed "]" rfl
    rw [undocumented, undocumentedElements_eq, printAt_tuple, printAt_tuple, List.map_map]
    exact (opening.append (comma.intercalate_map fun member m =>
      sameCode_elementText (ih member m level))).append closing
  | @named name arguments identifier _ ih =>
    cases arguments with
    | nil => exact sameCode_identifier identifier
    | cons argument arguments =>
      have ne : (argument :: arguments).map undocumented ≠ [] := List.cons_ne_nil _ _
      have opening := SameCode.fixed "<" rfl
      have closing := SameCode.fixed ">" rfl
      rw [undocumented, undocumentedList_eq, printAt_named (List.cons_ne_nil _ _), printAt_named ne,
        List.map_map]
      exact (((sameCode_identifier identifier).append opening).append
        (comma.intercalate_map fun member m => ih member m level)).append closing
  | @function parameters returns identifiers _ _ ih ihr =>
    have opening := SameCode.fixed "(" rfl
    have arrow := SameCode.fixed ") => " rfl
    rw [undocumented, undocumentedParameters_eq, printAt_function, printAt_function, List.map_map]
    exact ((opening.append (comma.intercalate_map fun parameter m =>
      sameCode_parameterText (identifiers parameter m) (ih parameter m level))).append arrow).append
      (ihr level)

/-- What a printed type shows does not depend on its documentation, if no documentation holds the
end of a comment: up to white space, its text without comments is that of the type without
documentation, in which nothing is a comment. -/
theorem visible_print_undocumented
    (spelled : type.Spelled fun text => ¬ ClosesComment text.toList) :
    visible type.print = visible type.undocumented.print ∧
      withoutComments type.undocumented.print = type.undocumented.print := by
  obtain ⟨parts, parts', s, s', e, none⟩ := spelled.sameCode 0
  constructor
  · unfold visible TypeExpr.print
    rw [s.readParts_eq, s'.readParts_eq, e]
  · refine withoutComments_eq ?_
    unfold TypeExpr.print
    rw [s'.readParts_eq]
    exact none

/-- A type whose texts hold marks of comments and quotes. -/
def remarks : TypeExpr :=
  .object [⟨"*/", true, .literal (.string "/* \" */"), some "/* \" it's\n\n/ *"⟩,
    ⟨"next", false, .array (.function [⟨"x", false, .object
      [⟨"y", false, .named "T" [.keyword .null], some "// \x60 *"⟩]⟩] (.keyword .void)), none⟩]

/-- The marks in documentation and in string literals do not show in the type. -/
theorem visible_print_undocumented_remarks :
    remarks.Spelled (fun text => ¬ ClosesComment text.toList) ∧
      visible remarks.print = visible remarks.undocumented.print ∧
      withoutComments remarks.undocumented.print = remarks.undocumented.print := by
  have text (s : String) (h : ¬ ClosesComment s.toList) :
      ∀ text ∈ some s, ¬ ClosesComment text.toList := by
    rintro _ ⟨⟩
    exact h
  have reference : (named "T" [.keyword .null]).Spelled fun text => ¬ ClosesComment text.toList :=
    .named rfl (List.forall_mem_singleton.2 .keyword)
  have inner : (object [⟨"y", false, .named "T" [.keyword .null], some "// \x60 *"⟩]).Spelled
      fun text => ¬ ClosesComment text.toList :=
    .object (List.forall_mem_singleton.2 (text _ (by decide +kernel)))
      (List.forall_mem_singleton.2 reference)
  have spelled : remarks.Spelled fun text => ¬ ClosesComment text.toList := by
    refine .object ?documented ?types
    case documented =>
      exact List.forall_mem_cons.2
        ⟨text _ (by decide +kernel), List.forall_mem_singleton.2 nofun⟩
    case types =>
      refine List.forall_mem_cons.2 ⟨.literal, List.forall_mem_singleton.2 (.array ?_)⟩
      exact .function (List.forall_mem_singleton.2 rfl)
        (List.forall_mem_singleton.2 inner) .keyword
  exact ⟨spelled, visible_print_undocumented spelled⟩

/-- Documentation that holds the end of a comment can add a property. -/
example :
    let documented (text : Option String) := object [⟨"a", false, .keyword .string, text⟩]
    let two := object [⟨"b", false, .keyword .number, none⟩, ⟨"a", false, .keyword .string, none⟩]
    visible (documented (some "x */ b: number; /* y")).print = visible two.print ∧
      visible two.print ≠ visible (documented none).print := by
  decide +kernel

end TypeExpr

end TypeSchema
