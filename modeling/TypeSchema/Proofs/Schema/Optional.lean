import TypeSchema.Proofs.Export.Body
import TypeSchema.Proofs.Import.Rules

/-!
# Optional members taken apart and put together

What `toOptional` makes, `optionalType?` takes apart, as long as the type does not admit
`undefined`. The converse has the same limit: a union of a type that admits `undefined` already and
a further `undefined` is taken apart too, though `toOptional` never makes it and gives the type
alone back.
-/

namespace TypeSchema.Schema

variable {node type union : Schema}

/-- The node is the union of a type and `undefined`, whatever the union and its `undefined` carry
besides. -/
def IsOptionalOf (node type : Schema) : Prop :=
  ∃ info info', node = composite .union [type, primitive .undefined info] info'

/-- No node is the union of itself and `undefined`. -/
lemma not_isOptionalOf_self : ¬ node.IsOptionalOf node := by
  intro h
  have smaller := sizeOf_optionalType? (optionalType?_eq_some.2 h)
  omega

/-- Optional members admit `undefined`. -/
lemma admitsUndefined_toOptional : node.toOptional.admitsUndefined = true := by
  unfold toOptional
  split
  case isTrue a => exact a
  case isFalse => simp [admitsUndefined, anyAdmitsUndefined, undefinedNode]

/-- A type is put together with `undefined` exactly if it does not admit it already. -/
lemma isOptionalOf_toOptional : node.toOptional.IsOptionalOf node ↔ node.admitsUndefined = false := by
  unfold toOptional
  cases a : node.admitsUndefined with
  | true => exact iff_of_false not_isOptionalOf_self nofun
  | false => exact iff_of_true ⟨{}, {}, rfl⟩ rfl

/-- A member that is written as optional is a union with `undefined`. -/
lemma isOptionalOf_of_splitOptional (h : union.splitOptional = (type, true)) :
    union.IsOptionalOf type := by
  unfold splitOptional at h
  split at h
  case h_1 e =>
    cases h
    exact optionalType?_eq_some.1 e
  case h_2 => cases h

/--
Making a member optional a second time changes nothing, and it admits `undefined` after the first.
A union is taken apart exactly if it is that of a type and `undefined`. Taking apart undoes putting
together, and putting together undoes taking apart but for what the union and its `undefined` carry,
exactly if the type does not admit `undefined` of itself; so it is with a member that is written as
optional and read at an optional place.
-/
theorem toOptional_inverse_iff (node : Schema) :
    node.toOptional.toOptional = node.toOptional ∧ node.toOptional.admitsUndefined = true ∧
      (node.toOptional.optionalType? = some node ↔ node.admitsUndefined = false) ∧
      (∀ union : Schema, union.optionalType? = some node ↔ union.IsOptionalOf node) ∧
      (node.toOptional.IsOptionalOf node ↔ node.admitsUndefined = false) ∧
      ∀ union : Schema, union.splitOptional = (node, true) → union.IsOptionalOf node ∧
        ((node.atPlace true).IsOptionalOf node ↔ node.admitsUndefined = false) := by
  refine ⟨if_pos admitsUndefined_toOptional, admitsUndefined_toOptional, ?_,
    fun union => optionalType?_eq_some, isOptionalOf_toOptional, fun union h => ?_⟩
  · rw [optionalType?_eq_some]
    exact isOptionalOf_toOptional
  · exact ⟨isOptionalOf_of_splitOptional h, isOptionalOf_toOptional⟩

/-- A union of a type that admits `undefined` and `undefined` itself does not come back. -/
example :
    let type := composite .union [primitive .string {}, undefinedNode] {}
    (composite .union [type, undefinedNode] {}).optionalType? = some type ∧
      type.toOptional = type := by
  exact ⟨rfl, rfl⟩

end TypeSchema.Schema
