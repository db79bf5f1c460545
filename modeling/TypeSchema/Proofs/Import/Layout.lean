import TypeSchema.Export.Walk
import TypeSchema.Graph.Queries
import TypeSchema.Lowering.Walk
import TypeSchema.Proofs.Import.Run
import TypeSchema.Proofs.Lowering.Store

/-!
# Importing from a store

The first rule that applies to a type of a store is known from what its handle stands for.
-/

namespace TypeSchema

/-- The rule for what a handle stands for, unless it is a leaf. -/
def TypeData.rule? : TypeData → Option ImportRule
  | .composite .union _ => some .union
  | .composite .intersection _ => some .intersection
  | .array _ => some .array
  | .tuple _ => some .tuple
  | .object [] [_] => some .record
  | .object _ _ => some .object
  | .callable (_ :: _) => some .function
  | _ => none

/-- Without index signatures a type with properties is an object, even if it has none. -/
@[simp] lemma TypeData.rule?_object {properties : List PropertyInfo} :
    (TypeData.object properties []).rule? = some .object := by
  cases properties <;> rfl

variable {store : TypeStore} {id : TypeId} {data : TypeData} {rule : ImportRule}

namespace TypeStore

lemma checker_flags (h : store.lookup id = some data) : store.checker.flags id = data.flags := by
  simp [checker, flags, h]

lemma flags_object : (TypeFlags.ofList [.object]).hasLiteral = false ∧
    (TypeFlags.ofList [.object]).primitive? = none ∧
    (TypeFlags.ofList [.object]).has .object = true ∧
    (TypeFlags.ofList [.object]).has .union = false ∧
    (TypeFlags.ofList [.object]).has .intersection = false := by decide

lemma flags_union : (TypeFlags.ofList [.union]).hasLiteral = false ∧
    (TypeFlags.ofList [.union]).primitive? = none ∧
    (TypeFlags.ofList [.union]).has .object = false ∧
    (TypeFlags.ofList [.union]).has .union = true := by decide

lemma flags_intersection : (TypeFlags.ofList [.intersection]).hasLiteral = false ∧
    (TypeFlags.ofList [.intersection]).primitive? = none ∧
    (TypeFlags.ofList [.intersection]).has .object = false ∧
    (TypeFlags.ofList [.intersection]).has .union = false ∧
    (TypeFlags.ofList [.intersection]).has .intersection = true := by decide

/-- The rule for what a handle stands for is the first that applies to it. -/
theorem ruleFor?_checker (h : store.lookup id = some data) (r : data.rule? = some rule) :
    store.checker.ruleFor? id = some rule := by
  have f : store.flags id = data.flags := checker_flags h
  cases data with
  | intrinsic => cases r
  | literal => cases r
  | composite connective members =>
    cases connective with
    | union =>
      cases r
      simp [Checker.ruleFor?, ImportRule.all, ImportRule.applies, checker, TypeData.flags,
        tupleElements?, arrayElement?, h, f, flags_union]
    | intersection =>
      cases r
      simp [Checker.ruleFor?, ImportRule.all, ImportRule.applies, checker, TypeData.flags,
        tupleElements?, arrayElement?, h, f, flags_intersection]
  | array element =>
    cases r
    simp [Checker.ruleFor?, ImportRule.all, ImportRule.applies, checker, TypeData.flags,
      callSignatures, tupleElements?, arrayElement?, h, f, flags_object]
  | tuple elements =>
    cases r
    simp [Checker.ruleFor?, ImportRule.all, ImportRule.applies, checker, TypeData.flags,
      callSignatures, tupleElements?, h, f, flags_object]
  | object shape indexes =>
    have structural : store.checker.ruleFor? id =
        if shape.isEmpty && indexes.length == 1 then some .record else some .object := by
      simp only [Checker.ruleFor?, ImportRule.all, ImportRule.applies, checker, TypeData.flags,
        callSignatures, tupleElements?, arrayElement?, properties, indexSignatures, h, f,
        flags_object, List.find?_cons, Bool.true_and]
      cases shape.isEmpty && indexes.length == 1 <;> rfl
    rw [structural, ← r]
    cases shape with
    | nil =>
      cases indexes with
      | nil => rfl
      | cons index rest =>
        cases rest with
        | nil => rfl
        | cons => simp [TypeData.rule?]
    | cons => rfl
  | callable signatures =>
    cases signatures with
    | nil => cases r
    | cons signature overloads =>
      cases r
      simp [Checker.ruleFor?, ImportRule.all, ImportRule.applies, checker, TypeData.flags,
        callSignatures, h, f, flags_object]
  | pending => cases r

end TypeStore

/-- A type to which another rule applies first is no leaf. -/
lemma Importer.importLeaf?_of_ruleFor? {importer : Importer}
    (r : importer.checker.ruleFor? id = some rule) (n : rule.isLeaf = false) :
    importer.importLeaf? id (importer.checker.flags id) = none := by
  refine importLeaf?_eq_none.2 fun leaf isLeaf => ?_
  cases a : leaf.applies importer.checker id with
  | false => rfl
  | true =>
    unfold Checker.ruleFor? at r
    cases leaf with
    | literal =>
      rw [ImportRule.all, List.find?_cons, a] at r
      cases r
      cases n
    | primitive =>
      cases b : ImportRule.literal.applies importer.checker id with
      | true =>
        rw [ImportRule.all, List.find?_cons, b] at r
        cases r
        cases n
      | false =>
        rw [ImportRule.all, List.find?_cons, b, List.find?_cons, a] at r
        cases r
        cases n
    | _ => cases isLeaf

/-- A handle that stands for a literal is imported as this literal. -/
lemma Importer.leafNode_literal {importer : Importer} {value : Literal}
    (c : importer.checker = store.checker) (h : store.lookup id = some (.literal value)) :
    importer.LeafNode id (.ofLiteral value) := by
  have flags : store.flags id = (TypeData.literal value).flags := TypeStore.checker_flags h
  refine .literal ?_ ?_
  · rw [c]
    cases value <;>
      simp [Checker.ruleFor?, ImportRule.all, ImportRule.applies, TypeStore.checker, flags,
        TypeData.flags] <;> decide
  · simp [c, TypeStore.checker, TypeStore.literalValue?, h]

/-- The handle of a keyword's type is imported as the primitive type of the keyword. -/
lemma Importer.leafNode_primitive {importer : Importer} {type : Primitive}
    (c : importer.checker = store.checker)
    (i : ∀ id, id.isIntrinsic = true → store.lookup id = TypeStore.new.lookup id) :
    importer.LeafNode type.keyword.typeId (.ofPrimitive type) := by
  have flags :
      store.checker.flags type.keyword.typeId = TypeStore.new.flags type.keyword.typeId := by
    have e := i type.keyword.typeId (by cases type <;> rfl)
    simp [TypeStore.checker, TypeStore.flags, e]
  have known : (TypeStore.new.flags type.keyword.typeId).hasLiteral = false ∧
      (TypeStore.new.flags type.keyword.typeId).primitive? = some type := by
    cases type <;> decide
  refine .primitive ?_ ?_
  · simp [c, Checker.ruleFor?, ImportRule.all, ImportRule.applies, flags, known]
  · rw [c, flags]
    exact known.2

end TypeSchema
