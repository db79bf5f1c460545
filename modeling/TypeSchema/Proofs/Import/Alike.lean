import TypeSchema.Graph.Queries
import TypeSchema.Proofs.Import.Rules

/-!
# Types that are alike

Two checkers may hand out different handles for the same types. A relation between the handles of
the one and those of the other is an isomorphism if it is one to one and related handles are
answered alike: equally, but for handles, which are related again. Then related types are imported
by the same rule, which takes the same steps and builds the same node. The texts of types are no
part of this; they stand in errors alone.
-/

namespace TypeSchema

/-- Two errors are of one kind if they differ at most in the text of the type that is refused. -/
inductive ImportError.SameKind : ImportError → ImportError → Prop
  | unsupportedType {text text' file : String} :
    SameKind (.unsupportedType text file) (.unsupportedType text' file)
  | recursionIntegrity {reference : String} :
    SameKind (.recursionIntegrity reference) (.recursionIntegrity reference)
  | depthLimitExceeded {text text' : String} :
    SameKind (.depthLimitExceeded text) (.depthLimitExceeded text')
  | construction {error : ConstructionError} :
    SameKind (.construction error) (.construction error)

variable {R : TypeId → TypeId → Prop}

section

variable (R)

/-- Two properties differ in the handle of their type alone. -/
inductive PropertyInfo.Alike : PropertyInfo → PropertyInfo → Prop
  | of {property : PropertyInfo} {type : TypeId} :
    R property.type type →
    Alike property { property with type }

/-- Two index signatures differ in the handles of their types alone. -/
inductive IndexSignature.Alike : IndexSignature → IndexSignature → Prop
  | of {signature : IndexSignature} {key value : TypeId} :
    R signature.key key →
    R signature.value value →
    Alike signature { signature with key, value }

/-- Two parameters differ in the handle of their type alone. -/
inductive ParameterInfo.Alike : ParameterInfo → ParameterInfo → Prop
  | of {parameter : ParameterInfo} {type : TypeId} :
    R parameter.type type →
    Alike parameter { parameter with type }

/-- Two call signatures differ in the handles of their types alone. -/
inductive CallSignature.Alike : CallSignature → CallSignature → Prop
  | of {parameters parameters' : List ParameterInfo} {returns returns' : TypeId} :
    List.Forall₂ (ParameterInfo.Alike R) parameters parameters' →
    R returns returns' →
    Alike ⟨parameters, returns⟩ ⟨parameters', returns'⟩

/-- Two elements of tuples differ in the handle of their type alone. -/
inductive TupleElement.Alike : TupleElement → TupleElement → Prop
  | of {element : TupleElement} {type : TypeId} :
    R element.type type →
    Alike element { element with type }

/-- The relation between the handles of two checkers is one to one, and related handles are answered
alike. -/
structure Checker.Isomorphic (checker checker' : Checker) : Prop where
  unique : Relator.BiUnique R
  flags {a b : TypeId} : R a b → checker.flags a = checker'.flags b
  literalValue? {a b : TypeId} : R a b → checker.literalValue? a = checker'.literalValue? b
  /-- Only where they are imported: those of `boolean`, which is a primitive type, are not. -/
  constituents {a b : TypeId} : R a b →
    checker.ruleFor? a = some .union ∨ checker.ruleFor? a = some .intersection →
    List.Forall₂ R (checker.constituents a) (checker'.constituents b)
  callSignatures {a b : TypeId} : R a b →
    List.Forall₂ (CallSignature.Alike R) (checker.callSignatures a) (checker'.callSignatures b)
  tupleElements? {a b : TypeId} : R a b →
    Option.Rel (List.Forall₂ (TupleElement.Alike R)) (checker.tupleElements? a)
      (checker'.tupleElements? b)
  arrayElement? {a b : TypeId} :
    R a b → Option.Rel R (checker.arrayElement? a) (checker'.arrayElement? b)
  properties {a b : TypeId} : R a b →
    List.Forall₂ (PropertyInfo.Alike R) (checker.properties a) (checker'.properties b)
  indexSignatures {a b : TypeId} : R a b →
    List.Forall₂ (IndexSignature.Alike R) (checker.indexSignatures a) (checker'.indexSignatures b)
  aliasName? {a b : TypeId} : R a b → checker.aliasName? a = checker'.aliasName? b

/-- Importers of one file with one choice of options, whose checkers answer related handles
alike. -/
structure Importer.Isomorphic (importer importer' : Importer) : Prop where
  checker : importer.checker.Isomorphic R importer'.checker
  file : importer.file = importer'.file
  options : importer.options = importer'.options

/-- Steps that import related types, or that stop with errors of the same kind. -/
inductive ImportStep.Alike : ImportStep → ImportStep → Prop
  | part {a b : TypeId} :
    R a b →
    Alike (.part a) (.part b)
  | stop {error error' : ImportError} :
    error.SameKind error' →
    Alike (.stop error) (.stop error')

end

/-! ## Stores -/

section

variable (R)

/-- Data of two types that differs in handles alone. -/
inductive TypeData.Alike : TypeData → TypeData → Prop
  | intrinsic {type : Intrinsic} : Alike (.intrinsic type) (.intrinsic type)
  | literal {value : Literal} : Alike (.literal value) (.literal value)
  | composite {connective : Connective} {members members' : List TypeId} :
    List.Forall₂ R members members' →
    Alike (.composite connective members) (.composite connective members')
  | array {element element' : TypeId} :
    R element element' →
    Alike (.array element) (.array element')
  | tuple {elements elements' : List TupleElement} :
    List.Forall₂ (TupleElement.Alike R) elements elements' →
    Alike (.tuple elements) (.tuple elements')
  | object {properties properties' : List PropertyInfo} {indexes indexes' : List IndexSignature} :
    List.Forall₂ (PropertyInfo.Alike R) properties properties' →
    List.Forall₂ (IndexSignature.Alike R) indexes indexes' →
    Alike (.object properties indexes) (.object properties' indexes')
  | callable {signatures signatures' : List CallSignature} :
    List.Forall₂ (CallSignature.Alike R) signatures signatures' →
    Alike (.callable signatures) (.callable signatures')
  | pending : Alike .pending .pending

/-- The relation between the handles of two stores is one to one, and related handles stand for data
that is alike. -/
structure TypeStore.Isomorphic (store store' : TypeStore) : Prop where
  unique : Relator.BiUnique R
  lookup {a b : TypeId} : R a b → Option.Rel (TypeData.Alike R) (store.lookup a) (store'.lookup b)
  aliasName? {a b : TypeId} : R a b → store.aliasName? a = store'.aliasName? b

end

/-- `boolean` is a union too, and imported as a primitive type. -/
lemma TypeStore.ruleFor?_boolean {store : TypeStore} {id : TypeId}
    (found : store.lookup id = some (.intrinsic .boolean)) :
    store.checker.ruleFor? id = some .primitive := by
  have flags : store.checker.flags id = Intrinsic.boolean.flags := by
    show store.flags id = _
    rw [TypeStore.flags, found]
    rfl
  have literal : Intrinsic.boolean.flags.hasLiteral = false := by decide
  have primitive : Intrinsic.boolean.flags.primitive?.isSome = true := by decide
  simp [Checker.ruleFor?, ImportRule.all, ImportRule.applies, flags, literal, primitive]

namespace TypeStore.Isomorphic

variable {store store' : TypeStore} (iso : store.Isomorphic R store')

include iso

/-- Stores whose data is alike are alike as checkers. -/
theorem checker : store.checker.Isomorphic R store'.checker where
  unique := iso.unique
  flags {a b} r := by
    have data := iso.lookup r
    show store.flags a = store'.flags b
    unfold TypeStore.flags
    generalize store.lookup a = data?, store'.lookup b = data?' at data ⊢
    cases data with
    | none => rfl
    | some data =>
      cases data with
      | @composite connective => cases connective <;> rfl
      | _ => rfl
  literalValue? {a b} r := by
    have data := iso.lookup r
    show store.literalValue? a = store'.literalValue? b
    unfold TypeStore.literalValue?
    generalize store.lookup a = data?, store'.lookup b = data?' at data ⊢
    cases data with
    | none => rfl
    | some data => cases data <;> rfl
  constituents {a b} r rule := by
    have data := iso.lookup r
    show List.Forall₂ R (store.constituents a) (store'.constituents b)
    unfold TypeStore.constituents
    generalize found : store.lookup a = data?, store'.lookup b = data?' at data ⊢
    cases data with
    | none => exact .nil
    | some data =>
      cases data with
      | @intrinsic type =>
        cases type with
        -- `boolean` has members of its own, but no rule that imports members is for it.
        | boolean => simp [TypeStore.ruleFor?_boolean found] at rule
        | _ => exact .nil
      | composite members => exact members
      | _ => exact .nil
  callSignatures {a b} r := by
    have data := iso.lookup r
    show List.Forall₂ _ (store.callSignatures a) (store'.callSignatures b)
    unfold TypeStore.callSignatures
    generalize store.lookup a = data?, store'.lookup b = data?' at data ⊢
    cases data with
    | none => exact .nil
    | some data =>
      cases data with
      | callable signatures => exact signatures
      | _ => exact .nil
  tupleElements? {a b} r := by
    have data := iso.lookup r
    show Option.Rel _ (store.tupleElements? a) (store'.tupleElements? b)
    unfold TypeStore.tupleElements?
    generalize store.lookup a = data?, store'.lookup b = data?' at data ⊢
    cases data with
    | none => exact .none
    | some data =>
      cases data with
      | tuple elements => exact .some elements
      | _ => exact .none
  arrayElement? {a b} r := by
    have data := iso.lookup r
    show Option.Rel _ (store.arrayElement? a) (store'.arrayElement? b)
    unfold TypeStore.arrayElement?
    generalize store.lookup a = data?, store'.lookup b = data?' at data ⊢
    cases data with
    | none => exact .none
    | some data =>
      cases data with
      | array element => exact .some element
      | _ => exact .none
  properties {a b} r := by
    have data := iso.lookup r
    show List.Forall₂ _ (store.properties a) (store'.properties b)
    unfold TypeStore.properties
    generalize store.lookup a = data?, store'.lookup b = data?' at data ⊢
    cases data with
    | none => exact .nil
    | some data =>
      cases data with
      | object properties _ => exact properties
      | _ => exact .nil
  indexSignatures {a b} r := by
    have data := iso.lookup r
    show List.Forall₂ _ (store.indexSignatures a) (store'.indexSignatures b)
    unfold TypeStore.indexSignatures
    generalize store.lookup a = data?, store'.lookup b = data?' at data ⊢
    cases data with
    | none => exact .nil
    | some data =>
      cases data with
      | object _ indexes => exact indexes
      | _ => exact .nil
  aliasName? := iso.aliasName?

end TypeStore.Isomorphic

/-! ## Rules -/

namespace Checker.Isomorphic

variable {checker checker' : Checker} (iso : checker.Isomorphic R checker') {a b : TypeId}

include iso

/-- The same rules apply to related types. -/
lemma applies (r : R a b) (rule : ImportRule) :
    rule.applies checker a = rule.applies checker' b := by
  cases rule with
  | literal => simp only [ImportRule.applies, iso.flags r]
  | primitive => simp only [ImportRule.applies, iso.flags r]
  | function =>
    simp only [ImportRule.applies, iso.flags r, isEmpty_of_forall₂ (iso.callSignatures r)]
  | tuple => exact isSome_of_rel (iso.tupleElements? r)
  | array => exact isSome_of_rel (iso.arrayElement? r)
  | union => simp only [ImportRule.applies, iso.flags r]
  | intersection => simp only [ImportRule.applies, iso.flags r]
  | record =>
    simp only [ImportRule.applies, iso.flags r, isEmpty_of_forall₂ (iso.properties r),
      (iso.indexSignatures r).length_eq]
  | object => simp only [ImportRule.applies, iso.flags r]

/-- Related types are imported by the same rule. -/
lemma ruleFor? (r : R a b) : checker.ruleFor? a = checker'.ruleFor? b := by
  unfold Checker.ruleFor?
  congr 1
  funext rule
  exact iso.applies r rule

end Checker.Isomorphic

/-- Properties that are alike have the same names. -/
lemma names_of_alike {properties properties' : List PropertyInfo}
    (h : List.Forall₂ (PropertyInfo.Alike R) properties properties') :
    properties.map (·.name) = properties'.map (·.name) := by
  induction h with
  | nil => rfl
  | cons first _ ih =>
    cases first
    simp [ih]

namespace Importer

variable {importer importer' : Importer} (iso : importer.Isomorphic R importer') {a b : TypeId}

include iso

/-- The step that refuses a type refuses related types with errors of one kind. -/
lemma refusal_alike : (importer.refusal a).Alike R (importer'.refusal b) := by
  unfold refusal
  rw [iso.file]
  exact .stop .unsupportedType

/-- The steps of parameters that are alike are alike. -/
lemma parameterSteps_alike {parameters parameters' : List ParameterInfo}
    (h : List.Forall₂ (ParameterInfo.Alike R) parameters parameters') :
    List.Forall₂ (ImportStep.Alike R) (importer.parameterSteps a parameters)
      (importer'.parameterSteps b parameters') := by
  refine List.rel_map ?_ h
  rintro parameter _ ⟨r⟩
  dsimp only
  split
  · exact refusal_alike iso
  · exact .part r

/-- The steps of elements that are alike are alike. -/
lemma elementSteps_alike {elements elements' : List TupleElement}
    (h : List.Forall₂ (TupleElement.Alike R) elements elements') :
    List.Forall₂ (ImportStep.Alike R) (importer.elementSteps a elements)
      (importer'.elementSteps b elements') := by
  refine List.rel_map ?_ h
  rintro element _ ⟨r⟩
  dsimp only
  split
  · exact refusal_alike iso
  · exact .part r

/-- The steps of function types that are alike are alike. -/
lemma functionSteps_alike {signatures signatures' : List CallSignature}
    (h : List.Forall₂ (CallSignature.Alike R) signatures signatures') :
    List.Forall₂ (ImportStep.Alike R) (importer.functionSteps a signatures)
      (importer'.functionSteps b signatures') := by
  cases h with
  | nil => exact .cons (refusal_alike iso) .nil
  | cons first rest =>
    obtain ⟨parameters, returns⟩ := first
    simp only [functionSteps, isEmpty_of_forall₂ rest, iso.options]
    split
    · exact .cons (refusal_alike iso) .nil
    · exact List.rel_append (parameterSteps_alike iso parameters) (.cons (.part returns) .nil)

/-- The steps of composites of related members are alike. -/
lemma compositeSteps_alike {members members' : List TypeId} (h : List.Forall₂ R members members') :
    List.Forall₂ (ImportStep.Alike R) (importer.compositeSteps a members)
      (importer'.compositeSteps b members') := by
  cases h with
  | nil => exact .cons (refusal_alike iso) .nil
  | cons first rest => exact List.rel_map (fun _ _ r => .part r) (.cons first rest)

omit iso in
/-- The steps of index signatures that are alike are alike. -/
lemma recordSteps_alike {signatures signatures' : List IndexSignature}
    (h : List.Forall₂ (IndexSignature.Alike R) signatures signatures') :
    List.Forall₂ (ImportStep.Alike R) (recordSteps signatures) (recordSteps signatures') := by
  refine List.rel_flatMap h ?_
  rintro signature _ ⟨key, value⟩
  exact .cons (.part key) (.cons (.part value) .nil)

omit iso in
/-- The steps of properties that are alike are alike. -/
lemma propertySteps_alike {properties properties' : List PropertyInfo}
    (h : List.Forall₂ (PropertyInfo.Alike R) properties properties') :
    List.Forall₂ (ImportStep.Alike R) (propertySteps properties) (propertySteps properties') := by
  unfold propertySteps
  rw [names_of_alike h]
  refine List.rel_append (List.rel_map ?_ h) ?_
  · rintro property _ ⟨r⟩
    exact .part r
  · split
    · exact .cons (.stop .construction) .nil
    · exact .nil

/-- Related types take steps that are alike. -/
lemma steps_alike (r : R a b) :
    List.Forall₂ (ImportStep.Alike R) (importer.steps a) (importer'.steps b) := by
  unfold steps
  rw [iso.checker.ruleFor? r]
  split
  · exact functionSteps_alike iso (iso.checker.callSignatures r)
  · exact elementSteps_alike iso (getD_of_rel (iso.checker.tupleElements? r))
  · exact List.rel_map (fun _ _ r => .part r) (toList_of_rel (iso.checker.arrayElement? r))
  · rename_i rule
    exact compositeSteps_alike iso
      (iso.checker.constituents r (.inl ((iso.checker.ruleFor? r).trans rule)))
  · rename_i rule
    exact compositeSteps_alike iso
      (iso.checker.constituents r (.inr ((iso.checker.ruleFor? r).trans rule)))
  · exact recordSteps_alike (iso.checker.indexSignatures r)
  · exact List.rel_append (propertySteps_alike (iso.checker.properties r))
      (recordSteps_alike (iso.checker.indexSignatures r))
  · exact .cons (refusal_alike iso) .nil

/-- Related types are built from the same nodes alike. -/
lemma build_alike (r : R a b) : importer.build a = importer'.build b := by
  funext nodes
  unfold build
  rw [iso.checker.ruleFor? r]
  split
  · have signatures := iso.checker.callSignatures r
    generalize importer.checker.callSignatures a = all,
      importer'.checker.callSignatures b = all' at signatures
    cases signatures with
    | nil => rfl
    | cons first _ =>
      obtain ⟨parameters, -⟩ := first
      dsimp only
      rw [zipWith_of_forall₂ parameters]
      rintro parameter _ node ⟨-⟩
      rfl
  · rw [zipWith_of_forall₂ (getD_of_rel (iso.checker.tupleElements? r))]
    rintro element _ node ⟨-⟩
    rfl
  · rfl
  · rfl
  · rfl
  · rfl
  · have properties := iso.checker.properties r
    have shape : (importer.checker.properties a).zipWith PropertyInfo.node nodes =
        (importer'.checker.properties b).zipWith PropertyInfo.node nodes := by
      refine zipWith_of_forall₂ properties ?_ nodes
      rintro property _ node ⟨-⟩
      rfl
    dsimp only
    rw [shape, properties.length_eq]
    have signatures := iso.checker.indexSignatures r
    generalize importer.checker.indexSignatures a = all,
      importer'.checker.indexSignatures b = all' at signatures
    cases signatures <;> rfl
  · rfl

end Importer

end TypeSchema
