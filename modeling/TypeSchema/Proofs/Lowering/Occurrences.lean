import TypeSchema.Proofs.Lowering.Structure

/-!
# The expressions that occur in declarations

An expression occurs in itself and wherever one of its parts does. What is asked of declarations, or
counted in them, is read off the list of these occurrences, in which an expression stands as often
as it is written down.
-/

namespace TypeSchema

namespace TypeExpr

mutual

/-- The expressions that occur in an expression, each before its parts. -/
def preorder : TypeExpr → List TypeExpr
  | type@(keyword _) | type@(literal _) => [type]
  | type@(object members) => type :: preorderProperties members
  | type@(composite _ members) => type :: preorderList members
  | type@(array element) => type :: element.preorder
  | type@(tuple members) => type :: preorderElements members
  | type@(named _ arguments) => type :: preorderList arguments
  | type@(function parameters returns) =>
    type :: (preorderParameters parameters ++ returns.preorder)

/-- The expressions that occur in a list of expressions. -/
def preorderList : List TypeExpr → List TypeExpr
  | [] => []
  | type :: rest => type.preorder ++ preorderList rest

/-- The expressions that occur in the properties of an object type. -/
def preorderProperties : List (PropertySignature TypeExpr) → List TypeExpr
  | [] => []
  | ⟨_, _, type, _⟩ :: rest => type.preorder ++ preorderProperties rest

/-- The expressions that occur in the elements of a tuple type. -/
def preorderElements : List (TupleMember TypeExpr) → List TypeExpr
  | [] => []
  | ⟨_, type⟩ :: rest => type.preorder ++ preorderElements rest

/-- The expressions that occur in the parameters of a function type. -/
def preorderParameters : List (Parameter TypeExpr) → List TypeExpr
  | [] => []
  | ⟨_, _, type⟩ :: rest => type.preorder ++ preorderParameters rest

end

variable {type part inner : TypeExpr}

lemma preorderList_eq {types : List TypeExpr} : preorderList types = types.flatMap preorder := by
  induction types with
  | nil => rfl
  | cons type types ih => rw [preorderList, ih, List.flatMap_cons]

lemma preorderProperties_eq {members : List (PropertySignature TypeExpr)} :
    preorderProperties members = (members.map (·.type)).flatMap preorder := by
  induction members with
  | nil => rfl
  | cons member members ih => rw [preorderProperties, ih, List.map_cons, List.flatMap_cons]

lemma preorderElements_eq {members : List (TupleMember TypeExpr)} :
    preorderElements members = (members.map (·.type)).flatMap preorder := by
  induction members with
  | nil => rfl
  | cons member members ih => rw [preorderElements, ih, List.map_cons, List.flatMap_cons]

lemma preorderParameters_eq {parameters : List (Parameter TypeExpr)} :
    preorderParameters parameters = (parameters.map (·.type)).flatMap preorder := by
  induction parameters with
  | nil => rfl
  | cons parameter parameters ih => rw [preorderParameters, ih, List.map_cons, List.flatMap_cons]

/-- An expression occurs in itself, and what occurs in its parts does. -/
theorem preorder_eq (type : TypeExpr) :
    type.preorder = type :: type.parts.flatMap preorder := by
  cases type with
  | keyword => rw [preorder]; rfl
  | literal => rw [preorder]; rfl
  | object => rw [preorder, preorderProperties_eq]; rfl
  | composite => rw [preorder, preorderList_eq]; rfl
  | array => rw [preorder]; simp [parts]
  | tuple => rw [preorder, preorderElements_eq]; rfl
  | named => rw [preorder, preorderList_eq]; rfl
  | function => rw [preorder, preorderParameters_eq]; simp [parts]

lemma sizeOf_part (m : part ∈ type.parts) : sizeOf part < sizeOf type := by
  cases type with
  | keyword => cases m
  | literal => cases m
  | object members =>
    obtain ⟨⟨name, isOptional, type, documentation⟩, mm, rfl⟩ := List.mem_map.1 m
    have := List.sizeOf_lt_of_mem mm
    simp only [PropertySignature.mk.sizeOf_spec, object.sizeOf_spec] at *
    omega
  | composite connective members =>
    have : sizeOf part < sizeOf members := List.sizeOf_lt_of_mem m
    simp only [composite.sizeOf_spec]
    omega
  | array element =>
    cases List.mem_singleton.1 m
    simp only [array.sizeOf_spec]
    omega
  | tuple members =>
    obtain ⟨⟨isOptional, type⟩, mm, rfl⟩ := List.mem_map.1 m
    have := List.sizeOf_lt_of_mem mm
    simp only [TupleMember.mk.sizeOf_spec, tuple.sizeOf_spec] at *
    omega
  | named name arguments =>
    have : sizeOf part < sizeOf arguments := List.sizeOf_lt_of_mem m
    simp only [named.sizeOf_spec]
    omega
  | function parameters returns =>
    simp only [function.sizeOf_spec]
    rcases List.mem_append.1 m with m | m
    · obtain ⟨⟨name, isOptional, type⟩, mp, rfl⟩ := List.mem_map.1 m
      have := List.sizeOf_lt_of_mem mp
      simp only [Parameter.mk.sizeOf_spec] at *
      omega
    · cases List.mem_singleton.1 m
      omega

/-- Induction on an expression: what holds of its parts holds of the expression. -/
theorem partsInduction {motive : TypeExpr → Prop}
    (step : ∀ type : TypeExpr, (∀ part ∈ type.parts, motive part) → motive type)
    (type : TypeExpr) : motive type := by
  have all : ∀ n (type : TypeExpr), sizeOf type < n → motive type := by
    intro n
    induction n with
    | zero => exact fun _ h => absurd h (Nat.not_lt_zero _)
    | succ n ih =>
      intro type h
      apply step type
      intro part m
      have := sizeOf_part m
      exact ih part (by omega)
  exact all _ type (Nat.lt_succ_self _)

lemma mem_preorder_self : type ∈ type.preorder := by
  rw [preorder_eq]
  exact List.mem_cons_self

/-- What occurs in a part occurs in the expression. -/
lemma mem_preorder_of_part (m : part ∈ type.parts) (h : inner ∈ part.preorder) :
    inner ∈ type.preorder := by
  rw [preorder_eq]
  exact List.mem_cons_of_mem _ (List.mem_flatMap.2 ⟨part, m, h⟩)

/-- What occurs in an expression is the expression or occurs in one of its parts. -/
lemma eq_or_mem_part (h : inner ∈ type.preorder) :
    inner = type ∨ ∃ part ∈ type.parts, inner ∈ part.preorder := by
  rw [preorder_eq] at h
  exact (List.mem_cons.1 h).imp_right List.mem_flatMap.1

/-- What occurs in an expression that occurs in another one occurs in that one. -/
lemma preorder_trans (h : part ∈ type.preorder) (h' : inner ∈ part.preorder) :
    inner ∈ type.preorder := by
  induction type using partsInduction with
  | step type ih =>
    rcases eq_or_mem_part h with rfl | ⟨first, m, h⟩
    · exact h'
    · exact mem_preorder_of_part m (ih first m h)

/-- An expression with parts is none that stands for itself alone. -/
lemma isStructural_of_part (m : part ∈ type.parts) : type.isStructural = true := by
  cases type with
  | keyword => cases m
  | literal => cases m
  | named name arguments =>
    cases arguments with
    | nil => cases m
    | cons => rfl
  | _ => rfl

end TypeExpr

/-- The expressions that occur in declarations, as often as they are written down. -/
def occurring (declarations : List Declaration) : List TypeExpr :=
  declarations.flatMap (·.type.preorder)

variable {declarations : List Declaration} {declaration : Declaration} {type inner : TypeExpr}

lemma mem_occurring : type ∈ occurring declarations ↔
    ∃ declaration ∈ declarations, type ∈ declaration.type.preorder :=
  List.mem_flatMap

lemma occurring_of_mem (m : declaration ∈ declarations) :
    declaration.type ∈ occurring declarations :=
  mem_occurring.2 ⟨declaration, m, TypeExpr.mem_preorder_self⟩

/-- What occurs in an expression of the declarations occurs in them. -/
lemma occurring_of_preorder (h : type ∈ occurring declarations) (m : inner ∈ type.preorder) :
    inner ∈ occurring declarations := by
  obtain ⟨declaration, md, h⟩ := mem_occurring.1 h
  exact mem_occurring.2 ⟨declaration, md, TypeExpr.preorder_trans h m⟩

lemma occurring_of_part {part : TypeExpr} (h : type ∈ occurring declarations)
    (m : part ∈ type.parts) : part ∈ occurring declarations :=
  occurring_of_preorder h (TypeExpr.mem_preorder_of_part m TypeExpr.mem_preorder_self)

end TypeSchema
