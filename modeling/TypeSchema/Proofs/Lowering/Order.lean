import TypeSchema.Proofs.Import.Isomorphic
import TypeSchema.Proofs.Lowering.Origins

/-!
# Lowering in any order

The order of declarations decides which alias is resolved first and which handles are handed out,
but not what the handles are handed out for. So two orders of the same declarations are lowered to
stores that are isomorphic: handles of one origin stand for data that differs in handles of one
origin. Such stores are imported alike.
-/

namespace TypeSchema

/-! ## Data that is put together alike -/

section

variable {R : TypeId → TypeId → Prop} {store store' : TypeStore} {type : TypeExpr}
  {ids ids' : List TypeId} {key key' value value' : TypeId}

/-- Records of related key and value types are alike if the keys stand for the same. -/
lemma recordData?_alike (k : R key key') (v : R value value')
    (e : store.recordKeys? key = store'.recordKeys? key') :
    Option.Rel (TypeData.Alike R) (store.recordData? key value)
      (store'.recordData? key' value') := by
  unfold TypeStore.recordData?
  rw [e]
  split
  · exact .some (.object .nil (.cons (.of k v) .nil))
  · refine .some (.object ?_ .nil)
    rw [List.forall₂_map_left_iff, List.forall₂_map_right_iff, List.forall₂_same]
    exact fun name _ => .of v
  · exact .none

/-- An expression whose form is not refused is put together alike from related parts. -/
lemma assemble?_alike (f : type.fault? = none) (l : ids.length = type.parts.length)
    (r : List.Forall₂ R ids ids')
    (keys : ∀ a b, R a b → store.recordKeys? a = store'.recordKeys? b) :
    Option.Rel (TypeData.Alike R) (type.assemble? store ids) (type.assemble? store' ids') := by
  cases type with
  | keyword => cases f
  | literal => cases f
  | object members => exact .some (.object (forall₂_zipWith r (fun _ _ _ r => .of r) members) .nil)
  | composite connective members => exact .some (.composite r)
  | array element =>
    obtain ⟨id, rfl⟩ := List.length_eq_one_iff.1 l
    cases r with
    | cons first => exact .some (.array first)
  | tuple members => exact .some (.tuple (forall₂_zipWith r (fun _ _ _ r => .of r) members))
  | named name arguments =>
    rcases TypeExpr.named_of_fault?_eq_none f with ⟨rfl, key, value, rfl⟩ | ⟨rfl, element, rfl⟩
    · obtain ⟨keyId, valueId, rfl⟩ := List.length_eq_two.1 l
      cases r with
      | cons k rest =>
        cases rest with
        | cons v => exact recordData?_alike k v (keys _ _ k)
    · obtain ⟨id, rfl⟩ := List.length_eq_one_iff.1 l
      cases r with
      | cons first => exact .some (.array first)
  | function parameters returns =>
    have some : ids ≠ [] := by
      rintro rfl
      simp [TypeExpr.parts] at l
    cases r with
    | nil => exact absurd rfl some
    | cons first rest =>
      refine .some (.callable (.cons (.of ?_ ?_) .nil))
      · exact forall₂_zipWith (.cons first rest) (fun _ _ _ r => .of r) parameters
      · rw [List.getLastD_cons, List.getLastD_cons]
        exact getLastD_of_forall₂ rest first

/-- Only a union can be a key type among the types of a shape. -/
lemma recordKeys?_of_hasShape {id : TypeId} {data : TypeData} (shape : store.HasShape type ids data)
    (found : store.lookup id = some data) (n : TypeStore.isIndexKey id = false)
    (u : ∀ members, type ≠ .composite .union members) : store.recordKeys? id = none := by
  unfold TypeStore.recordKeys?
  rw [n, found]
  cases shape with
  | @composite connective members _ =>
    cases connective with
    | union => exact absurd rfl (u members)
    | intersection => rfl
  | _ => rfl

/-- What has a shape is no literal type. -/
lemma literalName?_of_hasShape {id : TypeId} {data : TypeData}
    (shape : store.HasShape type ids data) (found : store.lookup id = some data) :
    store.literalName? id = none := by
  unfold TypeStore.literalName?
  rw [found]
  cases shape <;> rfl

end

namespace Lowering

/-! ## Handles of one origin -/

/-- The handles of two lowerings come from one origin. -/
def SameOrigin (s s' : LowerState) (labels labels' : Labels) (a b : TypeId) : Prop :=
  ∃ origin, ComesFrom s labels a origin ∧ ComesFrom s' labels' b origin

/-- The handles stand for the same intrinsic type, for the same literal, or for data of one shape
with handles of one origin. -/
inductive Counterparts (s s' : LowerState) (labels labels' : Labels) (a b : TypeId) : Prop
  | intrinsic {type : Intrinsic} :
    s.store.lookup a = some (.intrinsic type) →
    s'.store.lookup b = some (.intrinsic type) →
    Counterparts s s' labels labels' a b
  | literal {value : Literal} :
    s.store.lookup a = some (.literal value) →
    s'.store.lookup b = some (.literal value) →
    Counterparts s s' labels labels' a b
  | shaped {type : TypeExpr} {ids ids' : List TypeId} {data data' : TypeData} :
    s.store.lookup a = some data →
    s'.store.lookup b = some data' →
    s.store.HasShape type ids data →
    s'.store.HasShape type ids' data' →
    ids.length = type.parts.length →
    List.Forall₂ (SameOrigin s s' labels labels') ids ids' →
    Counterparts s s' labels labels' a b

section

variable {declarations others : List Declaration} {s s' : LowerState} {labels labels' : Labels}
  {type : TypeExpr} {a b : TypeId} (c : Complete declarations s labels)
  (c' : Complete others s' labels')

include c c'

lemma biUnique_sameOrigin : Relator.BiUnique (SameOrigin s s' labels labels') := by
  constructor
  · rintro a a' b ⟨origin, h, h'⟩ ⟨origin', k, k'⟩
    obtain rfl := c'.origin_unique h' k'
    exact c.handle_unique h k
  · rintro a b b' ⟨origin, h, h'⟩ ⟨origin', k, k'⟩
    obtain rfl := c.origin_unique h k
    exact c'.handle_unique h' k'

omit c c' in
lemma sameOrigin_keyword (word : Keyword) :
    SameOrigin s s' labels labels' word.typeId word.typeId :=
  ⟨.keyword word, .keyword, .keyword⟩

/-- Keys for any string or number are the same in both stores. -/
lemma isIndexKey_eq (r : SameOrigin s s' labels labels' a b) :
    TypeStore.isIndexKey a = TypeStore.isIndexKey b := by
  have unique := biUnique_sameOrigin c c'
  rw [Bool.eq_iff_iff, TypeStore.isIndexKey_iff, TypeStore.isIndexKey_iff]
  exact or_congr (Relator.rel_eq unique r (sameOrigin_keyword .string))
    (Relator.rel_eq unique r (sameOrigin_keyword .number))

/-- Handles of one origin have the same alias name. -/
lemma aliasName?_eq (r : SameOrigin s s' labels labels' a b) :
    s.store.aliasName? a = s'.store.aliasName? b := by
  obtain ⟨origin, h, h'⟩ := r
  refine Option.ext fun name => ?_
  rw [c.aliasName?_iff h, c'.aliasName?_iff h']

variable (same : declared? declarations = declared? others)

include same

/-- What denotes the expression of a spot in either store has one origin. -/
lemma sameOrigin_of_denotes (spot : Spot) (d : s.Denotes type a) (d' : s'.Denotes type b)
    (own : type.isStructural = true → labels a = some spot)
    (own' : type.isStructural = true → labels' b = some spot) :
    SameOrigin s s' labels labels' a b := by
  obtain ⟨origin, o, h⟩ := c.exists_origin d own
  obtain ⟨origin', o', h'⟩ := c'.exists_origin d' own'
  obtain rfl := (o.congr same).unique o'
  exact ⟨origin, h, h'⟩

/-- Handles of one origin are counterparts. -/
theorem counterparts_of_sameOrigin (r : SameOrigin s s' labels labels' a b) :
    Counterparts s s' labels labels' a b := by
  have regular := c.faithful.regular
  have regular' := c'.faithful.regular
  obtain ⟨origin, h, h'⟩ := r
  cases h with
  | @keyword word =>
    cases h' with
    | keyword =>
      obtain ⟨type, found⟩ := regular.lookup_keyword word
      have fixed : word.typeId.isIntrinsic = true := by cases word <;> rfl
      refine .intrinsic found ?_
      rw [regular'.intrinsics _ fixed, ← regular.intrinsics _ fixed]
      exact found
  | literal i =>
    cases h' with
    | literal i' => exact .literal (regular.lookup_of_interned i) (regular'.lookup_of_interned i')
  | @spot spot _ e =>
    cases h' with
    | spot e' =>
      obtain ⟨type, ids, data, at_spot, found, shape, parts, own⟩ := c.lookup_of_label e
      obtain ⟨type', ids', data', at_spot', found', shape', parts', own'⟩ := c'.lookup_of_label e'
      rw [← spot.type?_congr same, at_spot] at at_spot'
      obtain rfl := Option.some.inj at_spot'
      refine .shaped found found' shape shape' parts.length_eq.symm ?_
      -- The parts at one position belong to one spot, which tells their origin in both stores.
      refine List.forall₂_iff_get.2 ⟨parts.length_eq.symm.trans parts'.length_eq, fun i l l' => ?_⟩
      have inside : i < type.parts.length := parts.length_eq ▸ l
      have part : type.parts[i]? = some (type.parts.get ⟨i, inside⟩) :=
        List.getElem?_eq_getElem inside
      exact sameOrigin_of_denotes c c' same (spot.part i) (parts.get inside l)
        (parts'.get inside l') (own i _ _ part (List.getElem?_eq_getElem l))
        (own' i _ _ part (List.getElem?_eq_getElem l'))

/-- Handles of one origin name the same property, if they name any. -/
lemma literalName?_eq (r : SameOrigin s s' labels labels' a b) :
    s.store.literalName? a = s'.store.literalName? b := by
  cases counterparts_of_sameOrigin c c' same r with
  | intrinsic found found' => simp only [TypeStore.literalName?, found, found']
  | literal found found' => simp only [TypeStore.literalName?, found, found']
  | shaped found found' shape shape' =>
    rw [literalName?_of_hasShape shape found, literalName?_of_hasShape shape' found']

/-- Handles of one origin stand for the same keys of records. -/
lemma recordKeys?_eq (r : SameOrigin s s' labels labels' a b) :
    s.store.recordKeys? a = s'.store.recordKeys? b := by
  have index := isIndexKey_eq c c' r
  cases i : TypeStore.isIndexKey b with
  | true =>
    rw [i] at index
    rw [TypeStore.recordKeys?_of_isIndexKey index, TypeStore.recordKeys?_of_isIndexKey i]
  | false =>
    rw [i] at index
    cases counterparts_of_sameOrigin c c' same r with
    | intrinsic found found' => simp only [TypeStore.recordKeys?, index, i, found, found']
    | literal found found' => simp only [TypeStore.recordKeys?, index, i, found, found']
    | @shaped type ids ids' data data' found found' shape shape' _ parts =>
      -- Of the shapes only a union stands for keys, and for those that its members stand for.
      by_cases u : ∃ members, type = .composite .union members
      · obtain ⟨members, rfl⟩ := u
        cases shape with
        | composite =>
          cases shape' with
          | composite =>
            have all := all_of_forall₂ parts fun _ _ => isIndexKey_eq c c'
            have names := mapM_of_forall₂ parts fun _ _ => literalName?_eq c c' same
            simp only [TypeStore.recordKeys?, index, i, found, found', all, names]
      · rw [recordKeys?_of_hasShape shape found index (not_exists.1 u),
          recordKeys?_of_hasShape shape' found' i (not_exists.1 u)]

/-- Stores that the same declarations are lowered to are isomorphic. -/
theorem isomorphic_of_complete :
    s.store.Isomorphic (SameOrigin s s' labels labels') s'.store where
  unique := biUnique_sameOrigin c c'
  lookup {a b} r := by
    cases counterparts_of_sameOrigin c c' same r with
    | intrinsic found found' =>
      rw [found, found']
      exact .some .intrinsic
    | literal found found' =>
      rw [found, found']
      exact .some .literal
    | shaped found found' shape shape' l parts =>
      rw [found, found', ← TypeExpr.assemble?_of_hasShape c.faithful.regular shape,
        ← TypeExpr.assemble?_of_hasShape c'.faithful.regular shape']
      exact assemble?_alike (TypeExpr.fault?_of_hasShape shape) l parts
        fun _ _ => recordKeys?_eq c c' same
  aliasName? := aliasName?_eq c c'

end

/-- Declarations that are lowered leave a store. -/
lemma exists_of_isSome {store : TypeStore} {declarations : List Declaration}
    (e : (lowerDeclarations store declarations).1.toOption.isSome = true) :
    ∃ ids store', lowerDeclarations store declarations = (.ok ids, store') := by
  cases h : lowerDeclarations store declarations with
  | mk result store' =>
    rw [h] at e
    cases result with
    | error => cases e
    | ok ids => exact ⟨ids, store', rfl⟩

end Lowering

/-- The order of declarations does not matter. Where neither order lies too deep, one is lowered
into a new store if the other is, and then the handles of a declared name are imported alike from
both stores: as the same node, or with errors of one kind. -/
theorem lowerDeclarations_perm {declarations others : List Declaration}
    (p : declarations.Perm others)
    (n : (lowerDeclarations .new declarations).1 ≠ .error (.failed .depthLimitExceeded))
    (n' : (lowerDeclarations .new others).1 ≠ .error (.failed .depthLimitExceeded)) :
    ((∃ ids, (lowerDeclarations .new declarations).1 = .ok ids) ↔
      ∃ ids, (lowerDeclarations .new others).1 = .ok ids) ∧
    ∀ ids ids' store store', lowerDeclarations .new declarations = (.ok ids, store) →
      lowerDeclarations .new others = (.ok ids', store') →
      ∀ declaration ∈ declarations, ∃ a b, ids.lookup declaration.name = some a ∧
        ids'.lookup declaration.name = some b ∧
        ∀ file options, Walk.SameOutcome ImportError.SameKind
          (Importer.fromType ⟨store.checker, file, options⟩ a)
          (Importer.fromType ⟨store'.checker, file, options⟩ b) := by
  have accepted : Lowering.Accepted declarations ↔ Lowering.Accepted others :=
    ⟨fun h => h.perm p, fun h => h.perm p.symm⟩
  refine ⟨?_, fun ids ids' store store' h h' declaration m => ?_⟩
  · rw [Lowering.exists_lowerDeclarations_iff .new n, accepted,
      Lowering.exists_lowerDeclarations_iff .new n']
  · have same := Lowering.declared?_perm p (Lowering.accepted_of_lowerDeclarations .new h).nodup
    obtain ⟨s, labels, rfl, c, handles⟩ := Lowering.exists_complete h
    obtain ⟨s', labels', rfl, c', handles'⟩ := Lowering.exists_complete h'
    obtain ⟨a, found, resolved⟩ := handles declaration m
    obtain ⟨b, found', resolved'⟩ := handles' declaration (p.mem_iff.1 m)
    refine ⟨a, b, found, found', fun file options => ?_⟩
    have iso := (Lowering.isomorphic_of_complete c c' same).checker
    -- A name stands for the body at the end of its chain at whatever spot it is.
    have origin : Lowering.SameOrigin s s' labels labels' a b :=
      Lowering.sameOrigin_of_denotes c c' same (.top declaration.name)
        (.name resolved) (.name resolved') nofun nofun
    have alike : Importer.Isomorphic (Lowering.SameOrigin s s' labels labels')
        ⟨s.store.checker, file, options⟩ ⟨s'.store.checker, file, options⟩ := ⟨iso, rfl, rfl⟩
    exact Importer.fromType_alike alike origin

/-- The forest is lowered in its order and in the opposite one, and imported alike. -/
theorem lowerDeclarations_perm_forest :
    ∃ ids ids' store store', lowerDeclarations .new forest = (.ok ids, store) ∧
      lowerDeclarations .new forest.reverse = (.ok ids', store') ∧
      ∀ declaration ∈ forest, ∃ a b, ids.lookup declaration.name = some a ∧
        ids'.lookup declaration.name = some b ∧
        ∀ file options, Walk.SameOutcome ImportError.SameKind
          (Importer.fromType ⟨store.checker, file, options⟩ a)
          (Importer.fromType ⟨store'.checker, file, options⟩ b) := by
  have given : (lowerDeclarations .new forest).1.toOption.isSome = true := by decide +kernel
  have reversed : (lowerDeclarations .new forest.reverse).1.toOption.isSome = true := by
    decide +kernel
  obtain ⟨ids, store, h⟩ := Lowering.exists_of_isSome given
  obtain ⟨ids', store', h'⟩ := Lowering.exists_of_isSome reversed
  obtain ⟨-, alike⟩ := lowerDeclarations_perm (List.reverse_perm forest).symm
    (by rw [h]; exact nofun) (by rw [h']; exact nofun)
  exact ⟨ids, ids', store, store', h, h', alike ids ids' store store' h h'⟩

end TypeSchema
