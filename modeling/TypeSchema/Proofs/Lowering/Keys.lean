import TypeSchema.Graph.Queries
import TypeSchema.Proofs.Import.Refusals
import TypeSchema.Proofs.Lowering.Expressed
import TypeSchema.Proofs.Lowering.Origins

/-!
# Property names of lowered objects

An object type that is written out has the property names that are written there. A record has a
property for every literal that its key type stands for, and for a literal that is given twice it
has two. So the property names of lowered objects are different exactly where the names that the key
types of records stand for are, and these can be told from the declarations.
-/

namespace TypeSchema

/-! ## Objects of a store -/

/-- The properties of every type have different names. -/
def TypeStore.Distinct (store : TypeStore) : Prop :=
  ∀ id, ((store.properties id).map (·.name)).Nodup

/-- Where the properties of every type have different names, no type is refused for a property that
is given twice. -/
theorem TypeStore.Distinct.fromType_ne {store : TypeStore} (d : store.Distinct)
    {importer : Importer} (e : importer.checker = store.checker) (id : TypeId) (name : String) :
    importer.fromType id ≠ .error (.failed (.construction (.duplicateProperty name))) := by
  intro h
  have refuses : importer.Refuses fun error =>
      ∀ name, error ≠ .construction (.duplicateProperty name) := by
    refine ⟨fun _ _ => nofun, fun _ _ => nofun, fun _ => nofun, fun id other repeated => ?_⟩
    have none : firstRepeated? [] ((store.properties id).map (·.name)) = none :=
      firstRepeated?_eq_none.2 ⟨d id, fun _ _ m => absurd m List.not_mem_nil⟩
    rw [e] at repeated
    cases none.symm.trans repeated
  rcases refuses.of_fromType h with n | ⟨reference, e⟩
  · exact n name rfl
  · cases e

namespace Lowering

variable {declarations : List Declaration} {s : LowerState} {type key : TypeExpr} {id : TypeId}
  {name : String} {names : List String} {store store' : TypeStore}

/-! ## Names that key types stand for -/

/-- The expression stands for a literal that names the property. -/
def MeansName (declarations : List Declaration) (type : TypeExpr) (name : String) : Prop :=
  ∃ value, Means declarations type (.literal value) ∧ value.propertyName? = some name

/-- The key type stands for the literals that name the properties: one of them, or a union. -/
inductive KeyNames (declarations : List Declaration) : TypeExpr → List String → Prop
  | one {type : TypeExpr} {name : String} :
    MeansName declarations type name →
    KeyNames declarations type [name]
  | union {type : TypeExpr} {members : List TypeExpr} {names : List String} :
    Means declarations type (.composite .union members) →
    members ≠ [] →
    List.Forall₂ (MeansName declarations) members names →
    KeyNames declarations type names

/-- The members of every object type that is written out have different names. -/
def DistinctMembers (declarations : List Declaration) : Prop :=
  ∀ members, .object members ∈ occurring declarations → (members.map (·.name)).Nodup

/-- The literals that the key type of a record stands for name different properties. -/
def DistinctKeys (declarations : List Declaration) : Prop :=
  ∀ key value names, .named "Record" [key, value] ∈ occurring declarations →
    KeyNames declarations key names → names.Nodup

lemma denotes_of_means_settled {type' : TypeExpr} (f : s.Faithful declarations [])
    (m : Means declarations type type') (d : s.Denotes type id) : s.Denotes type' id :=
  denotes_of_means f m (fun _ m => absurd m List.not_mem_nil) d

lemma namesProperty_of_meansName (f : s.Faithful declarations [])
    (m : MeansName declarations type name) (d : s.Denotes type id) :
    s.store.NamesProperty id name := by
  obtain ⟨value, m, e⟩ := m
  cases denotes_of_means_settled f m d with
  | literal _ found => exact ⟨value, found, e⟩
  | parted shape => cases shape

lemma meansName_of_denotes (f : s.Faithful declarations [])
    (g : Grounded declarations s.resolved) (d : s.Denotes type id)
    (p : s.store.NamesProperty id name) : MeansName declarations type name := by
  obtain ⟨value, other, m, e⟩ := meansProperty_of_denotes f g d p
  obtain ⟨_, found, e'⟩ := p
  obtain ⟨_, found', e''⟩ := namesProperty_of_meansName f ⟨value, m, e⟩ d
  obtain rfl := TypeData.literal.inj (Option.some.inj (found.symm.trans found'))
  exact ⟨value, m, e.trans (e''.symm.trans e')⟩

/-- A key type that is denoted stands for the names that its handle stands for. -/
theorem keyNames_of_literalKeys (f : s.Faithful declarations [])
    (g : Grounded declarations s.resolved) (d : s.Denotes key id)
    (k : s.store.LiteralKeys id names) : KeyNames declarations key names := by
  cases k with
  | one p => exact .one (meansName_of_denotes f g d p)
  | union found some all =>
    obtain ⟨members, m, parts⟩ := means_union_of_denotes f g d found
    refine .union m ?_ (forall₂_comp parts all fun _ _ _ => meansName_of_denotes f g)
    rintro rfl
    cases parts
    exact some rfl

/-- The handle of a key type stands for the names that the key type does. -/
theorem literalKeys_of_keyNames (f : s.Faithful declarations [])
    (k : KeyNames declarations key names) (d : s.Denotes key id) :
    s.store.LiteralKeys id names := by
  cases k with
  | one m => exact .one (namesProperty_of_meansName f m d)
  | union m some all =>
    cases denotes_of_means_settled f m d with
    | parted shape parts found =>
      cases shape with
      | composite =>
        refine .union found ?_ (forall₂_comp parts.flip all fun _ _ _ d m =>
          namesProperty_of_meansName f m d)
        rintro rfl
        cases parts
        exact some rfl

/-! ## Lowered objects -/

/-- The properties of a record are those that its key type names. -/
lemma properties_of_keyNames {value : TypeExpr} {ids : List TypeId} {data : TypeData}
    (f : s.Faithful declarations []) (k : KeyNames declarations key names)
    (shape : s.store.HasShape (.named "Record" [key, value]) ids data)
    (parts : List.Forall₂ s.Denotes [key, value] ids) :
    ∃ properties, data = .object properties [] ∧ properties.map (·.name) = names := by
  obtain ⟨keyId, valueId, rfl, keys⟩ := TypeStore.record_of_hasShape shape
  cases parts with
  | cons d _ =>
    have known := f.regular.recordKeys?_of_literalKeys (literalKeys_of_keyNames f k d)
    rcases keys with ⟨index, -⟩ | ⟨names', literals, rfl⟩
    · cases known.symm.trans (TypeStore.recordKeys?_of_indexKey index)
    · cases known.symm.trans (f.regular.recordKeys?_of_literalKeys literals)
      refine ⟨_, rfl, ?_⟩
      rw [List.map_map]
      exact List.map_id _

lemma names_of_sameAs {members : List (PropertySignature TypeExpr)}
    {properties : List PropertyInfo}
    (same : List.Forall₂ PropertySignature.SameAs members properties) :
    properties.map (·.name) = members.map (·.name) := by
  induction same with
  | nil => rfl
  | cons first _ ih => rw [List.map_cons, List.map_cons, first.name, ih]

/-- The properties of an object that stands for an expression have different names, if the
expressions of the declarations name different ones. -/
lemma nodup_of_expresses {properties : List PropertyInfo} {indexes : List IndexSignature}
    (f : s.Faithful declarations []) (g : Grounded declarations s.resolved)
    (m : DistinctMembers declarations) (k : DistinctKeys declarations)
    (x : s.Expresses declarations (.object properties indexes)) :
    (properties.map (·.name)).Nodup := by
  obtain ⟨type, occurs, ids, shape, parts⟩ := x
  cases shape with
  | @object members _ same =>
    rw [names_of_sameAs same]
    exact m members occurs
  | indexed => exact .nil
  | @keyed key value keyId valueId names literals =>
    have named : (names.map fun name => { name, type := valueId : PropertyInfo }).map (·.name) =
        names := by
      rw [List.map_map]
      exact List.map_id _
    rw [named]
    cases parts with
    | cons d _ => exact k key value names occurs (keyNames_of_literalKeys f g d literals)

namespace Completed

variable (c : Completed store declarations s)

include c

/-- The properties of every lowered type have different names, if those of the types before have,
and the expressions of the declarations name different ones. -/
lemma distinct (d : store.Distinct) (m : DistinctMembers declarations)
    (k : DistinctKeys declarations) : s.store.Distinct := by
  intro id
  by_cases l : id.index < store.types.size
  · have same : s.store.properties id = store.properties id := by
      unfold TypeStore.properties
      rw [show s.store.lookup id = store.lookup id from c.advances.grows.lookup id l]
    rw [same]
    exact d id
  · cases e : s.store.lookup id with
    | none => simp [TypeStore.properties, e]
    | some data =>
      cases data with
      | object properties indexes =>
        have x := c.expresses e (Nat.le_of_not_lt l) nofun
        simpa [TypeStore.properties, e] using nodup_of_expresses c.faithful c.grounded m k x
      | _ => simp [TypeStore.properties, e]

/-- Where the properties of every lowered type have different names, the key types of records name
different ones. -/
lemma distinctKeys (d : s.store.Distinct) : DistinctKeys declarations := by
  intro key value names occurs k
  obtain ⟨id, denoted⟩ := c.denotes_of_occurring occurs
  cases denoted with
  | parted shape parts found =>
    obtain ⟨properties, rfl, rfl⟩ := properties_of_keyNames c.faithful k shape parts
    simpa [TypeStore.properties, found] using d id

end Completed

/--
The properties of every type have different names after a lowering exactly if the literals that the
key types of records stand for name different properties, provided that this holds of the types
before the lowering and of the object types that are written out. No import of a type of the store
is refused for a property that is given twice then.
-/
theorem distinct_iff_distinctKeys {handles : List (String × TypeId)} (r : store.Reachable)
    (d : store.Distinct) (m : DistinctMembers declarations)
    (h : lowerDeclarations store declarations = (.ok handles, store')) :
    (store'.Distinct ↔ DistinctKeys declarations) ∧
    (DistinctKeys declarations → ∀ (importer : Importer) id name,
      importer.checker = store'.checker →
      importer.fromType id ≠ .error (.failed (.construction (.duplicateProperty name)))) := by
  obtain ⟨s, rfl, c, -⟩ := completed_of_lowerDeclarations r h
  refine ⟨⟨c.distinctKeys, c.distinct d m⟩, fun k importer id name e => ?_⟩
  exact (c.distinct d m k).fromType_ne e id name

/-- A labelled point, which has a number for every axis. -/
def point : List Declaration := [
  ⟨"Axis", .composite .union [.literal (.string "x"), .literal (.string "y")]⟩,
  ⟨"Point", .object [⟨"at", false, .named "Record" [.named "Axis" [], .keyword .number], none⟩,
    ⟨"label", true, .keyword .string, none⟩]⟩]

/-- The properties of a store can be checked one handle after the other. -/
lemma distinct_of_lt (count : Nat) (size : store.types.size ≤ count)
    (all : ∀ i < count, ((store.properties ⟨i⟩).map (·.name)).Nodup) : store.Distinct := by
  rintro ⟨i⟩
  by_cases l : i < count
  · exact all i l
  · have none : store.lookup ⟨i⟩ = none :=
      Array.getElem?_eq_none (Nat.le_trans size (Nat.le_of_not_lt l))
    simp [TypeStore.properties, none]

lemma distinctMembers_point : DistinctMembers point := by
  intro members m
  simp [occurring, point, TypeExpr.preorder_eq, TypeExpr.parts] at m
  subst m
  decide

/-- The key type of the coordinates names different axes, so the point has different properties. -/
theorem distinct_point :
    ∃ handles store', lowerDeclarations .new point = (.ok handles, store') ∧
      TypeStore.new.Reachable ∧ TypeStore.new.Distinct ∧ DistinctMembers point ∧
      store'.Distinct ∧ DistinctKeys point ∧
      ∀ id name, Importer.fromType ⟨store'.checker, "point.ts", {}⟩ id ≠
        .error (.failed (.construction (.duplicateProperty name))) := by
  have given : (lowerDeclarations .new point).1.toOption =
      some [("Axis", ⟨13⟩), ("Point", ⟨16⟩)] := by
    decide +kernel
  have before : TypeStore.new.Distinct := distinct_of_lt 13 (by decide) (by decide)
  have after : (lowerDeclarations .new point).2.Distinct :=
    distinct_of_lt 18 (by decide +kernel) (by decide +kernel)
  cases h : lowerDeclarations .new point with
  | mk result store' =>
    rw [h] at given after
    cases result with
    | error stop => cases given
    | ok handles =>
      obtain ⟨keys, imports⟩ := distinct_iff_distinctKeys .new before distinctMembers_point h
      exact ⟨handles, store', rfl, .new, before, distinctMembers_point, after, keys.1 after,
        fun id name => imports (keys.1 after) _ id name rfl⟩

/-- A key type that gives a literal twice gives two properties of one name, and no import. -/
example :
    let store := (lowerDeclarations .new [⟨"R", .named "Record" [.composite .union
      [.literal (.string "a"), .literal (.string "a")], .keyword .string]⟩]).2
    (store.properties ⟨13⟩).map (·.name) = ["a", "a"] ∧
      (match Importer.fromType ⟨store.checker, "types.ts", {}⟩ ⟨13⟩ with
      | .error (.failed error) => some error
      | _ => none) = some (.construction (.duplicateProperty "a")) := by
  decide +kernel

end Lowering

end TypeSchema
