import TypeSchema.Proofs.Lowering.Kept

/-!
# Reachable stores

A store is made by its operations and by lowerings, which may stop on the way. Every store that is
made so has its intrinsic types at their handles, and its interned literals under theirs.
-/

namespace TypeSchema

namespace TypeStore

/-- The stores that operations of a store and lowerings lead to. -/
inductive Reachable : TypeStore → Prop
  | new : Reachable .new
  /-- Unions, intersections, arrays, tuples, objects, callable types and reserved handles. -/
  | alloc {store} (data : TypeData) : Reachable store → Reachable (store.alloc data).2
  | literal {store} (value : Literal) : Reachable store → Reachable (store.literal value).2
  | define {store} (id : TypeId) (data : TypeData) :
    Reachable store →
    Reachable (store.define id data).2
  | setAliasName {store} (id : TypeId) (name : String) :
    Reachable store →
    Reachable (store.setAliasName id name)
  | lowerDeclarations {store} (declarations : List Declaration) :
    Reachable store →
    Reachable (TypeSchema.lowerDeclarations store declarations).2
  | lowerEach {store} (declarations : List Declaration) (types : List TypeExpr) :
    Reachable store →
    Reachable (Lowering.lowerEach declarations types store).2.store

variable {store : TypeStore} {id : TypeId} {data : TypeData} {name : String}

lemma Regular.alloc (h : store.Regular) : (store.alloc data).2.Regular :=
  h.keeps grows_alloc.keeps fun _ _ e => .inl e

lemma Regular.setAliasName (h : store.Regular) : (store.setAliasName id name).Regular :=
  ⟨h.intrinsics, h.literals⟩

lemma Regular.define (h : store.Regular) : (store.define id data).2.Regular := by
  by_cases e : store.lookup id = some .pending
  · refine h.keeps (keeps_define e) fun value other found => ?_
    rw [literalIds_define e] at found
    exact .inl found
  · rw [define_of_not_pending e]
    exact h

lemma Regular.reserveNamed (h : store.Regular) : (store.reserveNamed name).Regular :=
  h.alloc.setAliasName

lemma Regular.place (h : store.Regular) : (store.place data).Regular := h.alloc.define

end TypeStore

/-- Every lowering keeps its store regular, also when it stops. -/
lemma kept_regular :
    Lowering.Kept (fun s s' => s.store.Regular → s'.store.Regular) fun _ => True :=
  Lowering.kept_store (P := fun store store' => store.Regular → store'.Regular) (fun _ r => r)
    (fun _ _ _ h h' r => h' (h r)) (fun _ _ r => r.alloc) (fun _ value r => r.literal value)
    (fun _ _ _ r => r.define) fun _ _ _ r => r.setAliasName

/-- A reachable store is regular. -/
theorem TypeStore.Reachable.regular {store : TypeStore} (h : store.Reachable) : store.Regular := by
  induction h with
  | new => exact TypeStore.sound_new.toRegular
  | alloc data _ ih => exact ih.alloc
  | literal value _ ih => exact ih.literal value
  | define id data _ ih => exact ih.define
  | setAliasName id name _ ih => exact ih.setAliasName
  | @lowerDeclarations store declarations _ ih =>
    exact Lowering.Kept.lowerDeclarations (P := fun store store' => store.Regular → store'.Regular)
      kept_regular store declarations ih
  | lowerEach declarations types _ ih =>
    exact kept_regular.runEach declarations types (Lowering.start _) ih

end TypeSchema
