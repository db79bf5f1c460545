import TypeSchema.Proofs.Lowering.Run

/-!
# Handles that stay reserved

The handle of an alias is reserved, and its name resolved to it, before the body of the alias is
lowered. A lowering that gives a result has defined every handle that it reserved. One that stops
leaves those of the bodies that it was lowering as they are: reserved, and the handles of their
names for every later lowering in the same state.
-/

namespace TypeSchema

namespace TypeStore

variable {store store' store'' : TypeStore}

/-- No handle is taken back, and what one stands for it stands for later, unless it is reserved. -/
structure Precedes (store store' : TypeStore) : Prop where
  size : store.types.size ≤ store'.types.size
  lookup : ∀ id data, store.lookup id = some data → data ≠ .pending → store'.lookup id = some data

lemma Precedes.refl (store : TypeStore) : store.Precedes store := ⟨Nat.le_refl _, fun _ _ e _ => e⟩

lemma Precedes.trans (h : store.Precedes store') (h' : store'.Precedes store'') :
    store.Precedes store'' :=
  ⟨Nat.le_trans h.size h'.size, fun id data e n => h'.lookup id data (h.lookup id data e n) n⟩

lemma Keeps.precedes (h : store.Keeps store') : store.Precedes store' := ⟨h.size, h.lookup⟩

/-- A handle that was handed out, and is reserved later, was reserved. -/
lemma Precedes.pending {id : TypeId} (h : store.Precedes store')
    (l : id.index < store.types.size) (e : store'.lookup id = some .pending) :
    store.lookup id = some .pending := by
  have found : store.lookup id = some store.types[id.index] := Array.getElem?_eq_getElem l
  by_cases p : store.types[id.index] = .pending
  · rw [found, p]
  · rw [h.lookup id _ found p] at e
    exact absurd (Option.some.inj e) p

end TypeStore

namespace Lowering

/-- A store comes before the one that a lowering leaves, whether it succeeds or stops. -/
lemma kept_precedes : Kept (fun s s' => s.store.Precedes s'.store) fun _ => True := by
  refine kept_store .refl (fun _ _ _ => .trans) (fun _ _ => TypeStore.grows_alloc.keeps.precedes)
    (fun store value => ?_) (fun store id data => ?_) fun _ _ _ => ⟨Nat.le_refl _, fun _ _ e _ => e⟩
  · rcases store.literal_cases value with e | e
    · rw [e]
      exact .refl _
    · rw [e]
      exact (TypeStore.grows_intern value).keeps.precedes
  · by_cases e : store.lookup id = some .pending
    · exact (TypeStore.keeps_define e).precedes
    · rw [TypeStore.define_of_not_pending e]
      exact .refl _

end Lowering

namespace LowerState

/-- Whatever is reserved in the later state was reserved in the earlier one. -/
def Settles (s s' : LowerState) : Prop :=
  ∀ id, s'.store.lookup id = some .pending → s.store.lookup id = some .pending

lemma Settles.refl (s : LowerState) : s.Settles s := fun _ e => e

lemma Settles.trans {s s' s'' : LowerState} (h : s.Settles s') (h' : s'.Settles s'') :
    s.Settles s'' := fun id e => h id (h' id e)

/-- A handle that is reserved and then defined is not reserved any more. -/
lemma settles_define {s t : LowerState} {id : TypeId} {data : TypeData} (n : data ≠ .pending)
    (only : ∀ other, t.store.lookup other = some .pending →
      s.store.lookup other = some .pending ∨ other = id) :
    s.Settles { t with store := (t.store.define id data).2 } := by
  intro other found
  have e : (t.store.define id data).2.lookup other = some .pending := found
  by_cases p : t.store.lookup id = some .pending
  · have ne : other ≠ id := by
      rintro rfl
      rw [TypeStore.lookup_define p] at e
      exact n (Option.some.inj e)
    rw [TypeStore.lookup_define_of_ne p ne] at e
    exact (only other e).resolve_right ne
  · rw [TypeStore.define_of_not_pending p] at e
    refine (only other e).resolve_right ?_
    rintro rfl
    exact p e

end LowerState

namespace Lowering

variable {declarations : List Declaration} {s s' : LowerState} {type : TypeExpr} {id : TypeId}

lemma settles_threads {types : List TypeExpr} {ids : List TypeId}
    (h : Walk.Threads (fun _ s _ s' => s.Settles s') types s ids s') : s.Settles s' :=
  (h.preserves .refl (fun _ _ _ => .trans) (fun _ _ _ _ h (_ : True) => ⟨trivial, h⟩) trivial).2

/-- A lowering that succeeds leaves no handle reserved that it reserved. -/
theorem Lowers.settles (h : Lowers declarations type s id s') : s.Settles s' := by
  induction h using Lowers.induct with
  | keyword => exact .refl _
  | @literal value s =>
    intro id e
    have e : (s.store.literal value).2.lookup id = some .pending := e
    rcases s.store.literal_cases value with same | interned
    · rwa [same] at e
    · rw [interned] at e
      rcases TypeStore.lookup_of_lookup_alloc e with e | ⟨-, n⟩
      · exact e
      · cases n
  | known => exact .refl _
  | linked => exact .refl _
  | plain _ _ _ _ ih => exact ih
  | @body name s chain declaration ids t data _ _ _ _ shape ih =>
    have settled := settles_threads (ih.imp fun _ _ _ _ ⟨_, settled⟩ => settled)
    have defined : s.Settles { t with store := (t.store.define s.store.nextId data).2 } :=
      LowerState.settles_define shape.ne_pending fun other e =>
        (TypeStore.lookup_of_lookup_alloc (settled other e)).imp_right And.left
    exact defined
  | @parted type s ids t data _ _ shape ih =>
    have settled := settles_threads (ih.imp fun _ _ _ _ ⟨_, settled⟩ => settled)
    have defined : t.Settles { t with store := t.store.place data } :=
      LowerState.settles_define (t := { t with store := t.store.reserve.2 }) shape.ne_pending
        fun other e => (TypeStore.lookup_of_lookup_alloc e).imp_right And.left
    exact settled.trans defined

/-- The lowering of all declarations that succeeds leaves none reserved either. -/
theorem settles_lowerAll {ids : List (String × TypeId)}
    (g : (lowerAll declarations).Gives s ids s') : s.Settles s' := by
  obtain ⟨_, t, each, g⟩ := Walk.gives_bind.1 g
  cases g
  obtain ⟨handles, all⟩ := threads_of_gives_forM each
  exact settles_threads (all.imp fun _ _ _ _ h => h.settles)

/-! ## Lowerings one after the other -/

variable {types : List TypeExpr} {store : TypeStore}

/-- A handle that is reserved after lowerings in one state, and was not before, was reserved by one
of them that stopped. -/
lemma pending_of_runEach {s : LowerState}
    (e : (Walk.runEach (types.map (lowerRoot declarations)) s).2.store.lookup id = some .pending)
    (l : s.store.types.size ≤ id.index) :
    ∃ before type after stop, types = before ++ type :: after ∧
      ((lowerRoot declarations type).run
        (Walk.runEach (before.map (lowerRoot declarations)) s).2).1 = .error stop ∧
      (Walk.runEach (before.map (lowerRoot declarations)) s).2.store.types.size ≤ id.index ∧
      id.index < ((lowerRoot declarations type).run
        (Walk.runEach (before.map (lowerRoot declarations)) s).2).2.store.types.size := by
  induction types generalizing s with
  | nil => exact absurd (TypeStore.index_lt e) (Nat.not_lt_of_le l)
  | cons type types ih =>
    let t := ((lowerRoot declarations type).run s).2
    by_cases lt : id.index < t.store.types.size
    · -- The handle is of the first lowering, which has stopped.
      have later : t.store.Precedes
          (Walk.runEach (types.map (lowerRoot declarations)) t).2.store :=
        kept_precedes.runEach declarations types t
      have pending : t.store.lookup id = some .pending := later.pending lt e
      cases result : ((lowerRoot declarations type).run s).1 with
      | error stop => exact ⟨[], type, types, stop, rfl, result, l, lt⟩
      | ok handle =>
        have given : (lowerType declarations maxRoom type).Gives s handle t := Prod.ext result rfl
        have settled : s.Settles t := (lowers_of_gives given).settles
        exact absurd (TypeStore.index_lt (settled id pending)) (Nat.not_lt_of_le l)
    · -- The handle did not exist after the first lowering, so it is of one of the rest.
      obtain ⟨before, other, after, stop, rfl, found⟩ := ih e (Nat.le_of_not_lt lt)
      exact ⟨type :: before, other, after, stop, rfl, found⟩

/--
When expressions are lowered one after the other, whether each succeeds or stops, a handle that was
reserved on the way and is not defined was reserved by a lowering that stopped; and lowering all
declarations after them leaves no others. So if none of them stops, no handle stays reserved.
-/
theorem pending_of_lowerEach {s : LowerState}
    (e : s = (lowerEach declarations types store).2 ∨
      ∃ ids, (lowerAll declarations).Gives (lowerEach declarations types store).2 ids s)
    (p : s.store.lookup id = some .pending) (l : store.types.size ≤ id.index) :
    ∃ before type after stop, types = before ++ type :: after ∧
      ((lowerRoot declarations type).run (lowerEach declarations before store).2).1 = .error stop ∧
      (lowerEach declarations before store).2.store.types.size ≤ id.index ∧
      id.index < ((lowerRoot declarations type).run
        (lowerEach declarations before store).2).2.store.types.size := by
  rcases e with rfl | ⟨ids, g⟩
  · exact pending_of_runEach p l
  · exact pending_of_runEach (settles_lowerAll g id p) l

/-- An object that refers to a name that is not declared. -/
def dangling : List Declaration := [⟨"A", .object [⟨"x", false, .named "Missing" [], none⟩]⟩]

/-- The second lowering of the name gives the handle that the first one, which stopped, reserved. -/
theorem pending_of_lowerEach_dangling :
    let types := [.named "A" [], .named "A" []]
    (lowerEach dangling types .new).1 =
        [.error (.failed (.unknownType "Missing")), .ok ⟨13⟩] ∧
      (lowerEach dangling types .new).2.store.lookup ⟨13⟩ = some .pending ∧
      ∃ before type after stop, types = before ++ type :: after ∧
        ((lowerRoot dangling type).run (lowerEach dangling before .new).2).1 = .error stop ∧
        (lowerEach dangling before .new).2.store.types.size ≤ 13 ∧
        13 < ((lowerRoot dangling type).run
          (lowerEach dangling before .new).2).2.store.types.size := by
  intro types
  have given : (lowerEach dangling types .new).1 =
      [.error (.failed (.unknownType "Missing")), .ok ⟨13⟩] := by decide +kernel
  have reserved : (lowerEach dangling types .new).2.store.lookup ⟨13⟩ = some .pending := by
    decide +kernel
  exact ⟨given, reserved, pending_of_lowerEach (.inl rfl) reserved (by decide)⟩

end Lowering

end TypeSchema
