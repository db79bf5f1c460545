import TypeSchema.Proofs.Lowering.Handles

/-!
# Histories of a store

A store may be asked for any sequence of operations, lowerings that stop half way among them, with
any handles as arguments. Whatever the sequence, intrinsic types keep their handles, a handle that
stands for something stands for it ever after, a new type gets a new handle, and literal values
share a handle exactly if they are the same.
-/

namespace TypeSchema

/-- A call of an operation of a store. -/
inductive StoreCall where
  | literal (value : Literal)
  | union (members : List TypeId)
  | intersection (members : List TypeId)
  | array (element : TypeId)
  | tuple (elements : List TupleElement)
  | object (properties : List PropertyInfo)
  | objectWithIndexes (properties : List PropertyInfo) (indexes : List IndexSignature)
  | function (parameters : List ParameterInfo) (returns : TypeId)
  | callable (signatures : List CallSignature)
  | reserve
  | define (id : TypeId) (data : TypeData)
  | setAliasName (id : TypeId) (name : String)
  | lowerDeclarations (declarations : List Declaration)

/-- What a call returns. -/
inductive StoreAnswer where
  | handle (id : TypeId)
  | defined (isDefined : Bool)
  | named
  | lowered (result : Except (WalkStop LowerError) (List (String × TypeId)))

/-- The handles that a call returns. -/
def StoreAnswer.handles : StoreAnswer → List TypeId
  | handle id => [id]
  | lowered (.ok ids) => ids.map (·.2)
  | _ => []

namespace StoreCall

/-- The answer to a call, and the store that it leaves. -/
def run (store : TypeStore) : StoreCall → StoreAnswer × TypeStore
  | literal value => (store.literal value).map .handle id
  | union members => (store.union members).map .handle id
  | intersection members => (store.intersection members).map .handle id
  | array element => (store.array element).map .handle id
  | tuple elements => (store.tuple elements).map .handle id
  | object properties => (store.object properties).map .handle id
  | objectWithIndexes properties indexes => (store.object properties indexes).map .handle id
  | function parameters returns => (store.function parameters returns).map .handle id
  | callable signatures => (store.callable signatures).map .handle id
  | reserve => store.reserve.map .handle id
  | define id data => (store.define id data).map .defined fun store => store
  | setAliasName id name => (.named, store.setAliasName id name)
  | lowerDeclarations declarations =>
    (TypeSchema.lowerDeclarations store declarations).map .lowered id

/-- Whether a call always adds a type. -/
def allocates : StoreCall → Bool
  | literal _ | define .. | setAliasName .. | lowerDeclarations _ => false
  | _ => true

variable {call : StoreCall} {store : TypeStore}

/-- A call that always adds a type returns the next handle. -/
lemma run_of_allocates (h : call.allocates = true) :
    ∃ data, call.run store = (.handle store.nextId, (store.alloc data).2) := by
  cases call with
  | literal | define | setAliasName | lowerDeclarations => cases h
  | _ => exact ⟨_, rfl⟩

/-- Whatever the call, what the store holds persists. -/
lemma persists_run : store.Persists (call.run store).2 := by
  cases a : call.allocates with
  | true =>
    obtain ⟨data, e⟩ := run_of_allocates a
    rw [e]
    exact TypeStore.persists_alloc
  | false =>
    cases call with
    | literal value => exact store.persists_literal value
    | define => exact TypeStore.persists_define
    | setAliasName => exact TypeStore.persists_setAliasName
    | lowerDeclarations => exact persists_lowerDeclarations
    | _ => cases a

lemma reachable_run (r : store.Reachable) : (call.run store).2.Reachable := by
  cases a : call.allocates with
  | true =>
    obtain ⟨data, e⟩ := run_of_allocates a
    rw [e]
    exact r.alloc data
  | false =>
    cases call with
    | literal value => exact r.literal value
    | define id data => exact r.define id data
    | setAliasName id name => exact r.setAliasName id name
    | lowerDeclarations declarations => exact r.lowerDeclarations declarations
    | _ => cases a

/-- The handles that a call returns are new, or those of intrinsic or literal types. -/
lemma hands_run (r : store.Reachable) :
    ∀ id ∈ (call.run store).1.handles, (call.run store).2.Hands store.types.size id := by
  cases a : call.allocates with
  | true =>
    obtain ⟨data, e⟩ := run_of_allocates a
    rw [e]
    intro id m
    obtain rfl := List.mem_singleton.1 m
    exact ⟨TypeStore.index_lt TypeStore.lookup_alloc, .inl (Nat.le_refl _)⟩
  | false =>
    cases call with
    | literal value =>
      intro id m
      obtain rfl := List.mem_singleton.1 m
      exact (r.literal value).regular.hands_interned (store.interned_literal value)
    | lowerDeclarations declarations =>
      show ∀ id ∈ (StoreAnswer.lowered (TypeSchema.lowerDeclarations store declarations).1).handles,
        (TypeSchema.lowerDeclarations store declarations).2.Hands _ id
      cases h : TypeSchema.lowerDeclarations store declarations with
      | mk result store' =>
        cases result with
        | error => exact fun _ m => absurd m List.not_mem_nil
        | ok ids =>
          intro id m
          obtain ⟨entry, me, rfl⟩ := List.mem_map.1 m
          exact hands_of_lowerDeclarations r.regular h entry me
    | define => exact fun _ m => absurd m List.not_mem_nil
    | setAliasName => exact fun _ m => absurd m List.not_mem_nil
    | _ => cases a

end StoreCall

namespace TypeStore

/-- The calls of a sequence with their answers, and the store that they leave. -/
def runCalls : List StoreCall → TypeStore → List (StoreCall × StoreAnswer) × TypeStore
  | [], store => ([], store)
  | call :: calls, store =>
    let (answer, next) := call.run store
    let (answers, last) := runCalls calls next
    ((call, answer) :: answers, last)

/-- The calls of a sequence on a new store, with their answers. -/
def history (calls : List StoreCall) : List (StoreCall × StoreAnswer) := (runCalls calls new).1

/-- The store that a sequence of calls on a new store leaves. -/
def after (calls : List StoreCall) : TypeStore := (runCalls calls new).2

variable {store : TypeStore} {calls : List StoreCall}

lemma persists_runCalls : store.Persists (runCalls calls store).2 := by
  induction calls generalizing store with
  | nil => exact .refl store
  | cons call calls ih => exact StoreCall.persists_run.trans ih

lemma reachable_runCalls (r : store.Reachable) : (runCalls calls store).2.Reachable := by
  induction calls generalizing store with
  | nil => exact r
  | cons call calls ih => exact ih (StoreCall.reachable_run r)

lemma runCalls_append {more : List StoreCall} :
    (runCalls (calls ++ more) store).2 = (runCalls more (runCalls calls store).2).2 := by
  induction calls generalizing store with
  | nil => rfl
  | cons call calls ih => exact ih

/-- A call that always adds a type returns a handle that is new since the start. -/
lemma handle_of_allocates : ∀ entry ∈ (runCalls calls store).1, entry.1.allocates = true →
    ∃ id, entry.2 = .handle id ∧ store.types.size ≤ id.index := by
  induction calls generalizing store with
  | nil => exact fun _ m => absurd m List.not_mem_nil
  | cons call calls ih =>
    rintro entry (_ | ⟨_, m⟩) a
    · obtain ⟨data, e⟩ := StoreCall.run_of_allocates a
      exact ⟨store.nextId, congrArg Prod.fst e, Nat.le_refl _⟩
    · obtain ⟨id, e, l⟩ := ih entry m a
      exact ⟨id, e, Nat.le_trans StoreCall.persists_run.size l⟩

/-- Every handle that a call returns is new since the start, or that of an intrinsic or literal
type. -/
lemma hands_runCalls (r : store.Reachable) : ∀ entry ∈ (runCalls calls store).1,
    ∀ id ∈ entry.2.handles, (runCalls calls store).2.Hands store.types.size id := by
  induction calls generalizing store with
  | nil => exact fun _ m => absurd m List.not_mem_nil
  | cons call calls ih =>
    rintro entry (_ | ⟨_, m⟩) id h
    · exact (StoreCall.hands_run r id h).persists persists_runCalls
    · obtain ⟨index, origin⟩ := ih (StoreCall.reachable_run r) entry m id h
      exact ⟨index, origin.imp_left (Nat.le_trans StoreCall.persists_run.size)⟩

/-- The handle that is returned for a literal value is that of the value ever after. -/
lemma interned_runCalls {value : Literal} {answer : StoreAnswer}
    (m : (.literal value, answer) ∈ (runCalls calls store).1) :
    ∃ id, answer = .handle id ∧ (runCalls calls store).2.Interned value id := by
  induction calls generalizing store with
  | nil => exact absurd m List.not_mem_nil
  | cons call calls ih =>
    cases m with
    | head =>
      have rest : (store.literal value).2.Persists (runCalls calls (store.literal value).2).2 :=
        persists_runCalls
      exact ⟨_, rfl, rest.interned value _ (store.interned_literal value)⟩
    | tail _ m => exact ih m

/-- Handles that a later call returns once more are those of intrinsic or literal types, and it is
none of the calls that always add a type. -/
lemma pairwise_runCalls (r : store.Reachable) :
    (runCalls calls store).1.Pairwise fun earlier later =>
      ∀ id ∈ later.2.handles, id ∈ earlier.2.handles → later.1.allocates = false ∧
        (id.isIntrinsic = true ∨
          ∃ value, (runCalls calls store).2.lookup id = some (.literal value)) := by
  induction calls generalizing store with
  | nil => exact .nil
  | cons call calls ih =>
    have r' : (call.run store).2.Reachable := StoreCall.reachable_run r
    refine .cons ?_ (ih r')
    intro later m id h h'
    have l : id.index < (call.run store).2.types.size := (StoreCall.hands_run r id h').index
    constructor
    · -- The handle of such a call is not below those that there were before it.
      cases a : later.1.allocates with
      | false => rfl
      | true =>
        obtain ⟨id', e, new⟩ := handle_of_allocates later m a
        rw [e] at h
        obtain rfl := List.mem_singleton.1 h
        exact absurd l (Nat.not_lt_of_le new)
    · rcases (hands_runCalls r' later m id h).origin with new | i | ⟨value, i⟩
      · exact absurd l (Nat.not_lt_of_le new)
      · exact .inl i
      · exact .inr ⟨value, (reachable_runCalls r').regular.lookup_of_interned i⟩

/-- What holds of a store after any sequence of calls, and of the answers to them. -/
structure SoundHistory (calls : List StoreCall) : Prop where
  /-- The intrinsic types are at their handles. -/
  intrinsics : ∀ id, id.isIntrinsic = true → (after calls).lookup id = new.lookup id
  /-- What a handle stands for it stands for after any more calls, unless it is reserved. -/
  settled : ∀ more id data, (after calls).lookup id = some data → data ≠ .pending →
    (after (calls ++ more)).lookup id = some data
  /-- A call that adds a type returns a handle. -/
  handle : ∀ entry ∈ history calls, entry.1.allocates = true → ∃ id, entry.2 = .handle id
  /-- It is none that was returned before. -/
  fresh : (history calls).Pairwise fun earlier later =>
    later.1.allocates = true → ∀ id ∈ later.2.handles, id ∉ earlier.2.handles
  /-- Whatever other calls return that was returned before is an intrinsic or a literal type. -/
  shared : (history calls).Pairwise fun earlier later =>
    ∀ id ∈ later.2.handles, id ∈ earlier.2.handles →
      id.isIntrinsic = true ∨ ∃ value, (after calls).lookup id = some (.literal value)
  /-- A literal value has a handle, which stands for it. -/
  literal : ∀ value answer, (.literal value, answer) ∈ history calls →
    ∃ id, answer = .handle id ∧ (after calls).lookup id = some (.literal value)
  /-- The handles of two literal values are the same exactly if the values are. -/
  literals : ∀ value value' id id', (.literal value, .handle id) ∈ history calls →
    (.literal value', .handle id') ∈ history calls → (id = id' ↔ value = value')

/-- Every sequence of calls on a new store, with whatever arguments, has a sound history. -/
theorem soundHistory (calls : List StoreCall) : SoundHistory calls := by
  have regular : (after calls).Regular := (reachable_runCalls .new).regular
  have pairs := @pairwise_runCalls _ calls .new
  have interned : ∀ value id, (.literal value, .handle id) ∈ history calls →
      (after calls).Interned value id := by
    intro value id m
    obtain ⟨_, e, i⟩ := interned_runCalls m
    cases e
    exact i
  refine ⟨regular.intrinsics, ?_, ?_, ?_, ?_, ?_, ?_⟩
  · intro more id data found n
    unfold after
    rw [runCalls_append]
    exact persists_runCalls.lookup id data found n
  · intro entry m a
    obtain ⟨id, e, -⟩ := handle_of_allocates entry m a
    exact ⟨id, e⟩
  · refine pairs.imp fun step a id h h' => ?_
    rw [(step id h h').1] at a
    cases a
  · exact pairs.imp fun step id h h' => (step id h h').2
  · intro value answer m
    obtain ⟨id, e, i⟩ := interned_runCalls m
    exact ⟨id, e, regular.lookup_of_interned i⟩
  · intro value value' id id' m m'
    have i := interned value id m
    have i' := interned value' id' m'
    constructor
    · rintro rfl
      have same := (regular.lookup_of_interned i).symm.trans (regular.lookup_of_interned i')
      cases same
      rfl
    · rintro rfl
      exact i.unique i'

end TypeStore

end TypeSchema
