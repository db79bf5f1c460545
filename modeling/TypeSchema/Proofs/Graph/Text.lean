import Mathlib.Data.Finset.Card
import Mathlib.Tactic.Lemma
import TypeSchema.Graph.Rendering
import TypeSchema.Proofs.Lowering.Store

/-!
# Texts of types along a path

The walk that writes a type threads the handles that are being written as its state. `textAlong`
writes a type without a state: it is given the handles on the way from the root, and writes out a
type in full wherever the type is not one of them. It ends since each of these handles was handed
out, and no handle is on the way twice. The walk gives the same text, and each member of a type
leaves the handles that are being written as it finds them.
-/

namespace TypeSchema

/-! ### Texts from the texts of members -/

section

variable (text : TypeId → String)

/-- The text of an element of a tuple type. -/
def TupleElement.textWith (element : TupleElement) : String :=
  (if element.isRest then "..." else "") ++ text element.type ++
    (if element.isOptional then "?" else "")

/-- The text of a property of an object type. -/
def PropertyInfo.textWith (property : PropertyInfo) : String :=
  property.name ++ (if property.isOptional then "?" else "") ++ ": " ++ text property.type ++ "; "

/-- The text of an index signature of an object type. -/
def IndexSignature.textWith (index : IndexSignature) : String :=
  "[key: " ++ text index.key ++ "]: " ++ text index.value ++ "; "

/-- The text of a parameter of a call signature; one without a name is called by its position. -/
def ParameterInfo.textWith (parameter : ParameterInfo) (position : Nat) : String :=
  (if parameter.isRest then "..." else "") ++
    parameter.name.getD ("arg" ++ toString position) ++
    (if parameter.isOptional then "?" else "") ++ ": " ++ text parameter.type

/-- The text of a call signature. -/
def CallSignature.textWith (signature : CallSignature) : String :=
  "(" ++ String.intercalate ", " (signature.parameters.zipIdx.map fun parameter =>
    parameter.1.textWith text parameter.2) ++ ") => " ++ text signature.returns

/-- The text of what a handle stands for; a reserved handle is written by its number. -/
def TypeData.textWith (id : TypeId) : TypeData → String
  | intrinsic type => type.name
  | literal value => value.text
  | composite connective members => String.intercalate connective.separator (members.map text)
  | array element => text element ++ "[]"
  | tuple elements => "[" ++ String.intercalate ", " (elements.map (·.textWith text)) ++ "]"
  | object [] [] => "\x7b\x7d"
  | object properties indexes =>
    "\x7b " ++ String.join (properties.map (·.textWith text)) ++
      String.join (indexes.map (·.textWith text)) ++ "\x7d"
  | callable signatures => String.intercalate " & " (signatures.map (·.textWith text))
  | pending => id.text

end

namespace TypeStore

variable {store : TypeStore} {path : List TypeId} {id member : TypeId} {levels : Nat}

/-! ### Texts along a path -/

/-- The handles that were handed out and are not on a path. -/
def unopened (store : TypeStore) (path : List TypeId) : Finset Nat :=
  (Finset.range store.types.size).filter fun index => (⟨index⟩ : TypeId) ∉ path

/-- A handle that was handed out is on a path once at most. -/
lemma card_unopened_cons (l : id.index < store.types.size) (n : id ∉ path) :
    (store.unopened (id :: path)).card < (store.unopened path).card := by
  apply Finset.card_lt_card
  refine Finset.ssubset_iff_subset_ne.2 ⟨?_, fun e => ?_⟩
  · intro index m
    simp only [unopened, Finset.mem_filter, List.mem_cons, not_or] at m ⊢
    exact ⟨m.1, m.2.2⟩
  · have m : id.index ∈ store.unopened path := Finset.mem_filter.2 ⟨Finset.mem_range.2 l, n⟩
    rw [← e] at m
    exact (Finset.mem_filter.1 m).2 List.mem_cons_self

lemma card_unopened_le : (store.unopened path).card ≤ store.types.size := by
  have le := Finset.card_filter_le (Finset.range store.types.size)
    fun index => (⟨index⟩ : TypeId) ∉ path
  rwa [Finset.card_range] at le

/-- The text of a member whose type has the given text; an alias name stands for its type. -/
def memberWith (store : TypeStore) (text : TypeId → String) (member : TypeId) : String :=
  (store.aliasName? member).getD (text member)

/-- The text of a type below the handles of a path. A handle on the path, and one that stands for
nothing, is written by its number. -/
def textAlong (store : TypeStore) (path : List TypeId) (id : TypeId) : String :=
  match _found : store.lookup id with
  | none => id.text
  | some data =>
    if _open : id ∈ path then id.text
    else data.textWith (store.memberWith fun member => textAlong store (id :: path) member) id
termination_by (store.unopened path).card
decreasing_by exact card_unopened_cons (index_lt _found) _open

/-- The text of a member below the handles of a path. -/
def memberAlong (store : TypeStore) (path : List TypeId) (member : TypeId) : String :=
  store.memberWith (store.textAlong path) member

lemma textAlong_of_lookup_eq_none (e : store.lookup id = none) :
    store.textAlong path id = id.text := by
  rw [textAlong]
  split
  case h_1 => rfl
  case h_2 f => rw [e] at f; cases f

lemma textAlong_of_mem (m : id ∈ path) : store.textAlong path id = id.text := by
  rw [textAlong]
  split
  case h_1 => rfl
  case h_2 => exact dif_pos m

/-- A type that is not on the path is written out in full. -/
lemma textAlong_of_not_mem {data : TypeData} (e : store.lookup id = some data) (n : id ∉ path) :
    store.textAlong path id = data.textWith (store.memberAlong (id :: path)) id := by
  rw [textAlong]
  split
  case h_1 f => rw [e] at f; cases f
  case h_2 data' f =>
    obtain rfl : data = data' := Option.some.inj (e.symm.trans f)
    exact dif_neg n

/-! ### What the walk writes -/

/-- The walk gives a result and leaves the handles that are being written as they are. -/
def Writes {α : Type} (walk : RenderM α) (path : List TypeId) (result : α) : Prop :=
  walk.run path = some (result, path)

namespace Writes

variable {α β : Type} {walk : RenderM α} {a : α}

lemma pure : Writes (Pure.pure a) path a := rfl

lemma bind {next : α → RenderM β} {b : β} (h : Writes walk path a) (h' : Writes (next a) path b) :
    Writes (walk >>= next) path b := by
  unfold Writes at h h' ⊢
  rw [StateT.run_bind, h]
  exact h'

/-- Steps that each leave the handles as they are do so one after the other. -/
lemma mapM {step : α → RenderM β} {result : α → β} (h : ∀ a, Writes (step a) path (result a))
    (as : List α) : Writes (as.mapM step) path (as.map result) := by
  induction as with
  | nil => exact .pure
  | cons a as ih =>
    rw [List.mapM_cons]
    exact (h a).bind (ih.bind .pure)

end Writes

section

variable {render : TypeId → RenderM String} {text : TypeId → String}

lemma writes_renderElement (h : ∀ member, Writes (render member) path (text member))
    (element : TupleElement) :
    Writes (renderElement render element) path (element.textWith text) := (h _).bind .pure

lemma writes_renderProperty (h : ∀ member, Writes (render member) path (text member))
    (property : PropertyInfo) :
    Writes (renderProperty render property) path (property.textWith text) := (h _).bind .pure

lemma writes_renderIndex (h : ∀ member, Writes (render member) path (text member))
    (index : IndexSignature) : Writes (renderIndex render index) path (index.textWith text) :=
  (h _).bind ((h _).bind .pure)

lemma writes_renderSignature (h : ∀ member, Writes (render member) path (text member))
    (signature : CallSignature) :
    Writes (renderSignature render signature) path (signature.textWith text) := by
  have parameters : ∀ parameter, Writes (renderParameter render parameter) path
      (parameter.1.textWith text parameter.2) := fun parameter => (h _).bind .pure
  exact (Writes.mapM parameters _).bind ((h _).bind .pure)

/-- What a handle stands for is written as its members are. -/
lemma writes_renderData (h : ∀ member, Writes (render member) path (text member))
    (data : TypeData) : Writes (renderData render id (some data)) path (data.textWith text id) := by
  cases data with
  | intrinsic | literal | pending => exact .pure
  | composite _ members => exact (Writes.mapM h members).bind .pure
  | array element => exact (h element).bind .pure
  | tuple elements => exact (Writes.mapM (writes_renderElement h) elements).bind .pure
  | callable signatures => exact (Writes.mapM (writes_renderSignature h) signatures).bind .pure
  | object properties indexes =>
    -- An object type is written so if it has a member of either kind; without any it is not.
    have full : Writes
        (do
          let texts ← properties.mapM (renderProperty render)
          let indexTexts ← indexes.mapM (renderIndex render)
          return "\x7b " ++ String.join texts ++ String.join indexTexts ++ "\x7d") path
        ("\x7b " ++ String.join (properties.map (·.textWith text)) ++
          String.join (indexes.map (·.textWith text)) ++ "\x7d") :=
      (Writes.mapM (writes_renderProperty h) properties).bind
        ((Writes.mapM (writes_renderIndex h) indexes).bind .pure)
    cases properties with
    | nil =>
      cases indexes with
      | nil => exact .pure
      | cons => exact full
    | cons => exact full

/-- A type is written out where it is not being written already, and not open afterwards. -/
lemma writes_renderOpen
    (h : id.index < store.types.size → id ∉ path → ∀ member,
      Writes (render member) (id :: path) (store.memberAlong (id :: path) member)) :
    Writes (store.renderOpen render id) path (store.textAlong path id) := by
  unfold Writes renderOpen
  by_cases m : id ∈ path
  · rw [textAlong_of_mem m]
    simp [m]
  · have inner : Writes (renderData render id (store.lookup id)) (id :: path)
        (store.textAlong path id) := by
      cases e : store.lookup id with
      | none =>
        rw [textAlong_of_lookup_eq_none e]
        exact .pure
      | some data =>
        rw [textAlong_of_not_mem e m]
        exact writes_renderData (h (index_lt e) m) data
    unfold Writes at inner
    simp [m, inner]

end

/-- Above the number of handles that may still be opened, the levels of a walk are never used up. -/
lemma writes_renderMember (l : (store.unopened path).card < levels) :
    Writes (store.renderMember levels member) path (store.memberAlong path member) := by
  induction levels generalizing path member with
  | zero => omega
  | succ levels ih =>
    unfold renderMember memberAlong memberWith
    cases store.aliasName? member with
    | some name => exact .pure
    | none =>
      refine writes_renderOpen fun handed new inner => ih ?_
      have fewer := card_unopened_cons handed new
      omega

/--
The text of a type is the one along the path of handles from the root, for every store and handle.
With as many levels as the store has types, or more, the walk comes to that text whatever handles are
being written already; so does it for a member, with one level more. Both leave these handles as
they find them.
-/
theorem typeText_eq_textAlong (store : TypeStore) (id : TypeId) :
    store.typeText id = store.textAlong [] id ∧
      (∀ visiting more, (store.renderOpen (store.renderMember (store.types.size + more)) id).run
        visiting = some (store.textAlong visiting id, visiting)) ∧
      ∀ visiting more, (store.renderMember (store.types.size + more + 1) id).run visiting =
        some (store.memberAlong visiting id, visiting) := by
  have whole : ∀ visiting more,
      (store.renderOpen (store.renderMember (store.types.size + more)) id).run visiting =
        some (store.textAlong visiting id, visiting) := by
    intro visiting more
    refine writes_renderOpen fun handed new member => writes_renderMember ?_
    have fewer := card_unopened_cons handed new
    have few : (store.unopened visiting).card ≤ _ := card_unopened_le
    omega
  refine ⟨?_, whole, fun visiting more => writes_renderMember ?_⟩
  · unfold typeText
    rw [show store.types.size = store.types.size + 0 from rfl, whole [] 0]
  · have few : (store.unopened visiting).card ≤ _ := card_unopened_le
    omega

/-- A type that contains itself and, twice, a type without a name: the latter is written out both
times, the former is not. -/
example : typeText ⟨#[.composite .union [⟨1⟩, ⟨0⟩, ⟨1⟩], .array ⟨2⟩, .intrinsic .string], [], []⟩
    ⟨0⟩ = "string[] | #0 | string[]" := by
  decide

end TypeStore

end TypeSchema
