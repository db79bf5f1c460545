import TypeSchema.Proofs.Import.Rules

/-!
# Runs of an import

`Imports` says what an import of one type that succeeds does: it makes a leaf, refers to a completed
type, refers to a type it is inside of, or enters the type, imports the parts that the type's rule
asks for, leaves it and completes its node. Facts about imports are proved by induction on it. What
holds of imports that stop too is proved by the cases of `importWith_outcome`, and of
`importEntered_outcome` for a type that was entered.
-/

namespace TypeSchema

namespace ImportState

/-- The state in which the parts of a type are imported, with the guard that has entered it. -/
def begin (s : ImportState) (guard : WalkGuard TypeId) (id : TypeId) : ImportState :=
  ({ s with guard } : ImportState).setProgress id none

/-- The state after a type is left, with the guard that has left it. -/
def left (s : ImportState) (guard : WalkGuard TypeId) (id : TypeId) : ImportState :=
  { s with guard, inProgress := s.withoutProgress id }

/-- The state in which a type is completed under an identifier, if it has one. -/
def complete (s : ImportState) (id : TypeId) : Option String → ImportState
  | some identifier => { s with named := (id, identifier) :: s.named }
  | none => s

end ImportState

/-- A node under an identifier, if there is one. -/
def Schema.under (node : Schema) : Option String → Schema
  | some identifier => node.withIdentifier (some identifier)
  | none => node

namespace Importer

variable (importer : Importer)

/-- The identifier under which a type that was left is completed, and the state in which it is. -/
def conclude (isNested : Bool) (id : TypeId) (identifier : Option String) (s : ImportState) :
    Option String × ImportState :=
  match identifier with
  | some identifier => (some identifier, s)
  | none =>
    if isNested then
      match importer.aliasName? id with
      | some name => ((s.claim name).1, (s.claim name).2)
      | none => (none, s)
    else (none, s)

/-- The identifier that a type the walk is inside of is referred to by, and the state that knows. -/
def refer (id : TypeId) (s : ImportState) : String × ImportState :=
  match s.currentIdentifier? id with
  | some identifier => (identifier, s)
  | none =>
    let (identifier, claimed) :=
      match importer.aliasName? id with
      | some name => s.claim name
      | none => s.claimAnonymous importer.options.anonymousPrefix
    (identifier, claimed.setProgress id (some identifier))

/-- The node is what a leaf rule makes of the type. -/
inductive LeafNode (id : TypeId) : Schema → Prop where
  | literal {value : Literal} :
    importer.checker.ruleFor? id = some .literal →
    importer.checker.literalValue? id = some value →
    LeafNode id (.ofLiteral value)
  | primitive {type : Primitive} :
    importer.checker.ruleFor? id = some .primitive →
    (importer.checker.flags id).primitive? = some type →
    LeafNode id (.ofPrimitive type)

/-- An import of a type from one state gives a node and leaves another state. -/
inductive Imports : TypeId → ImportState → Schema → ImportState → Prop
  | leaf {id s node} :
    importer.LeafNode id node →
    Imports id s node s
  | named {id s identifier} :
    importer.importLeaf? id (importer.checker.flags id) = none →
    s.named.lookup id = some identifier →
    identifier ≠ "" →
    Imports id s (.reference identifier {}) s
  | cycle {id s guard} :
    importer.importLeaf? id (importer.checker.flags id) = none →
    s.named.lookup id = none →
    s.guard.enter id = (.cycle, guard) →
    (importer.refer id { s with guard }).1 ≠ "" →
    Imports id s (.reference (importer.refer id { s with guard }).1 {})
      (importer.refer id { s with guard }).2
  | entered {id s guard ids nodes inside guard' identifier s'} :
    importer.importLeaf? id (importer.checker.flags id) = none →
    s.named.lookup id = none →
    s.guard.enter id = (.entered, guard) →
    importer.steps id = ids.map .part →
    Walk.Threads Imports ids (s.begin guard id) nodes inside →
    inside.guard.leave id = .ok guard' →
    importer.conclude (1 < guard.depth) id (inside.currentIdentifier? id)
      (inside.left guard' id) = (identifier, s') →
    Imports id s ((importer.build id nodes).under identifier) (s'.complete id identifier)

variable {importer}

/-- Induction on an import: what holds of the imports of the parts holds of the import. -/
@[elab_as_elim]
theorem Imports.induct
    {motive : ∀ id s node s', importer.Imports id s node s' → Prop}
    (leaf : ∀ {id s node} (l : importer.LeafNode id node), motive id s node s (.leaf l))
    (named : ∀ {id s identifier}
      (n : importer.importLeaf? id (importer.checker.flags id) = none)
      (c : s.named.lookup id = some identifier) (ne : identifier ≠ ""),
      motive id s (.reference identifier {}) s (.named n c ne))
    (cycle : ∀ {id s guard}
      (n : importer.importLeaf? id (importer.checker.flags id) = none)
      (c : s.named.lookup id = none) (e : s.guard.enter id = (.cycle, guard))
      (ne : (importer.refer id { s with guard }).1 ≠ ""),
      motive id s (.reference (importer.refer id { s with guard }).1 {})
        (importer.refer id { s with guard }).2 (.cycle n c e ne))
    (entered : ∀ {id s guard ids nodes inside guard' identifier s'}
      (n : importer.importLeaf? id (importer.checker.flags id) = none)
      (c : s.named.lookup id = none) (e : s.guard.enter id = (.entered, guard))
      (p : importer.steps id = ids.map .part)
      (all : Walk.Threads importer.Imports ids (s.begin guard id) nodes inside)
      (l : inside.guard.leave id = .ok guard')
      (o : importer.conclude (1 < guard.depth) id (inside.currentIdentifier? id)
        (inside.left guard' id) = (identifier, s'))
      (_ih : Walk.Threads (fun id s node s' => ∃ h, motive id s node s' h)
        ids (s.begin guard id) nodes inside),
      motive id s ((importer.build id nodes).under identifier) (s'.complete id identifier)
        (.entered n c e p all l o))
    {id : TypeId} {s : ImportState} {node : Schema} {s' : ImportState}
    (h : importer.Imports id s node s') : motive id s node s' h := by
  refine @Imports.rec importer motive
    (fun ids s nodes s' _ => Walk.Threads (fun id s node s' => ∃ h, motive id s node s' h)
      ids s nodes s')
    leaf named cycle ?_ .nil ?_ id s node s' h
  · intro id s guard ids nodes inside guard' identifier s' n c e p all l o ih
    exact entered n c e p all l o ih
  · intro id ids s node s' nodes s'' h _ m all
    exact .cons ⟨h, m⟩ all

/-- A node is referred to by a name that is not empty. -/
lemma gives_referenceTo {target : String} {s s' : ImportState} {node : Schema} :
    (ImportWalk.constructed (Schema.referenceTo target)).Gives s node s' ↔
      target ≠ "" ∧ node = .reference target {} ∧ s' = s := by
  unfold Schema.referenceTo
  split
  case isTrue e =>
    constructor
    · intro h
      exact absurd h Walk.not_gives_fail
    · intro h
      exact absurd e h.1
  case isFalse e =>
    show (pure _ : ImportWalk Schema).Gives s node s' ↔ _
    rw [Walk.gives_pure]
    constructor
    · rintro ⟨rfl, rfl⟩
      exact ⟨e, rfl, rfl⟩
    · rintro ⟨-, rfl, rfl⟩
      exact ⟨rfl, rfl⟩

/-- A leaf rule makes one node of a type, or refuses it. -/
lemma importLeaf_cases {id : TypeId} {flags : TypeFlags} {leaf : ImportWalk Schema}
    (e : importer.importLeaf? id flags = some leaf) :
    (∃ node, leaf = pure node) ∨ leaf = importer.unsupported id := by
  obtain ⟨rule, -, e⟩ := List.exists_of_findSome?_eq_some e
  cases rule with
  | literal =>
    simp only [applyLeaf] at e
    split at e
    · split at e
      · exact .inl ⟨_, (Option.some.inj e).symm⟩
      · exact .inr (Option.some.inj e).symm
    · cases e
  | primitive =>
    simp only [applyLeaf, Option.map_eq_some_iff] at e
    obtain ⟨type, -, rfl⟩ := e
    exact .inl ⟨_, rfl⟩
  | _ => cases e

/-- The first leaf rule that applies is the first rule that applies. -/
lemma leafNode_of_gives {id : TypeId} {leaf : ImportWalk Schema} {s s' : ImportState}
    {node : Schema} (e : importer.importLeaf? id (importer.checker.flags id) = some leaf)
    (h : leaf.Gives s node s') : importer.LeafNode id node ∧ s' = s := by
  simp only [importLeaf?, ImportRule.all, List.findSome?_cons, applyLeaf] at e
  cases l : (importer.checker.flags id).hasLiteral with
  | true =>
    have r : importer.checker.ruleFor? id = some .literal := by
      simp [Checker.ruleFor?, ImportRule.all, ImportRule.applies, l]
    cases v : importer.checker.literalValue? id with
    | none =>
      simp only [l, v, if_true, Option.some.injEq] at e
      exact absurd (e ▸ h) Walk.not_gives_fail
    | some value =>
      simp only [l, v, if_true, Option.some.injEq] at e
      obtain ⟨rfl, rfl⟩ := Walk.gives_pure.1 (e ▸ h)
      exact ⟨.literal r v, rfl⟩
  | false =>
    cases p : (importer.checker.flags id).primitive? with
    | none => simp [l, p] at e
    | some type =>
      have r : importer.checker.ruleFor? id = some .primitive := by
        simp [Checker.ruleFor?, ImportRule.all, ImportRule.applies, l, p]
      simp only [l, p, Bool.false_eq_true, if_false, Option.map_some, Option.some.injEq] at e
      obtain ⟨rfl, rfl⟩ := Walk.gives_pure.1 (e ▸ h)
      exact ⟨.primitive r p, rfl⟩

/-- What a leaf rule makes of a type, it gives in every state. -/
lemma LeafNode.gives {id : TypeId} {node : Schema} (h : importer.LeafNode id node) :
    ∃ leaf, importer.importLeaf? id (importer.checker.flags id) = some leaf ∧
      ∀ s, leaf.Gives s node s := by
  cases h with
  | @literal value r v =>
    have l : (importer.checker.flags id).hasLiteral = true := Checker.applies_of_ruleFor? r
    refine ⟨pure (.ofLiteral value), ?_, fun s => rfl⟩
    simp [importLeaf?, ImportRule.all, applyLeaf, l, v]
  | @primitive type r p =>
    have l : (importer.checker.flags id).hasLiteral = false := by
      cases l : (importer.checker.flags id).hasLiteral with
      | true => simp [Checker.ruleFor?, ImportRule.all, ImportRule.applies, l] at r
      | false => rfl
    refine ⟨pure (.ofPrimitive type), ?_, fun s => rfl⟩
    simp [importLeaf?, ImportRule.all, applyLeaf, l, p]

/-- A type with a leaf node has a leaf rule. -/
lemma LeafNode.importLeaf?_ne_none {id : TypeId} {node : Schema} (h : importer.LeafNode id node) :
    importer.importLeaf? id (importer.checker.flags id) ≠ none := by
  obtain ⟨leaf, e, -⟩ := h.gives
  rw [e]
  exact nofun

/-- The step that completes a type gives its node under its identifier. -/
lemma gives_complete {id : TypeId} {identifier : Option String} {node node' : Schema}
    {s s' : ImportState} :
    (complete id identifier node).Gives s node' s' ↔
      node' = node.under identifier ∧ s' = s.complete id identifier := by
  cases identifier with
  | none => exact Walk.gives_pure.trans (and_congr eq_comm eq_comm)
  | some name =>
    unfold complete
    rw [Walk.gives_bind]
    constructor
    · rintro ⟨_, s1, h1, h2⟩
      obtain rfl := Walk.gives_modify.1 h1
      obtain ⟨rfl, rfl⟩ := Walk.gives_pure.1 h2
      exact ⟨rfl, rfl⟩
    · rintro ⟨rfl, rfl⟩
      exact ⟨(), _, Walk.gives_modify.2 rfl, Walk.gives_pure.2 ⟨rfl, rfl⟩⟩

/-- Completing a type never stops. -/
lemma run_complete {id : TypeId} {identifier : Option String} {node : Schema} {s : ImportState} :
    (complete id identifier node).run s = (.ok (node.under identifier), s.complete id identifier) :=
  gives_complete.2 ⟨rfl, rfl⟩

/-- A type that was entered is left whether its structure is imported or not, and completed if it
is. -/
lemma run_importEntered {body : ImportWalk Schema} {isNested : Bool} {id : TypeId}
    {s : ImportState} :
    (importer.importEntered body isNested id).run s =
      match body.run (s.setProgress id none) with
      | (result, inside) =>
        match inside.guard.leave id with
        | .error misuse => (.error (.misused misuse), inside)
        | .ok guard =>
          match result with
          | .error stop => (.error stop, inside.left guard id)
          | .ok built =>
            let concluded := importer.conclude isNested id (inside.currentIdentifier? id)
              (inside.left guard id)
            (complete id concluded.1 built).run concluded.2 := by
  dsimp only [importEntered, Walk.run]
  cases body (s.setProgress id none) with
  | mk result inside =>
    dsimp only
    cases inside.guard.leave id with
    | error misuse => rfl
    | ok guard =>
      cases result with
      | error stop => rfl
      | ok built =>
        dsimp only [conclude]
        cases inside.currentIdentifier? id with
        | some identifier => rfl
        | none =>
          cases isNested with
          | false => rfl
          | true =>
            dsimp only [if_true]
            show (importer.aliasIdentifier id >>= _).run _ = _
            rw [Walk.run_bind]
            dsimp only [aliasIdentifier, Walk.run]
            cases importer.aliasName? id <;> rfl

/-- A type that was entered is not left, or it is left where its structure stops, or it is left and
completed. -/
@[elab_as_elim]
theorem importEntered_outcome {body : ImportWalk Schema} {isNested : Bool} {id : TypeId}
    {s : ImportState} {motive : Except (WalkStop ImportError) Schema × ImportState → Prop}
    (misused : ∀ result inside misuse, body.run (s.setProgress id none) = (result, inside) →
      inside.guard.leave id = .error misuse → motive (.error (.misused misuse), inside))
    (stopped : ∀ stop inside guard, body.run (s.setProgress id none) = (.error stop, inside) →
      inside.guard.leave id = .ok guard → motive (.error stop, inside.left guard id))
    (completed : ∀ built inside guard identifier t,
      body.run (s.setProgress id none) = (.ok built, inside) → inside.guard.leave id = .ok guard →
      importer.conclude isNested id (inside.currentIdentifier? id) (inside.left guard id) =
        (identifier, t) →
      motive (.ok (built.under identifier), t.complete id identifier)) :
    motive ((importer.importEntered body isNested id).run s) := by
  rw [run_importEntered]
  cases e : body.run (s.setProgress id none) with
  | mk result inside =>
    dsimp only
    cases l : inside.guard.leave id with
    | error misuse => exact misused result inside misuse e l
    | ok guard =>
      cases result with
      | error stop => exact stopped stop inside guard e l
      | ok built =>
        dsimp only
        rw [run_complete]
        exact completed built inside guard _ _ e l rfl

/-- A type that was entered is left and completed if its structure is imported. -/
lemma gives_importEntered {body : ImportWalk Schema} {isNested : Bool} {id : TypeId}
    {s s' : ImportState} {node : Schema} :
    (importer.importEntered body isNested id).Gives s node s' ↔
      ∃ built inside guard identifier s1,
        body.Gives (s.setProgress id none) built inside ∧
        inside.guard.leave id = .ok guard ∧
        importer.conclude isNested id (inside.currentIdentifier? id) (inside.left guard id) =
          (identifier, s1) ∧
        node = built.under identifier ∧ s' = s1.complete id identifier := by
  constructor
  · unfold Walk.Gives
    refine importEntered_outcome ?_ ?_ ?_
    · rintro result inside misuse - - h
      cases h
    · rintro stop inside guard - - h
      cases h
    · rintro built inside guard identifier s1 e l c h
      cases h
      exact ⟨built, inside, guard, identifier, s1, e, l, c, rfl, rfl⟩
  · rintro ⟨built, inside, guard, identifier, s1, e, l, c, e1, e2⟩
    unfold Walk.Gives at e ⊢
    rw [run_importEntered, e]
    dsimp only
    rw [l]
    dsimp only
    rw [c]
    exact gives_complete.2 ⟨e1, e2⟩

/-- A type that was entered stops where its structure does, unless it is not left. -/
lemma stop_of_importEntered {body : ImportWalk Schema} {isNested : Bool} {id : TypeId}
    {s s' : ImportState} {stop : WalkStop ImportError}
    (e : (importer.importEntered body isNested id).run s = (.error stop, s')) :
    (∃ inside, body.run (s.setProgress id none) = (.error stop, inside)) ∨
      ∃ misuse, stop = .misused misuse := by
  revert e
  refine importEntered_outcome ?_ ?_ ?_
  · rintro result inside misuse - - e
    cases e
    exact .inr ⟨misuse, rfl⟩
  · rintro stop inside guard r - e
    cases e
    exact .inl ⟨inside, r⟩
  · rintro built inside guard identifier t - - - e
    cases e

/-- The identifier a type is referred to by is always given. -/
lemma gives_identifierFor {id : TypeId} {s s' : ImportState} {identifier : String} :
    (importer.identifierFor id).Gives s identifier s' ↔
      importer.refer id s = (identifier, s') := by
  unfold Walk.Gives identifierFor refer
  show ((match s.currentIdentifier? id with
    | some identifier => _
    | none => _) : Except (WalkStop ImportError) String × ImportState) = _ ↔ _
  cases s.currentIdentifier? id with
  | some name => simp
  | none => cases importer.aliasName? id <;> simp

/-- Taking steps that name types is importing these types. -/
lemma mapM_take_part {importPart : TypeId → ImportWalk Schema} {ids : List TypeId} :
    (ids.map .part).mapM (ImportStep.take importPart) = ids.mapM importPart := by
  induction ids with
  | nil => rfl
  | cons id ids ih => simp [List.mapM_cons, ih, ImportStep.take]

/-- The structure of a type is imported by importing the parts its steps name. -/
lemma gives_importStructure {importPart : TypeId → ImportWalk Schema} {id : TypeId}
    {s s' : ImportState} {node : Schema}
    (n : importer.importLeaf? id (importer.checker.flags id) = none) :
    (importer.importStructure importPart id (importer.checker.flags id)).Gives s node s' ↔
      ∃ (ids : List TypeId) (nodes : List Schema), importer.steps id = ids.map .part ∧
        (ids.mapM importPart).Gives s nodes s' ∧ node = importer.build id nodes := by
  rw [importStructure_eq n, Walk.gives_bind]
  constructor
  · rintro ⟨nodes, s1, h1, h2⟩
    obtain ⟨rfl, rfl⟩ := Walk.gives_pure.1 h2
    obtain ⟨ids, e⟩ := steps_of_gives h1
    rw [e, mapM_take_part] at h1
    exact ⟨ids, nodes, e, h1, rfl⟩
  · rintro ⟨ids, nodes, e, h1, rfl⟩
    rw [e, mapM_take_part]
    exact ⟨nodes, s', h1, Walk.gives_pure.2 ⟨rfl, rfl⟩⟩

/-- The walk that imports the parts of a type, if there is room to enter it. -/
def partWalk? (importer : Importer) : (room : Nat) → Option (TypeId → ImportWalk Schema)
  | 0 => none
  | room + 1 => some (importer.importType room)

/-- The room decides only how parts are imported. -/
lemma importType_eq {room : Nat} :
    importer.importType room = importer.importWith (importer.partWalk? room) := by
  cases room <;> rfl

/-- A type with a leaf rule is imported by it. -/
lemma importWith_of_leaf {importPart? : Option (TypeId → ImportWalk Schema)} {id : TypeId}
    {leaf : ImportWalk Schema}
    (l : importer.importLeaf? id (importer.checker.flags id) = some leaf) :
    importer.importWith importPart? id = leaf := by
  simp only [importWith, l]

/-- A type that is no leaf is referred to if it is completed, and put to the guard if not. -/
lemma run_importWith {importPart? : Option (TypeId → ImportWalk Schema)} {id : TypeId}
    {s : ImportState} (n : importer.importLeaf? id (importer.checker.flags id) = none) :
    (importer.importWith importPart? id).run s =
      match s.named.lookup id with
      | some identifier => (ImportWalk.constructed (Schema.referenceTo identifier)).run s
      | none =>
        match s.guard.enter id with
        | (answer, guard) =>
          match answer, importPart? with
          | .entered, some importPart =>
            (importer.importEntered
              (importer.importStructure importPart id (importer.checker.flags id))
              (decide (1 < guard.depth)) id).run { s with guard }
          | .cycle, _ =>
            (do ImportWalk.constructed (Schema.referenceTo (← importer.identifierFor id)) :
              ImportWalk Schema).run { s with guard }
          | _, _ => (importer.limitExceeded id).run { s with guard } := by
  simp only [importWith, n]
  rfl

/-- A type is imported by a leaf rule, referred to as it is completed, entered, referred to as the
walk is inside of it, or given up for a limit. -/
@[elab_as_elim]
theorem importWith_outcome {importPart? : Option (TypeId → ImportWalk Schema)} {id : TypeId}
    {s : ImportState} {motive : Except (WalkStop ImportError) Schema × ImportState → Prop}
    (leaf : ∀ walk, importer.importLeaf? id (importer.checker.flags id) = some walk →
      motive (walk.run s))
    (named : importer.importLeaf? id (importer.checker.flags id) = none →
      ∀ identifier, s.named.lookup id = some identifier →
        motive ((ImportWalk.constructed (Schema.referenceTo identifier)).run s))
    (entered : importer.importLeaf? id (importer.checker.flags id) = none →
      s.named.lookup id = none → ∀ guard, s.guard.enter id = (.entered, guard) →
        ∀ importPart, importPart? = some importPart →
          motive ((importer.importEntered
            (importer.importStructure importPart id (importer.checker.flags id))
            (decide (1 < guard.depth)) id).run { s with guard }))
    (cycle : importer.importLeaf? id (importer.checker.flags id) = none →
      s.named.lookup id = none → ∀ guard, s.guard.enter id = (.cycle, guard) →
        motive ((do ImportWalk.constructed (Schema.referenceTo (← importer.identifierFor id)) :
          ImportWalk Schema).run { s with guard }))
    (limited : importer.importLeaf? id (importer.checker.flags id) = none →
      s.named.lookup id = none → ∀ answer guard, s.guard.enter id = (answer, guard) →
        answer = .entered ∧ importPart? = none ∨ answer = .depthExceeded ∨
          answer = .iterationExceeded →
        motive ((importer.limitExceeded id).run { s with guard })) :
    motive ((importer.importWith importPart? id).run s) := by
  cases n : importer.importLeaf? id (importer.checker.flags id) with
  | some walk =>
    rw [importWith_of_leaf n]
    exact leaf walk n
  | none =>
    rw [run_importWith n]
    cases c : s.named.lookup id with
    | some identifier => exact named n identifier c
    | none =>
      cases e : s.guard.enter id with
      | mk answer guard =>
        cases answer with
        | entered =>
          cases importPart? with
          | some importPart => exact entered n c guard e importPart rfl
          | none => exact limited n c _ guard e (.inl ⟨rfl, rfl⟩)
        | cycle => exact cycle n c guard e
        | depthExceeded => exact limited n c _ guard e (.inr (.inl rfl))
        | iterationExceeded => exact limited n c _ guard e (.inr (.inr rfl))

/-- An import that gives a node runs as `Imports` says. -/
theorem imports_of_gives {room : Nat} {id : TypeId} {s s' : ImportState} {node : Schema}
    (h : (importer.importType room id).Gives s node s') : importer.Imports id s node s' := by
  induction room using Nat.strongRecOn generalizing id s node s' with
  | ind room ih =>
    revert h
    unfold Walk.Gives
    rw [importType_eq]
    refine importWith_outcome ?leaf ?named ?entered ?cycle ?limited
    case leaf =>
      intro walk n h
      obtain ⟨l, rfl⟩ := leafNode_of_gives n h
      exact .leaf l
    case named =>
      intro n identifier c h
      obtain ⟨e, rfl, rfl⟩ := gives_referenceTo.1 h
      exact .named n c e
    case entered =>
      intro n c guard e importPart r h
      cases room with
      | zero => cases r
      | succ room =>
        cases r
        obtain ⟨built, inside, guard', identifier, s1, h1, l, o, rfl, rfl⟩ :=
          gives_importEntered.1 h
        obtain ⟨ids, nodes, p, h2, rfl⟩ := (gives_importStructure n).1 h1
        have all := (Walk.gives_mapM.1 h2).imp fun _ _ _ _ => ih room (Nat.lt_succ_self room)
        exact .entered n c e p all l o
    case cycle =>
      intro n c guard e h
      obtain ⟨identifier, s1, h1, h2⟩ := Walk.gives_bind.1 h
      have r := gives_identifierFor.1 h1
      obtain ⟨ne, rfl, rfl⟩ := gives_referenceTo.1 h2
      have i := Imports.cycle n c e (by rw [r]; exact ne)
      rwa [r] at i
    case limited =>
      intro n c answer guard e limit h
      exact absurd h Walk.not_gives_fail

/-- A type is imported in one way from each state. -/
theorem Imports.unique {id : TypeId} {s s' t : ImportState} {node other : Schema}
    (h : importer.Imports id s node s') (h' : importer.Imports id s other t) :
    other = node ∧ t = s' := by
  induction h using Imports.induct generalizing other t with
  | @leaf _ s _ l =>
    cases h' with
    | leaf l' =>
      obtain ⟨leaf, found, gives⟩ := l.gives
      obtain ⟨leaf', found', gives'⟩ := l'.gives
      cases found.symm.trans found'
      cases (gives s).symm.trans (gives' s)
      exact ⟨rfl, rfl⟩
    | named n _ _ | cycle n _ _ _ | entered n _ _ _ _ _ _ =>
      exact absurd n l.importLeaf?_ne_none
  | named n c _ =>
    cases h' with
    | leaf l' => exact absurd n l'.importLeaf?_ne_none
    | named _ c' _ =>
      cases c.symm.trans c'
      exact ⟨rfl, rfl⟩
    | cycle _ c' _ _ | entered _ c' _ _ _ _ _ => cases c.symm.trans c'
  | cycle n c e _ =>
    cases h' with
    | leaf l' => exact absurd n l'.importLeaf?_ne_none
    | named _ c' _ => cases c.symm.trans c'
    | cycle _ _ e' _ =>
      cases e.symm.trans e'
      exact ⟨rfl, rfl⟩
    | entered _ _ e' _ _ _ _ => cases e.symm.trans e'
  | entered n c e p _ l o ih =>
    cases h' with
    | leaf l' => exact absurd n l'.importLeaf?_ne_none
    | named _ c' _ => cases c.symm.trans c'
    | cycle _ _ e' _ => cases e.symm.trans e'
    | entered _ _ e' p' all' l' o' =>
      cases e.symm.trans e'
      obtain rfl := map_part_injective (p.symm.trans p')
      -- The parts are imported one after the other from the same state, so in the same way.
      obtain ⟨rfl, rfl⟩ := Walk.Threads.unique (ih.imp fun _ _ _ _ ⟨_, only⟩ _ _ h => only h) all'
      cases l.symm.trans l'
      cases o.symm.trans o'
      exact ⟨rfl, rfl⟩

/-! ## What an import gives -/

section

variable {id : TypeId} {s s' : ImportState} {node : Schema} {room : Nat}

/-- A leaf is imported in every state, which stays as it is. -/
lemma gives_importType_of_leaf (l : importer.LeafNode id node) :
    (importer.importType room id).Gives s node s := by
  obtain ⟨leaf, e, g⟩ := l.gives
  rw [importType_eq, importWith_of_leaf e]
  exact g s

/-- A completed type is referred to by its identifier. -/
lemma gives_importType_of_named {identifier : String}
    (n : importer.importLeaf? id (importer.checker.flags id) = none)
    (c : s.named.lookup id = some identifier) (ne : identifier ≠ "") :
    (importer.importType room id).Gives s (.reference identifier {}) s := by
  unfold Walk.Gives
  rw [importType_eq, run_importWith n, c]
  exact gives_referenceTo.2 ⟨ne, rfl, rfl⟩

/-- A type that the walk is inside of is referred to. -/
lemma gives_importType_of_cycle {guard : WalkGuard TypeId}
    (n : importer.importLeaf? id (importer.checker.flags id) = none)
    (c : s.named.lookup id = none) (e : s.guard.enter id = (.cycle, guard))
    (ne : (importer.refer id { s with guard }).1 ≠ "") :
    (importer.importType room id).Gives s
      (.reference (importer.refer id { s with guard }).1 {})
      (importer.refer id { s with guard }).2 := by
  unfold Walk.Gives
  rw [importType_eq, run_importWith n, c, e]
  exact Walk.gives_bind.2 ⟨_, _, gives_identifierFor.2 rfl, gives_referenceTo.2 ⟨ne, rfl, rfl⟩⟩

/-- A type that is entered is imported from its parts. -/
lemma gives_importType_of_entered {guard guard' : WalkGuard TypeId} {ids : List TypeId}
    {nodes : List Schema} {inside : ImportState} {identifier : Option String}
    (n : importer.importLeaf? id (importer.checker.flags id) = none)
    (c : s.named.lookup id = none) (e : s.guard.enter id = (.entered, guard))
    (p : importer.steps id = ids.map .part)
    (all : (ids.mapM (importer.importType room)).Gives (s.begin guard id) nodes inside)
    (l : inside.guard.leave id = .ok guard')
    (o : importer.conclude (1 < guard.depth) id (inside.currentIdentifier? id)
      (inside.left guard' id) = (identifier, s')) :
    (importer.importType (room + 1) id).Gives s ((importer.build id nodes).under identifier)
      (s'.complete id identifier) := by
  unfold Walk.Gives
  rw [importType_eq, run_importWith n, c, e]
  exact gives_importEntered.2 ⟨_, inside, guard', identifier, s',
    (gives_importStructure n).2 ⟨ids, nodes, p, all, rfl⟩, l, o, rfl, rfl⟩

end

end Importer

end TypeSchema
