import TypeSchema.Proofs.Lowering.Reachable
import TypeSchema.Proofs.Lowering.Run

/-!
# Faithfulness of a lowering

The handle that a declaration is lowered to denotes its body. While declarations are lowered this
holds of every name that is resolved, except for those whose bodies are being lowered: their handles
are reserved and stand for nothing yet. An expression that refers to one of these is denoted all the
same, since a name is denoted by whatever handle it has.
-/

namespace TypeSchema

namespace LowerState

/-- A lowering takes nothing back, and literal values keep their handles. -/
structure Advances (s s' : LowerState) : Prop extends s.Leads s' where
  interned : ∀ value id, s.store.Interned value id → s'.store.Interned value id

/-- The handle denotes the expression, where names have the handles that they are resolved to. -/
def Denotes (s : LowerState) (type : TypeExpr) (id : TypeId) : Prop :=
  s.store.Denotes (fun name => s.resolved.lookup name) type id

/-- The handle denotes the body of the declaration of the name, and has the name as its alias name
if the body has parts. -/
def Stands (s : LowerState) (declarations : List Declaration) (name : String) (id : TypeId) :
    Prop :=
  ∃ declaration, declared? declarations name = some declaration ∧ s.Denotes declaration.type id ∧
    (declaration.type.isStructural = true → s.store.aliasName? id = some name)

/-- Every name that is resolved stands for its declaration, except for names whose bodies are being
lowered. -/
structure Faithful (s : LowerState) (declarations : List Declaration) (pending : List String) :
    Prop where
  regular : s.store.Regular
  reserved : ∀ name ∈ pending, s.resolved.lookup name ≠ none
  stands : ∀ name id, s.resolved.lookup name = some id → name ∉ pending →
    s.Stands declarations name id

variable {s s' s'' : LowerState} {declarations : List Declaration} {pending : List String}
  {type : TypeExpr} {name : String} {id : TypeId}

lemma Advances.refl (s : LowerState) : s.Advances s := ⟨.refl s, fun _ _ h => h⟩

lemma Advances.trans (h : s.Advances s') (h' : s'.Advances s'') : s.Advances s'' :=
  ⟨h.toLeads.trans h'.toLeads, fun value id i => h'.interned value id (h.interned value id i)⟩

lemma Advances.retains (h : s.Advances s') : s.store.Retains s'.store := ⟨h.grows.keeps, h.interned⟩

/-- What is resolved stays so. -/
lemma Advances.resolved_ne_none (h : s.Advances s') (r : s.resolved.lookup name ≠ none) :
    s'.resolved.lookup name ≠ none := by
  obtain ⟨id, r⟩ := Option.ne_none_iff_exists'.1 r
  rw [h.resolved name id r]
  exact nofun

lemma Denotes.advances (h : s.Denotes type id) (a : s.Advances s') : s'.Denotes type id :=
  TypeStore.Denotes.mono h a.retains a.resolved

/-- A name is denoted by the handle that it is resolved to. -/
lemma Denotes.resolved (h : s.Denotes (.named name []) id) : s.resolved.lookup name = some id := by
  cases h with
  | name found => exact found
  | parted shape => cases shape

/-- What has parts is denoted by data. -/
lemma Denotes.index_lt (h : s.Denotes type id) (k : type.isStructural = true) :
    id.index < s.store.types.size := by
  cases h with
  | keyword => cases k
  | literal => cases k
  | name => cases k
  | parted _ _ found => exact TypeStore.index_lt found

lemma Stands.mono (h : s.Stands declarations name id) (r : s.store.Retains s'.store)
    (known : ∀ name id, s.resolved.lookup name = some id → s'.resolved.lookup name = some id) :
    s'.Stands declarations name id := by
  obtain ⟨declaration, c, d, named⟩ := h
  refine ⟨declaration, c, d.mono r known, fun k => ?_⟩
  rw [r.names id (d.index_lt k)]
  exact named k

end LowerState

namespace Lowering

variable {lowerPart : TypeExpr → LowerWalk TypeId} {declarations : List Declaration}
  {s s' : LowerState} {pending : List String} {type : TypeExpr} {types : List TypeExpr}
  {id : TypeId} {ids : List TypeId} {data : TypeData} {name : String}

/-- What lowering an expression faithfully leads to. -/
structure Outcome (declarations : List Declaration) (pending : List String) (s : LowerState)
    (type : TypeExpr) (id : TypeId) (s' : LowerState) : Prop where
  advances : s.Advances s'
  faithful : s'.Faithful declarations pending
  denotes : s'.Denotes type id

/-! ## Handles of expressions -/

lemma advances_literal (value : Literal) :
    s.Advances { s with store := (s.store.literal value).2 } := by
  by_cases i : ∃ id, s.store.Interned value id
  · obtain ⟨id, i⟩ := i
    rw [TypeStore.literal_of_interned i]
    exact .refl s
  · have fresh := not_exists.1 i
    rw [(TypeStore.literal_of_not_interned fresh).1]
    refine ⟨⟨TypeStore.grows_intern value, rfl, fun _ _ e => e⟩, fun other id found => ?_⟩
    exact found.intern fresh

lemma outcome_literal (f : s.Faithful declarations pending) (value : Literal) :
    Outcome declarations pending s (.literal value) (s.store.literal value).1
      { s with store := (s.store.literal value).2 } := by
  have a := advances_literal (s := s) value
  have regular := f.regular.literal value
  have i := s.store.interned_literal value
  refine ⟨a, ⟨regular, f.reserved, fun name id r n => ?_⟩, ?_⟩
  · exact (f.stands name id r n).mono a.retains a.resolved
  · exact .literal i (regular.lookup_of_interned i)

lemma advances_place : s.Advances { s with store := s.store.place data } :=
  ⟨⟨TypeStore.grows_place, rfl, fun _ _ e => e⟩, fun _ _ i => i.congr TypeStore.literalIds_place⟩

/-- An expression with parts is denoted by the new handle that its data is placed at. -/
lemma outcome_place {t : LowerState} (a : s.Advances t) (f : t.Faithful declarations pending)
    (shape : t.store.HasShape type ids data) (parts : List.Forall₂ t.Denotes type.parts ids) :
    Outcome declarations pending s type t.store.nextId
      { t with store := t.store.place data } := by
  have a' : t.Advances { t with store := t.store.place data } := advances_place
  refine ⟨a.trans a', ⟨f.regular.place, f.reserved, fun name id r n => ?_⟩, ?_⟩
  · exact (f.stands name id r n).mono a'.retains a'.resolved
  · exact .parted (shape.mono a'.retains.toKeeps) (parts.imp fun _ _ d => d.advances a')
      TypeStore.lookup_place

/-! ## Aliases -/

/-- What resolving an alias faithfully leads to. -/
structure Resolves (declarations : List Declaration) (pending : List String) (s : LowerState)
    (name : String) (id : TypeId) (s' : LowerState) : Prop where
  advances : s.Advances s'
  faithful : s'.Faithful declarations pending
  resolved : s'.resolved.lookup name = some id

end Lowering

namespace Lowering

variable {lowerPart : TypeExpr → LowerWalk TypeId} {declarations : List Declaration}
  {s s' t : LowerState} {pending : List String} {type : TypeExpr} {id id' : TypeId}
  {ids : List TypeId} {data : TypeData} {name other : String} {chain : List String}
  {declaration : Declaration}
  {resolved : List (String × TypeId)}

lemma lookup_withChain (m : name ∈ chain) :
    (s.withChain chain id).resolved.lookup name = some id := by
  show List.lookup name (chain.map (fun name => (name, id)) ++ s.resolved) = some id
  induction chain with
  | nil => cases m
  | cons first chain ih =>
    rw [List.map_cons, List.cons_append, List.lookup_cons]
    split
    case h_1 => rfl
    case h_2 ne =>
      refine ih (List.mem_of_ne_of_mem ?_ m)
      rwa [beq_eq_false_iff_ne] at ne

lemma lookup_withChain_of_not_mem (n : name ∉ chain) :
    (s.withChain chain id).resolved.lookup name = s.resolved.lookup name := by
  show List.lookup name (chain.map (fun name => (name, id)) ++ s.resolved) = _
  induction chain with
  | nil => rfl
  | cons first chain ih =>
    obtain ⟨ne, n⟩ := List.ne_and_not_mem_of_not_mem_cons n
    rw [List.map_cons, List.cons_append, lookup_cons_of_ne ne]
    exact ih n

/-- Names of a chain that have the handle already, or none, may be resolved to it. -/
lemma advances_withChain
    (same : ∀ name ∈ chain, ∀ id', s.resolved.lookup name = some id' → id' = id) :
    s.Advances (s.withChain chain id) := by
  refine ⟨⟨.refl _, rfl, fun name id' e => ?_⟩, fun _ _ i => i⟩
  by_cases m : name ∈ chain
  · rw [lookup_withChain m, same name m id' e]
  · rw [lookup_withChain_of_not_mem m, e]

/-- Names are resolved faithfully to what they stand for. -/
lemma resolves_withChain (f : s.Faithful declarations pending)
    (a : s.Advances (s.withChain chain id))
    (stands : ∀ name ∈ chain, (s.withChain chain id).Stands declarations name id)
    (m : name ∈ chain) :
    Resolves declarations pending s name id (s.withChain chain id) := by
  refine ⟨a, ⟨f.regular, fun name mp => a.resolved_ne_none (f.reserved name mp),
    fun other id' r n => ?_⟩, lookup_withChain m⟩
  by_cases mo : other ∈ chain
  · obtain rfl := Option.some.inj ((lookup_withChain mo).symm.trans r)
    exact stands other mo
  · rw [lookup_withChain_of_not_mem mo] at r
    exact (f.stands other id' r n).mono a.retains a.resolved

/-! ### Chains -/

/-- A name that stands for an alias stands for whatever that is resolved to. -/
lemma lookup_of_stands (h : s.Stands declarations declaration.name id)
    (c : declared? declarations declaration.name = some declaration)
    (e : declaration.type = .named other []) : s.resolved.lookup other = some id := by
  obtain ⟨declaration', c', d, -⟩ := h
  obtain rfl := Option.some.inj (c.symm.trans c')
  rw [e] at d
  exact d.resolved

/-- All names of a chain have the handle of the last one, if any: where one of them is resolved, so
is the next. -/
lemma AliasChain.lookup_last (l : AliasChain declarations resolved chain declaration)
    (f : s.Faithful declarations pending) (n : ∀ name ∈ chain, name ∉ pending) (m : name ∈ chain)
    (r : s.resolved.lookup name = some id) : s.resolved.lookup declaration.name = some id := by
  induction l with
  | start =>
    cases List.mem_singleton.1 m
    exact r
  | @next chain declaration following before e _ _ ih =>
    cases m with
    | head => exact r
    | tail _ m =>
      have r := ih (fun name m => n name (List.mem_cons_of_mem _ m)) m
      have stands := f.stands declaration.name id r
        (n _ (List.mem_cons_of_mem _ before.mem_last))
      exact lookup_of_stands stands before.declared e

/-- All names of a chain stand for what the last one stands for. -/
lemma AliasChain.stands (l : AliasChain declarations resolved chain declaration)
    (known : ∀ name ∈ chain, s.resolved.lookup name = some id)
    (last : s.Stands declarations declaration.name id) :
    ∀ name ∈ chain, s.Stands declarations name id := by
  induction l with
  | start =>
    intro name m
    cases List.mem_singleton.1 m
    exact last
  | @next chain declaration following before e _ _ ih =>
    obtain ⟨here, others⟩ := List.forall_mem_cons.1 known
    refine List.forall_mem_cons.2 ⟨last, ih others ⟨declaration, before.declared, ?_, ?_⟩⟩
    · rw [e]
      exact .name here
    · rw [e]
      exact nofun

/-! ### Bodies -/

/-- While a body with parts is lowered, its name is resolved to a handle that stands for nothing. -/
lemma faithful_resolving (f : s.Faithful declarations pending)
    (r : s.resolved.lookup name = none) :
    s.Advances (s.resolving name) ∧ (s.resolving name).Faithful declarations (name :: pending) := by
  have others : ∀ other ≠ name,
      (s.resolving name).resolved.lookup other = s.resolved.lookup other := by
    intro other ne
    show List.lookup other ((name, s.store.nextId) :: s.resolved) = _
    rw [lookup_cons_of_ne ne]
  have here : (s.resolving name).resolved.lookup name = some s.store.nextId := List.lookup_cons_self
  have a : s.Advances (s.resolving name) := by
    refine ⟨⟨TypeStore.grows_reserveNamed, rfl, fun other id e => ?_⟩, fun _ _ i => i.congr rfl⟩
    have ne : other ≠ name := by
      rintro rfl
      rw [r] at e
      cases e
    rw [others other ne, e]
  refine ⟨a, f.regular.reserveNamed, ?_, fun other id e n => ?_⟩
  · refine List.forall_mem_cons.2 ⟨?_, fun other m => ?_⟩
    · rw [here]
      exact nofun
    · by_cases ne : other = name
      · rw [ne, here]
        exact nofun
      · rw [others other ne]
        exact f.reserved other m
  · obtain ⟨ne, n⟩ := List.ne_and_not_mem_of_not_mem_cons n
    rw [others other ne] at e
    exact (f.stands other id e n).mono a.retains a.resolved

/-- A body with parts is denoted by the handle that was reserved for it, once that is defined. -/
lemma resolves_define (c : declared? declarations declaration.name = some declaration)
    (r : s.resolved.lookup declaration.name = none) (f : s.Faithful declarations pending)
    (a1 : (s.resolving declaration.name).Advances t)
    (f2 : t.Faithful declarations (declaration.name :: pending))
    (shape : t.store.HasShape declaration.type ids data)
    (parts : List.Forall₂ t.Denotes declaration.type.parts ids) :
    Resolves declarations pending s declaration.name s.store.nextId
      { t with store := (t.store.define s.store.nextId data).2 } := by
  obtain ⟨a, -⟩ := faithful_resolving f r
  -- Lowering the parts leaves the handle reserved, so that it is this body that defines it.
  have reserved : t.store.lookup s.store.nextId = some .pending :=
    a1.grows.lookup_some TypeStore.lookup_alloc
  have retains : t.store.Retains (t.store.define s.store.nextId data).2 :=
    TypeStore.retains_define reserved
  have here : t.resolved.lookup declaration.name = some s.store.nextId :=
    a1.resolved _ _ List.lookup_cons_self
  refine ⟨⟨⟨?_, a1.depth, ?_⟩, ?_⟩, ⟨f2.regular.define, ?_, ?_⟩, here⟩
  · exact (a.grows.trans a1.grows).define reserved (Nat.le_refl _) data
  · exact fun name id e => a1.resolved name id (a.resolved name id e)
  · exact fun value id i => retains.interned value id (a1.interned value id (a.interned value id i))
  · exact fun name m => f2.reserved name (List.mem_cons_of_mem _ m)
  · intro name id e n
    by_cases eq : name = declaration.name
    · subst eq
      obtain rfl := Option.some.inj (here.symm.trans e)
      refine ⟨declaration, c, ?_, fun _ => ?_⟩
      · exact .parted (shape.mono retains.toKeeps)
          (parts.imp fun _ _ d => d.mono retains fun _ _ e => e) (TypeStore.lookup_define reserved)
      · show (t.store.define _ data).2.aliasName? _ = _
        rw [TypeStore.aliasName?_define reserved]
        exact (a1.grows.names _ (TypeStore.index_lt TypeStore.lookup_alloc)).trans
          TypeStore.aliasName?_reserveNamed
    · exact (f2.stands name id e (List.not_mem_cons_of_ne_of_not_mem eq n)).mono retains
        fun _ _ e => e

/-- A body without parts has no other handle on the way. -/
lemma advances_of_outcome (c : declared? declarations declaration.name = some declaration)
    (r : s.resolved.lookup declaration.name = none) (k : declaration.type.isStructural = false)
    (f : s.Faithful declarations pending)
    (o : Outcome declarations pending s declaration.type id t) :
    t.Advances (t.withChain [declaration.name] id) := by
  refine advances_withChain fun name m id' e => ?_
  cases List.mem_singleton.1 m
  obtain ⟨declaration', c', d, -⟩ := o.faithful.stands _ id' e fun m => f.reserved _ m r
  obtain rfl := Option.some.inj (c.symm.trans c')
  exact d.unique o.denotes k

/-- A body without parts is denoted by the handle that it is lowered to. -/
lemma resolves_of_outcome (c : declared? declarations declaration.name = some declaration)
    (r : s.resolved.lookup declaration.name = none) (k : declaration.type.isStructural = false)
    (f : s.Faithful declarations pending)
    (o : Outcome declarations pending s declaration.type id t) :
    Resolves declarations pending s declaration.name id (t.withChain [declaration.name] id) := by
  have a := advances_of_outcome c r k f o
  have stands : (t.withChain [declaration.name] id).Stands declarations declaration.name id :=
    ⟨declaration, c, o.denotes.advances a, fun k' => absurd (k'.symm.trans k) nofun⟩
  have done := resolves_withChain o.faithful a (List.forall_mem_singleton.2 stands)
    (List.mem_singleton_self declaration.name)
  exact ⟨o.advances.trans done.advances, done.faithful, done.resolved⟩

/-- The names of a chain that is followed have no handles. -/
lemma AliasChain.advances (l : AliasChain declarations s.resolved chain declaration) :
    s.Advances (s.withChain chain id) := by
  refine advances_withChain fun name m id' e => ?_
  rw [l.unresolved name m] at e
  cases e

/-- A name whose chain leads to a resolved alias is resolved to its handle. -/
lemma resolves_of_linked (f : s.Faithful declarations pending)
    (ends : EndsWell declarations s.resolved name (.resolved chain id)) :
    Resolves declarations pending s name id (s.withChain chain id) := by
  obtain ⟨m, declaration, target, l, t, found⟩ := ends
  refine resolves_withChain f l.advances (l.stands (fun _ => lookup_withChain) ?_) m
  refine ⟨declaration, l.declared, ?_, ?_⟩
  · rw [t]
    exact .name (l.advances.resolved target id found)
  · rw [t]
    exact nofun

/-- The body that a chain leads to may have come back to names of the chain and resolved them on its
own, but to no other handle. -/
lemma advances_of_body (f : s.Faithful declarations pending)
    (l : AliasChain declarations s.resolved chain declaration)
    (o : Resolves declarations pending s declaration.name id t) :
    t.Advances (t.withChain chain id) := by
  refine advances_withChain fun name m id' e => ?_
  have last := l.lookup_last o.faithful
    (fun name m mp => f.reserved name mp (l.unresolved name m)) m e
  exact Option.some.inj (last.symm.trans o.resolved)

/-- A name whose chain leads to a body is resolved to the handle of the body. -/
lemma resolves_of_body (f : s.Faithful declarations pending)
    (ends : EndsWell declarations s.resolved name (.body chain declaration))
    (o : Resolves declarations pending s declaration.name id t) :
    Resolves declarations pending s name id (t.withChain chain id) := by
  obtain ⟨m, l⟩ := ends
  have a := advances_of_body f l o
  have last := o.faithful.stands _ id o.resolved fun mp =>
    f.reserved _ mp l.unresolved_last
  have done := resolves_withChain o.faithful a
    (l.stands (fun _ => lookup_withChain) (last.mono a.retains a.resolved)) m
  exact ⟨o.advances.trans done.advances, done.faithful, done.resolved⟩

/-! ## Expressions and declarations -/

/-- What lowering an expression faithfully leads to, lowering several leads to for each of them. -/
lemma outcome_threads {types : List TypeExpr}
    (h : Walk.Threads (fun type s id s' => ∀ pending, s.Faithful declarations pending →
      Outcome declarations pending s type id s') types s ids s')
    (f : s.Faithful declarations pending) :
    s.Advances s' ∧ s'.Faithful declarations pending ∧ List.Forall₂ s'.Denotes types ids := by
  induction h with
  | nil => exact ⟨.refl _, f, .nil⟩
  | cons first _ ih =>
    have o := first pending f
    obtain ⟨a, f', all⟩ := ih o.faithful
    exact ⟨o.advances.trans a, f', .cons (o.denotes.advances a) all⟩

/-- Expressions are lowered faithfully. -/
theorem Lowers.outcome (h : Lowers declarations type s id s')
    (f : s.Faithful declarations pending) :
    Outcome declarations pending s type id s' := by
  induction h using Lowers.induct generalizing pending with
  | keyword => exact ⟨.refl _, f, .keyword⟩
  | literal => exact outcome_literal f _
  | known r => exact ⟨.refl _, f, .name r⟩
  | linked r e =>
    have o := resolves_of_linked f (e ▸ endsWell_chainEnd r)
    exact ⟨o.advances, o.faithful, .name o.resolved⟩
  | @plain name s chain declaration id t r e k _ ih =>
    have ends : EndsWell declarations s.resolved name (.body chain declaration) :=
      e ▸ endsWell_chainEnd r
    have l := ends.2
    have o := resolves_of_body f ends
      (resolves_of_outcome l.declared l.unresolved_last k f (ih f))
    exact ⟨o.advances, o.faithful, .name o.resolved⟩
  | @body name s chain declaration ids t data r e k _ shape ih =>
    have ends : EndsWell declarations s.resolved name (.body chain declaration) :=
      e ▸ endsWell_chainEnd r
    have l := ends.2
    have u := l.unresolved_last
    obtain ⟨-, f1⟩ := faithful_resolving f u
    obtain ⟨a, f2, parts⟩ := outcome_threads (ih.imp fun _ _ _ _ ⟨_, o⟩ _ f => o f) f1
    have o := resolves_of_body f ends (resolves_define l.declared u f a f2 shape parts)
    exact ⟨o.advances, o.faithful, .name o.resolved⟩
  | parted _ _ shape ih =>
    obtain ⟨a, f', parts⟩ := outcome_threads (ih.imp fun _ _ _ _ ⟨_, o⟩ _ f => o f) f
    exact outcome_place a f' shape parts

/-- Nothing is resolved at the start. -/
lemma faithful_start {store : TypeStore} (r : store.Reachable) :
    (start store).Faithful declarations [] :=
  ⟨r.regular, fun _ m => absurd m List.not_mem_nil, fun _ _ e => by cases e⟩

/-- Names that are lowered one after the other are resolved. -/
lemma faithful_names {others : List Declaration} {ids : List TypeId}
    (all : Walk.Threads (Lowers declarations) (others.map (.named ·.name [])) s ids s')
    (f : s.Faithful declarations []) :
    s.Advances s' ∧ s'.Faithful declarations [] ∧
      ∀ declaration ∈ others, ∃ id, s'.resolved.lookup declaration.name = some id := by
  obtain ⟨a, f', names⟩ := outcome_threads (all.imp fun _ _ _ _ h _ f => h.outcome f) f
  refine ⟨a, f', fun declaration m => ?_⟩
  obtain ⟨id, -, d⟩ := exists_of_forall₂ names _ (List.mem_map_of_mem m)
  exact ⟨id, d.resolved⟩

/-- Declarations are lowered one after the other. -/
lemma faithful_forM {others : List Declaration}
    (g : (others.forM fun declaration => do
      let _ ← resolveAlias (lowerRoot declarations) declarations declaration.name
      pure () : LowerWalk Unit).Gives s () s')
    (f : s.Faithful declarations []) :
    s.Advances s' ∧ s'.Faithful declarations [] ∧
      ∀ declaration ∈ others, ∃ id, s'.resolved.lookup declaration.name = some id := by
  obtain ⟨_, all⟩ := threads_of_gives_forM g
  exact faithful_names all f

/-- What a lowering that gives handles has done. -/
lemma gives_of_lowerDeclarations {store store' : TypeStore} {ids : List (String × TypeId)}
    (h : lowerDeclarations store declarations = (.ok ids, store')) :
    (declarations.map (·.name)).Nodup ∧
      ∃ s, (lowerAll declarations).Gives (start store) ids s ∧ s.store = store' := by
  cases names : checkNames declarations with
  | error =>
    unfold lowerDeclarations at h
    rw [names] at h
    cases h
  | ok =>
    have n := checkNames_eq_ok.1 names
    rw [lowerDeclarations_of_nodup n] at h
    obtain ⟨given, rfl⟩ := Prod.mk.inj h
    exact ⟨n, _, Prod.ext given rfl, rfl⟩

/-- A lowering that gives handles has lowered the declared names one after the other, and gives what
they are resolved to. -/
lemma names_of_lowerDeclarations {store store' : TypeStore} {handles : List (String × TypeId)}
    (h : lowerDeclarations store declarations = (.ok handles, store')) :
    (declarations.map (·.name)).Nodup ∧ ∃ s ids, s.store = store' ∧
      Walk.Threads (Lowers declarations) (declarations.map (.named ·.name [])) (start store) ids s ∧
      handles = declarations.filterMap fun declaration =>
        (s.resolved.lookup declaration.name).map fun id => (declaration.name, id) := by
  obtain ⟨n, s, g, e⟩ := gives_of_lowerDeclarations h
  obtain ⟨_, t, each, g⟩ := Walk.gives_bind.1 g
  cases g
  obtain ⟨ids, all⟩ := threads_of_gives_forM each
  exact ⟨n, s, ids, e, all, rfl⟩

/-- The handles of declarations that are all resolved are those that their names are resolved to. -/
lemma handles_spec (handle : String → Option TypeId) {others : List Declaration}
    (all : ∀ declaration ∈ others, ∃ id, handle declaration.name = some id) :
    (others.filterMap fun declaration =>
      (handle declaration.name).map fun id => (declaration.name, id)).map (·.1) =
        others.map (·.name) := by
  induction others with
  | nil => rfl
  | cons first others ih =>
    obtain ⟨⟨id, e⟩, all⟩ := List.forall_mem_cons.1 all
    rw [List.filterMap_cons, e]
    exact congrArg (first.name :: ·) (ih all)

/-- The handle of a declaration is found under its name. -/
lemma lookup_handles (handle : String → Option TypeId) {declaration : Declaration}
    (n : (declarations.map (·.name)).Nodup)
    (all : ∀ declaration ∈ declarations, ∃ id, handle declaration.name = some id)
    (m : declaration ∈ declarations) (e : handle declaration.name = some id) :
    (declarations.filterMap fun declaration =>
      (handle declaration.name).map fun id => (declaration.name, id)).lookup declaration.name =
        some id := by
  have names := handles_spec handle all
  refine lookup_of_mem (names ▸ n) (List.mem_filterMap.2 ⟨declaration, m, ?_⟩)
  rw [e]
  rfl

end Lowering

/-- A lowering that gives handles gives one for each declaration, in order, and it denotes the body
of the declaration in the store that is left. A body with parts has the name of its declaration as
its alias name. -/
theorem lowerDeclarations_faithful {store store' : TypeStore} {declarations : List Declaration}
    {ids : List (String × TypeId)} (r : store.Reachable)
    (h : lowerDeclarations store declarations = (.ok ids, store')) :
    ids.map (·.1) = declarations.map (·.name) ∧
      ∀ declaration ∈ declarations, ∃ id, ids.lookup declaration.name = some id ∧
        store'.Denotes (fun name => ids.lookup name) declaration.type id ∧
        (declaration.type.isStructural = true → store'.aliasName? id = some declaration.name) := by
  obtain ⟨n, s, g, rfl⟩ := Lowering.gives_of_lowerDeclarations h
  obtain ⟨_, t, each, g⟩ := Walk.gives_bind.1 g
  cases g
  obtain ⟨-, f, all⟩ := Lowering.faithful_forM each (Lowering.faithful_start r)
  refine ⟨Lowering.handles_spec (fun name => s.resolved.lookup name) all, fun declaration m => ?_⟩
  -- Only declared names are resolved, so the handles given are all there is to know of names.
  have known : ∀ name id, s.resolved.lookup name = some id →
      (declarations.filterMap fun declaration => (s.resolved.lookup declaration.name).map
        fun id => (declaration.name, id)).lookup name = some id := by
    intro name id e
    obtain ⟨declaration, c, -⟩ := f.stands name id e List.not_mem_nil
    obtain rfl := Lowering.name_of_declared? c
    exact Lowering.lookup_handles (fun name => s.resolved.lookup name) n all
      (List.mem_of_find?_eq_some c) e
  obtain ⟨id, e⟩ := all declaration m
  obtain ⟨declaration', c, d, named⟩ := f.stands declaration.name id e List.not_mem_nil
  obtain rfl := Option.some.inj ((declared?_eq_some n m).symm.trans c)
  have here := Lowering.lookup_handles (fun name => s.resolved.lookup name) n all m e
  exact ⟨id, here, d.mono ⟨(TypeStore.Grows.refl _).keeps, fun _ _ i => i⟩ known,
    named⟩

/-- Trees and lists of trees, one declared by the other, under a third name and by label. -/
def forest : List Declaration := [
  ⟨"Tree", .object [⟨"label", false, .named "Label" [], some "What is written on it."⟩,
    ⟨"children", true, .named "Forest" [], none⟩]⟩,
  ⟨"Forest", .named "Trees" []⟩,
  ⟨"Trees", .named "Array" [.named "Tree" []]⟩,
  ⟨"Label", .composite .union [.literal (.string "leaf"), .keyword .string]⟩,
  ⟨"Sizes", .named "Record" [.literal (.string "leaf"), .keyword .number]⟩]

/-- Each name has a handle; two of them are names of one type. -/
lemma lowerDeclarations_forest : ∃ store', lowerDeclarations .new forest =
    (.ok [("Tree", ⟨13⟩), ("Forest", ⟨16⟩), ("Trees", ⟨16⟩), ("Label", ⟨14⟩), ("Sizes", ⟨17⟩)],
      store') := by
  have given : (lowerDeclarations .new forest).1.toOption =
      some [("Tree", ⟨13⟩), ("Forest", ⟨16⟩), ("Trees", ⟨16⟩), ("Label", ⟨14⟩),
        ("Sizes", ⟨17⟩)] := by
    decide +kernel
  cases h : lowerDeclarations .new forest with
  | mk result store' =>
    rw [h] at given
    cases result with
    | error stop => cases given
    | ok ids =>
      cases given
      exact ⟨store', rfl⟩

/-- The forest is lowered, and faithfully. -/
theorem lowerDeclarations_forest_faithful :
    ∃ ids store', lowerDeclarations .new forest = (.ok ids, store') ∧
      ids.map (·.1) = ["Tree", "Forest", "Trees", "Label", "Sizes"] ∧
      ∀ declaration ∈ forest, ∃ id, ids.lookup declaration.name = some id ∧
        store'.Denotes (fun name => ids.lookup name) declaration.type id ∧
        (declaration.type.isStructural = true → store'.aliasName? id = some declaration.name) := by
  obtain ⟨store', h⟩ := lowerDeclarations_forest
  exact ⟨_, store', h, lowerDeclarations_faithful .new h⟩

end TypeSchema
