import TypeSchema.Proofs.Lowering.Chains
import TypeSchema.Proofs.Lowering.Kept
import TypeSchema.Proofs.Lowering.Stops

/-!
# Levels of declarations

A lowering goes one level down for every part of an expression and for every alias body that it
enters from a name, and does not enter a body that it is inside of. `Levels` counts the levels of
such ways through declarations. A lowering fails for its depth only where one of these ways has too
many.
-/

namespace TypeSchema.Lowering

/-- From the expression a way goes down this many levels, its own being the first: from an
expression to one of its parts, and from a name to the body at the end of its alias chain, unless it
was entered before. -/
inductive Levels (declarations : List Declaration) : List String → TypeExpr → Nat → Prop
  | one {entered : List String} {type : TypeExpr} : Levels declarations entered type 1
  | part {entered : List String} {type part : TypeExpr} {n : Nat} :
    part ∈ type.parts →
    Levels declarations entered part n →
    Levels declarations entered type (n + 1)
  | body {entered : List String} {name : String} {declaration : Declaration} {n : Nat} :
    EndsAt declarations name declaration →
    declaration.name ∉ entered →
    Levels declarations (declaration.name :: entered) declaration.type n →
    Levels declarations entered (.named name []) (n + 1)

/-- The room that is left suffices for all ways from the expression; `own` tells how many levels of
them are entered already. -/
structure Suffices (declarations : List Declaration) (room own : Nat) (entered : List String)
    (type : TypeExpr) (s : LowerState) : Prop where
  limit : s.depth.maxDepth.toNat = maxRoom
  room : maxRoom ≤ room + s.depth.depth
  /-- Bodies that are entered are those of resolved names. -/
  resolved : ∀ name ∈ entered, s.resolved.lookup name ≠ none
  levels : ∀ n, Levels declarations entered type n → s.depth.depth + n ≤ maxRoom + own

variable {declarations : List Declaration} {lowerPart : TypeExpr → LowerWalk TypeId}
  {room own : Nat} {entered : List String} {type part : TypeExpr} {s s' : LowerState} {id : TypeId}
  {name : String} {declaration : Declaration}

namespace Suffices

/-- A lowering that gives a handle leaves as much room as there was. -/
lemma of_gives (h : Suffices declarations room own entered type s)
    (g : (lowerType declarations room part).Gives s id s') :
    Suffices declarations room own entered type s' := by
  have depth : s'.depth = s.depth := (kept_depth.lowerType room part).of_gives g
  have resolved := (kept_resolved.lowerType room part).of_gives g
  exact ⟨depth ▸ h.limit, depth ▸ h.room, fun name m => resolved name (h.resolved name m),
    depth ▸ h.levels⟩

/-- Room for the ways from an expression is room for those from its parts. -/
lemma of_part (h : Suffices declarations room 1 entered type s) (m : part ∈ type.parts) :
    Suffices declarations room 0 entered part s := by
  refine ⟨h.limit, h.room, h.resolved, fun n l => ?_⟩
  have := h.levels _ (.part m l)
  omega

/-- One level is entered of an expression that there is room for. -/
lemma down (h : Suffices declarations (room + 1) 0 entered type s) :
    Suffices declarations room 1 entered type s.down := by
  obtain ⟨limit, room, resolved, levels⟩ := h
  refine ⟨limit, ?_, resolved, fun n l => ?_⟩
  · show _ ≤ _ + (s.depth.depth + 1)
    omega
  · show s.depth.depth + 1 + n ≤ _
    have := levels n l
    omega

/-- The limit is not reached before an expression that there is room for. -/
lemma lt (h : Suffices declarations room 0 entered type s) :
    s.depth.depth < s.depth.maxDepth.toNat := by
  have := h.levels 1 .one
  rw [h.limit]
  omega

/-- There is more room on a higher level. -/
lemma succ_room (h : Suffices declarations room own entered type s) :
    Suffices declarations (room + 1) own entered type s :=
  ⟨h.limit, by have := h.room; omega, h.resolved, h.levels⟩

/-- Room for the ways from a name is room for those from the body with parts that it leads to. -/
lemma resolving (h : Suffices declarations room 1 entered (.named name []) s)
    (e : EndsAt declarations name declaration) (r : s.resolved.lookup declaration.name = none) :
    Suffices declarations room 0 (declaration.name :: entered) declaration.type
      (s.resolving declaration.name) := by
  have fresh : declaration.name ∉ entered := fun m => h.resolved _ m r
  refine ⟨h.limit, h.room, fun other m => ?_, fun n l => ?_⟩
  · show List.lookup other ((declaration.name, s.store.nextId) :: s.resolved) ≠ none
    rw [List.lookup_cons]
    split
    case h_1 => exact nofun
    case h_2 ne =>
      refine h.resolved other (List.mem_of_ne_of_mem ?_ m)
      rwa [beq_eq_false_iff_ne] at ne
  · have := h.levels _ (.body e fresh l)
    show s.depth.depth + n ≤ _
    omega

end Suffices

/-- A body without parts is one level deep. -/
lemma Levels.eq_one {n : Nat} (l : Levels declarations entered type n)
    (k : type.isStructural = false) (t : type.aliasTarget? declarations = none) : n = 1 := by
  cases l with
  | one => rfl
  | part m =>
    cases type with
    | keyword => cases m
    | literal => cases m
    | named name arguments =>
      cases arguments with
      | nil => cases m
      | cons => cases k
    | _ => cases k
  | body e =>
    obtain ⟨_, c⟩ := e.exists_declared
    simp [TypeExpr.aliasTarget?, c] at t

/-! ## Lowerings with room -/

/-- The walk never stops for its depth when the room suffices. -/
def StaysWithin (declarations : List Declaration) (room : Nat) : Prop :=
  ∀ type entered, (lowerType declarations room type).StopsOnly
    (Suffices declarations room 0 entered type) (· ≠ .failed .depthLimitExceeded)

lemma fault?_ne : type.fault? ≠ some .depthLimitExceeded := by
  unfold TypeExpr.fault?
  split
  · split
    · split <;> simp
    · simp
  · simp
  · simp
  · simp

lemma stopsOnly_lowerStructure_within (h : StaysWithin declarations room) :
    (lowerStructure (lowerType declarations room) type).StopsOnly
      (Suffices declarations room 1 entered type) (· ≠ .failed .depthLimitExceeded) := by
  apply stopsOnly_lowerStructure
  · rintro error e ⟨⟩
    exact fault?_ne e
  · exact fun part m => (h part entered).weaken fun s i => i.of_part m
  · exact fun part _ s id s' i g => i.of_gives g
  · exact fun _ _ _ _ _ _ => nofun

lemma stopsOnly_resolveAlias_within (h : StaysWithin declarations room) :
    (resolveAlias (lowerType declarations room) declarations name).StopsOnly
      (Suffices declarations room 1 entered (.named name []))
      (· ≠ .failed .depthLimitExceeded) := by
  apply stopsOnly_resolveAlias
  · exact fun _ _ _ _ _ => nofun
  · exact fun _ _ _ _ _ => nofun
  intro chain declaration
  refine stopsOnly_lowerAliasBody
    (J := Suffices declarations (room + 1) 0 (declaration.name :: entered) declaration.type)
    ?_ ?_ ?_
  · -- A body without parts has only its own level, and the name has one to give.
    intro k
    refine (h declaration.type entered).weaken ?_
    rintro s ⟨i, r, c⟩
    have e := endsAt_of_chainEnd c
    have u := (aliasChain_of_chainEnd r c).unresolved_last
    refine ⟨i.limit, i.room, i.resolved, fun n l => ?_⟩
    obtain rfl := l.eq_one k e.aliasTarget?
    have := i.levels _ (.body e (fun m => i.resolved _ m u) .one)
    omega
  · intro k
    refine stopsOnly_deeper (stopsOnly_lowerStructure_within h) (fun s i => i.down) ?_
      (fun misuse => nofun)
    exact fun s i l => absurd l (Nat.not_le_of_lt i.lt)
  · rintro - s ⟨i, r, c⟩
    have u := (aliasChain_of_chainEnd r c).unresolved_last
    exact (i.resolving (endsAt_of_chainEnd c) u).succ_room

/-- A lowering with enough room never stops for its depth. -/
theorem staysWithin (room : Nat) : StaysWithin declarations room := by
  induction room with
  | zero =>
    -- Where no room is left, the depth has reached the limit already.
    intro type entered
    refine stopsOnly_deeper (J := fun _ => False) (fun _ => False.elim) (fun s i => ?_)
      (fun s i l => absurd l (Nat.not_le_of_lt i.lt)) (fun misuse => nofun)
    have := i.lt
    have := i.room
    have := i.limit
    omega
  | succ room ih =>
    intro type entered
    refine stopsOnly_deeper (stopsOnly_lowerExpr (fun _ => stopsOnly_lowerStructure_within ih)
      (fun _ _ _ => nofun) ?_) (fun s i => i.down) (fun s i l => absurd l (Nat.not_le_of_lt i.lt))
      (fun misuse => nofun)
    rintro name rfl
    exact stopsOnly_resolveAlias_within ih

/-- At the top a name has room if all ways from the declared bodies have. -/
lemma suffices_of_levels (d : s.depth = .new WalkProfile.lowering.limits.maxDepth)
    (h : ∀ declaration ∈ declarations, ∀ n,
      Levels declarations [declaration.name] declaration.type n → n ≤ maxRoom) :
    Suffices declarations maxRoom 1 [] (.named name []) s := by
  refine ⟨?_, Nat.le_add_right _ _, fun _ m => absurd m List.not_mem_nil, fun n l => ?_⟩
  · rw [d]
    rfl
  · rw [d]
    show 0 + n ≤ _
    cases l with
    | one => omega
    | part m => cases m
    | body e _ l =>
      have := h _ (List.mem_of_find?_eq_some e.declared) _ l
      omega

/-- When declarations are refused for their depth, there is a way through them that goes down more
levels than a lowering may. -/
theorem exists_levels_of_lowerDeclarations {store store' : TypeStore}
    (h : lowerDeclarations store declarations = (.error (.failed .depthLimitExceeded), store')) :
    ∃ declaration ∈ declarations, ∃ n, maxRoom < n ∧
      Levels declarations [declaration.name] declaration.type n := by
  by_contra none
  have short : ∀ declaration ∈ declarations, ∀ n,
      Levels declarations [declaration.name] declaration.type n → n ≤ maxRoom :=
    fun declaration m n l => Nat.le_of_not_lt fun lt => none ⟨declaration, m, n, lt, l⟩
  have all : (lowerAll declarations).StopsOnly
      (fun s => s.depth = .new WalkProfile.lowering.limits.maxDepth)
      (· ≠ .failed .depthLimitExceeded) := by
    refine stopsOnly_lowerAll (fun declaration _ => ?_) fun declaration _ s id s' d g => ?_
    · exact (stopsOnly_resolveAlias_within (staysWithin maxRoom)).weaken fun s d =>
        suffices_of_levels d short
    · have kept : s'.depth = s.depth :=
        (kept_depth.resolveAlias (kept_depth.lowerType maxRoom) declaration.name).of_gives g
      exact kept.trans d
  by_cases n : (declarations.map (·.name)).Nodup
  · rw [lowerDeclarations_of_nodup n] at h
    exact all (start store) rfl _ _ (Prod.ext (Prod.mk.inj h).1 rfl) rfl
  · cases names : checkNames declarations with
    | ok => exact n (checkNames_eq_ok.1 names)
    | error error =>
      unfold lowerDeclarations at h
      rw [names] at h
      cases h
      unfold checkNames at names
      split at names <;> cases names

end TypeSchema.Lowering
