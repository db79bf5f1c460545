import Mathlib.Data.List.Induction
import TypeSchema.Export.Identifiers
import TypeSchema.Proofs.Schema.Equality

/-!
# What the check of identifiers refuses

A node clashes if it differs from the first node that carries its identifier. In a well-formed tree
no node clashes exactly if any two nodes of one identifier are the same. The check refuses the first
clash, or else the first reference that names no node.
-/

namespace TypeSchema.Schema

/-- The node is not the same as the first one of its identifier among the nodes before it. -/
def Clashes (before : List Schema) (node : Schema) : Prop :=
  ∃ identifier holder, node.identifier = some identifier ∧
    before.find? (·.identifier == some identifier) = some holder ∧ holder.same node = false

/-- Each node is free of a clash with the nodes before it, those that come before all of them
included. -/
def NoClash (before nodes : List Schema) : Prop :=
  ∀ earlier node later, nodes = earlier ++ node :: later → ¬ Clashes (before ++ earlier) node

/-- The node is the first one that clashes with the nodes before it. -/
def FirstClash (before nodes : List Schema) (node : Schema) : Prop :=
  ∃ earlier later, nodes = earlier ++ node :: later ∧ NoClash before earlier ∧
    Clashes (before ++ earlier) node

/-- Any two nodes that carry one identifier are the same. -/
def Agree (nodes : List Schema) : Prop :=
  nodes.Pairwise fun a b => ∀ identifier, a.identifier = some identifier →
    b.identifier = some identifier → a.same b = true

section

variable {before nodes : List Schema} {node other : Schema}

lemma noClash_nil : NoClash before [] := by
  intro earlier node later e
  cases earlier <;> cases e

lemma noClash_cons :
    NoClash before (node :: nodes) ↔ ¬ Clashes before node ∧ NoClash (before ++ [node]) nodes := by
  constructor
  · intro free
    refine ⟨by simpa using free [] node nodes rfl, fun earlier other later e => ?_⟩
    rw [List.append_assoc]
    exact free (node :: earlier) other later (congrArg (node :: ·) e)
  · rintro ⟨first, free⟩ earlier other later e
    cases earlier with
    | nil =>
      cases e
      simpa using first
    | cons _ earlier =>
      cases e
      have rest := free earlier other later rfl
      rwa [List.append_assoc] at rest

lemma FirstClash.head (clash : Clashes before node) : FirstClash before (node :: nodes) node :=
  ⟨[], nodes, rfl, noClash_nil, by simpa using clash⟩

lemma FirstClash.tail (free : ¬ Clashes before node)
    (clash : FirstClash (before ++ [node]) nodes other) :
    FirstClash before (node :: nodes) other := by
  obtain ⟨earlier, later, rfl, rest, clash⟩ := clash
  exact ⟨node :: earlier, later, rfl, noClash_cons.2 ⟨free, rest⟩, by simpa using clash⟩

/-- A list whose nodes clash with none of those before them has no first clash. -/
lemma FirstClash.not_noClash (clash : FirstClash before nodes node) : ¬ NoClash before nodes := by
  obtain ⟨earlier, later, e, -, clash⟩ := clash
  exact fun free => free earlier node later e clash

/-- Nodes that carry different identifiers do not clash. -/
lemma noClash_of_nodup (n : (nodes.filterMap identifier).Nodup) : NoClash [] nodes := by
  rintro earlier node later rfl ⟨identifier, holder, e, found, -⟩
  have carried : holder.identifier = some identifier := by simpa using List.find?_some found
  rw [List.filterMap_append, List.nodup_append] at n
  exact n.2.2 identifier (List.mem_filterMap.2 ⟨holder, List.mem_of_find?_eq_some found, carried⟩)
    identifier (List.mem_filterMap.2 ⟨node, List.mem_cons_self, e⟩) rfl

/-- Nodes of one identifier are one node, or one of them is the same as the other. -/
lemma Agree.same_of_mem {a b : Schema} {identifier : String} (agree : Agree nodes) (ma : a ∈ nodes)
    (mb : b ∈ nodes) (ea : a.identifier = some identifier) (eb : b.identifier = some identifier) :
    a = b ∨ a.same b = true ∨ b.same a = true := by
  have all := List.Pairwise.forall_of_forall_of_flip
    (R := fun a b : Schema => ∀ identifier, a.identifier = some identifier →
      b.identifier = some identifier → a = b ∨ a.same b = true ∨ b.same a = true)
    (fun _ _ _ _ _ => .inl rfl)
    (agree.imp fun r identifier ea eb => .inr (.inl (r identifier ea eb)))
    (agree.imp fun r identifier ea eb => .inr (.inr (r identifier eb ea)))
  exact all ma mb identifier ea eb

/-- Well-formed nodes of one identifier are the same if none differs from the first one. -/
theorem agree_iff_noClash (w : ∀ node ∈ nodes, node.WellFormed) :
    Agree nodes ↔ NoClash [] nodes := by
  constructor
  · rintro agree earlier node later rfl ⟨identifier, holder, e, found, differs⟩
    have carried : holder.identifier = some identifier := by simpa using List.find?_some found
    have same := (List.pairwise_append.1 agree).2.2 holder (List.mem_of_find?_eq_some found) node
      List.mem_cons_self identifier carried e
    cases differs.symm.trans same
  · intro free
    induction nodes using List.reverseRecOn with
    | nil => exact .nil
    | append_singleton nodes last ih =>
      have agree : Agree nodes := by
        refine ih (fun node m => w node (List.mem_append_left _ m)) fun earlier node later e => ?_
        exact free earlier node (later ++ [last]) (by simp [e])
      refine List.pairwise_append.2 ⟨agree, List.pairwise_singleton _ _, fun a ma b mb => ?_⟩
      obtain rfl := List.mem_singleton.1 mb
      intro identifier ea eb
      -- Both are the same as the first node of the identifier.
      obtain ⟨holder, found⟩ : ∃ holder,
          nodes.find? (·.identifier == some identifier) = some holder := by
        refine Option.isSome_iff_exists.1 (List.find?_isSome.2 ⟨a, ma, by simp [ea]⟩)
      have same : holder.same b = true := by
        by_contra differs
        exact free nodes b [] rfl ⟨identifier, holder, eb, found, by simpa using differs⟩
      obtain ⟨carried, earlier, later, rfl, others⟩ := List.find?_eq_some_iff_append.1 found
      have w' : ∀ node ∈ earlier ++ holder :: later, node.WellFormed :=
        fun node m => w node (List.mem_append_left _ m)
      rcases List.mem_append.1 ma with m | m
      · exact absurd (others a m) (by simp [ea])
      · cases m with
        | head => exact same
        | tail _ m =>
          have first : holder.same a = true :=
            (List.pairwise_cons.1 (List.pairwise_append.1 agree).2.1).1 a m identifier
              (by simpa using carried) ea
          have mh : holder ∈ earlier ++ holder :: later :=
            List.mem_append_right _ List.mem_cons_self
          exact same_trans (w' a ma) (w' holder mh) (w b (List.mem_append_right _ mb))
            (same_symm (w' holder mh) (w' a ma) first) same

/-- The nodes that are held are the first ones of their identifiers. -/
def Holds (held : List (String × Schema)) (before : List Schema) : Prop :=
  ∀ identifier, held.lookup identifier = before.find? (·.identifier == some identifier)

/-- What is held stays when a node follows whose identifier is held, or that has none. -/
lemma Holds.keep {held : List (String × Schema)} (holds : Holds held before)
    (known : ∀ identifier, node.identifier = some identifier → held.lookup identifier ≠ none) :
    Holds held (before ++ [node]) := by
  intro identifier
  rw [List.find?_append, ← holds identifier]
  cases l : held.lookup identifier with
  | some holder => rfl
  | none =>
    have other : (node.identifier == some identifier) = false :=
      beq_eq_false_iff_ne.2 fun e => known identifier e l
    simp [other]

/-- A node whose identifier is new is held from then on. -/
lemma Holds.add {held : List (String × Schema)} {identifier : String} (holds : Holds held before)
    (e : node.identifier = some identifier) (new : held.lookup identifier = none) :
    Holds ((identifier, node) :: held) (before ++ [node]) := by
  intro name
  rw [List.find?_append, ← holds name, List.lookup_cons]
  by_cases eq : name = identifier
  · subst eq
    simp [e, new]
  · have other : (node.identifier == some name) = false := by
      rw [e]
      exact beq_eq_false_iff_ne.2 fun h => eq (Option.some.inj h).symm
    rw [beq_eq_false_iff_ne.2 eq]
    simp [other]

/-- The first conflict is the identifier of the first clash. -/
theorem firstConflict?_cases {held : List (String × Schema)} (holds : Holds held before)
    (nodes : List Schema) :
    firstConflict? held nodes = none ∧ NoClash before nodes ∨
      ∃ node identifier, FirstClash before nodes node ∧ node.identifier = some identifier ∧
        firstConflict? held nodes = some identifier := by
  induction nodes generalizing held before with
  | nil => exact .inl ⟨rfl, noClash_nil⟩
  | cons node nodes ih =>
    -- Where the node does not clash, the search goes on behind it.
    have next : ∀ {held' : List (String × Schema)}, Holds held' (before ++ [node]) →
        ¬ Clashes before node → firstConflict? held (node :: nodes) = firstConflict? held' nodes →
        firstConflict? held (node :: nodes) = none ∧ NoClash before (node :: nodes) ∨
          ∃ other identifier, FirstClash before (node :: nodes) other ∧
            other.identifier = some identifier ∧
            firstConflict? held (node :: nodes) = some identifier := by
      intro held' holds' free e
      rw [e]
      rcases ih holds' with ⟨none, rest⟩ | ⟨other, identifier, clash, carried, found⟩
      · exact .inl ⟨none, noClash_cons.2 ⟨free, rest⟩⟩
      · exact .inr ⟨other, identifier, clash.tail free, carried, found⟩
    cases e : node.identifier with
    | none =>
      refine next (holds.keep fun _ h => by cases e.symm.trans h) ?_ (by simp [firstConflict?, e])
      rintro ⟨identifier, -, e', -⟩
      cases e.symm.trans e'
    | some identifier =>
      cases l : held.lookup identifier with
      | none =>
        refine next (holds.add e l) ?_ (by simp [firstConflict?, e, l])
        rintro ⟨identifier', holder, e', found, -⟩
        cases e.symm.trans e'
        cases l.symm.trans ((holds identifier).trans found)
      | some holder =>
        cases s : holder.same node with
        | true =>
          refine next (holds.keep fun identifier' e' => ?_) ?_ (by simp [firstConflict?, e, l, s])
          · cases e.symm.trans e'
            simp [l]
          · rintro ⟨identifier', holder', e', found, differs⟩
            cases e.symm.trans e'
            cases l.symm.trans ((holds identifier).trans found)
            cases s.symm.trans differs
        | false =>
          have clash : Clashes before node :=
            ⟨identifier, holder, e, (holds identifier).symm.trans l, s⟩
          exact .inr ⟨node, identifier, .head clash, e, by simp [firstConflict?, e, l, s]⟩

end

/-- The check refuses the first node that clashes, or else the first reference that names no node,
and accepts every other tree. -/
theorem checkIdentifiers_cases (root : Schema) :
    (∃ node identifier, FirstClash [] root.preorder node ∧ node.identifier = some identifier ∧
      root.checkIdentifiers = .error (.duplicateIdentifier identifier)) ∨
    NoClash [] root.preorder ∧
      ((∃ target, root.references.find? (· ∉ root.identifiers) = some target ∧
          root.checkIdentifiers = .error (.recursionIntegrity target)) ∨
        (∀ target ∈ root.references, target ∈ root.identifiers) ∧
          root.checkIdentifiers = .ok ()) := by
  unfold checkIdentifiers
  have start : Holds [] [] := fun _ => rfl
  rcases firstConflict?_cases start root.preorder with
    ⟨none, free⟩ | ⟨node, identifier, clash, carried, found⟩
  · refine .inr ⟨free, ?_⟩
    have dangling : root.firstDangling? = root.references.find? (· ∉ root.identifiers) := rfl
    rw [none, dangling]
    cases d : root.references.find? (· ∉ root.identifiers) with
    | some target => exact .inl ⟨target, rfl, rfl⟩
    | none => exact .inr ⟨fun target m => by simpa using List.find?_eq_none.1 d target m, rfl⟩
  · exact .inl ⟨node, identifier, clash, carried, by rw [found]⟩

/-- A tree passes the check exactly if no node clashes and every reference names a node. -/
lemma checkIdentifiers_eq_ok_iff {root : Schema} :
    root.checkIdentifiers = .ok () ↔
      NoClash [] root.preorder ∧ ∀ target ∈ root.references, target ∈ root.identifiers := by
  rcases checkIdentifiers_cases root with
    ⟨node, identifier, clash, -, c⟩ | ⟨free, ⟨target, first, c⟩ | ⟨resolved, c⟩⟩
  · refine ⟨fun e => ?_, fun ⟨free, _⟩ => absurd free clash.not_noClash⟩
    cases c.symm.trans e
  · refine ⟨fun e => ?_, fun ⟨_, resolved⟩ => ?_⟩
    · cases c.symm.trans e
    · have dangles : target ∉ root.identifiers := by simpa using List.find?_some first
      exact absurd (resolved target (List.mem_of_find?_eq_some first)) dangles
  · exact ⟨fun _ => ⟨free, resolved⟩, fun _ => c⟩

end TypeSchema.Schema
