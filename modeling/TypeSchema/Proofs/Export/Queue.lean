import Mathlib.Data.List.Nodup
import Mathlib.Data.List.Perm.Subperm
import TypeSchema.Export.Declarations
import TypeSchema.Proofs.Export.Body

/-!
# The queue of declarations

Nodes that are exposed wait in a queue for declarations of their own, and exporting one may queue
others. `Drains` says what one run of the queue does; since no identifier is queued twice, the run
ends with the queue empty.
-/

namespace TypeSchema

namespace ExportState

variable {s : ExportState}

/-- Of the nodes that are offered, those with identifiers that are not seen are queued. -/
lemma offerAll_spec (s : ExportState) (nodes : List HoistedNode) :
    ∃ added, (s.offerAll nodes).pending = s.pending ++ added ∧
      (s.offerAll nodes).seen = (added.map (·.identifier)).reverse ++ s.seen ∧
      (∀ hoisted ∈ added, hoisted ∈ nodes) ∧
      (∀ hoisted ∈ nodes, hoisted.identifier ∈ (s.offerAll nodes).seen) ∧
      (s.seen.Nodup → (s.offerAll nodes).seen.Nodup) := by
  induction nodes generalizing s with
  | nil =>
    refine ⟨[], (List.append_nil _).symm, rfl, fun _ m => m, ?_, fun h => h⟩
    intro _ m
    cases m
  | cons hoisted nodes ih =>
    obtain ⟨added, pending, seen, sub, all, nodup⟩ := ih (s.offer hoisted)
    have step : s.offerAll (hoisted :: nodes) = (s.offer hoisted).offerAll nodes := rfl
    rw [step]
    -- A node is queued only if no node of its identifier was before.
    by_cases m : hoisted.identifier ∈ s.seen
    · have e : s.offer hoisted = s := if_pos m
      rw [e] at pending seen all nodup ⊢
      refine ⟨added, pending, seen, fun h m => List.mem_cons_of_mem _ (sub h m), ?_, nodup⟩
      intro h mh
      cases mh with
      | head =>
        rw [seen]
        exact List.mem_append_right _ m
      | tail _ mh => exact all h mh
    · have e : s.offer hoisted =
          { s with seen := hoisted.identifier :: s.seen, pending := s.pending ++ [hoisted] } :=
        if_neg m
      rw [e] at pending seen all nodup ⊢
      refine ⟨hoisted :: added, ?_, ?_, ?_, ?_, ?_⟩
      · rw [pending, List.append_assoc]
        rfl
      · rw [seen, List.map_cons, List.reverse_cons, List.append_assoc]
        rfl
      · intro h mh
        cases mh with
        | head => exact List.mem_cons_self
        | tail _ mh => exact List.mem_cons_of_mem _ (sub h mh)
      · intro h mh
        cases mh with
        | head =>
          rw [seen]
          exact List.mem_append_right _ List.mem_cons_self
        | tail _ mh => exact all h mh
      · exact fun n => nodup (List.nodup_cons.2 ⟨m, n⟩)

end ExportState

/-- The declaration of a node of its own. -/
def Exporter.declaration (exporter : Exporter) (hoisted : HoistedNode) : Declaration :=
  ⟨hoisted.identifier, exporter.body hoisted.node⟩

/-- What a node of its own exposes. -/
def Exporter.exposedBy (exporter : Exporter) (hoisted : HoistedNode) : List HoistedNode :=
  exporter.exposed hoisted.place hoisted.node

/-- A run of the queue exports some nodes and queues others. -/
structure Exporter.Drains (exporter : Exporter) (s s' : ExportState)
    (drained added : List HoistedNode) : Prop where
  /-- What is queued comes after what waits already. -/
  pending : drained ++ s'.pending = s.pending ++ added
  seen : s'.seen = (added.map (·.identifier)).reverse ++ s.seen
  nodup : s.seen.Nodup → s'.seen.Nodup
  /-- What an exported node exposes is seen. -/
  closed : ∀ hoisted ∈ drained, ∀ inner ∈ exporter.exposedBy hoisted, inner.identifier ∈ s'.seen
  /-- What holds of the nodes that wait and is handed on to those they expose, holds of all. -/
  all : ∀ P : HoistedNode → Prop, (∀ hoisted ∈ s.pending, P hoisted) →
    (∀ hoisted, P hoisted → ∀ inner ∈ exporter.exposedBy hoisted, P inner) →
    ∀ hoisted ∈ s.pending ++ added, P hoisted

/-- Exporting the first node that waits comes before a run of the queue. -/
lemma Exporter.Drains.cons {exporter : Exporter} {s s' : ExportState}
    {drained added rest : List HoistedNode} {hoisted : HoistedNode} {n : Nat}
    (e : s.pending = hoisted :: rest)
    (d : exporter.Drains
      ((({ s with pending := rest } : ExportState).offerAll (exporter.exposedBy hoisted)).counted n)
      s' drained added) :
    ∃ first, exporter.Drains s s' (hoisted :: drained) (first ++ added) := by
  obtain ⟨first, pending, seen, sub, all, nodup⟩ :=
    ExportState.offerAll_spec { s with pending := rest } (exporter.exposedBy hoisted)
  have dp : drained ++ s'.pending = rest ++ first ++ added := d.pending.trans (by
    rw [← pending]
    rfl)
  have ds : s'.seen = (added.map (·.identifier)).reverse ++
      ((first.map (·.identifier)).reverse ++ s.seen) := d.seen.trans (by
    rw [← seen]
    rfl)
  refine ⟨first, ?_, ?_, fun u => d.nodup (nodup u), ?_, ?_⟩
  · rw [List.cons_append, dp, e, List.append_assoc]
    rfl
  · rw [ds, List.map_append, List.reverse_append, List.append_assoc]
  · intro h m inner mi
    cases m with
    | head =>
      rw [d.seen]
      exact List.mem_append_right _ (all inner mi)
    | tail _ m => exact d.closed h m inner mi
  -- What holds of the queue is handed on to what its first node exposes, and so to the rest.
  · intro P p step h m
    have first_P : ∀ inner ∈ first, P inner :=
      fun inner mi => step hoisted (p hoisted (by simp [e])) inner (sub inner mi)
    have rest_P : ∀ h ∈ rest ++ first, P h := by
      intro h m
      rcases List.mem_append.1 m with m | m
      · exact p h (by simp [e, m])
      · exact first_P h m
    have tail := d.all P (fun h m => rest_P h (by
      rw [← pending]
      exact m)) step
    rw [e] at m
    cases m with
    | head => exact p hoisted (by simp [e])
    | tail _ m =>
      apply tail h
      show h ∈ ExportState.pending _ ++ added
      rw [show ((({ s with pending := rest } : ExportState).offerAll
        (exporter.exposedBy hoisted)).counted n).pending = rest ++ first from pending]
      rwa [List.append_assoc]

namespace Schema

variable {exporter : Exporter} {s s' : ExportState}

/-- A run of the queue that succeeds exports the nodes in their order, until none waits or as many
are exported as were allowed. -/
theorem gives_exportPending {count : Nat} {declarations : List Declaration}
    (h : (exportPending exporter count).Gives s declarations s') :
    ∃ drained added, exporter.Drains s s' drained added ∧
      declarations = drained.map exporter.declaration ∧
      (s'.pending = [] ∨ drained.length = count) := by
  induction count generalizing s declarations with
  | zero =>
    obtain ⟨rfl, rfl⟩ := Walk.gives_pure.1 h
    refine ⟨[], [], ⟨(List.append_nil _).symm, rfl, fun n => n, ?_, ?_⟩, rfl, .inr rfl⟩
    · intro _ m
      cases m
    · intro P p _ hoisted m
      exact p hoisted (by simpa using m)
  | succ count ih =>
    obtain ⟨t, s1, h1, h2⟩ := Walk.gives_bind.1 h
    obtain ⟨rfl, rfl⟩ := Walk.gives_get.1 h1
    cases e : s.pending with
    | nil =>
      rw [e] at h2
      obtain ⟨rfl, rfl⟩ := Walk.gives_pure.1 h2
      refine ⟨[], [], ⟨(List.append_nil _).symm, rfl, fun n => n, ?_, ?_⟩, rfl, .inl e⟩
      · intro _ m
        cases m
      · intro P p _ hoisted m
        exact p hoisted (by simpa using m)
    | cons hoisted rest =>
      rw [e] at h2
      obtain ⟨_, s2, h3, h4⟩ := Walk.gives_bind.1 h2
      obtain rfl := Walk.gives_modify.1 h3
      obtain ⟨type, s3, h5, h6⟩ := Walk.gives_bind.1 h4
      obtain ⟨rfl, n, rfl⟩ := Exporter.gives_exportNode h5
      obtain ⟨declarations', s4, h7, h8⟩ := Walk.gives_bind.1 h6
      obtain ⟨rfl, rfl⟩ := Walk.gives_pure.1 h8
      obtain ⟨drained, added, d, rfl, stop⟩ := ih h7
      obtain ⟨first, d⟩ := d.cons e
      refine ⟨hoisted :: drained, first ++ added, d, rfl, ?_⟩
      rcases stop with stop | stop
      · exact .inl stop
      · exact .inr (congrArg (· + 1) stop)

end Schema

end TypeSchema
