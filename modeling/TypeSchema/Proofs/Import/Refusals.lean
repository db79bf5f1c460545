import TypeSchema.Proofs.Import.Run

/-!
# Why types are refused

A type is refused as unsupported, at a limit, for a property that is given twice or for a reference
to nothing; nothing else keeps it from being imported. A kind of reasons that includes those that
are possible with a checker includes every reason for which an import is refused.
-/

namespace TypeSchema.Importer

variable {importer : Importer} {P : ImportError → Prop} {id : TypeId} {error : ImportError}

/-- The kind includes all reasons for which types of the checker may be refused. -/
structure Refuses (importer : Importer) (P : ImportError → Prop) : Prop where
  unsupported : ∀ id, P (.unsupportedType (importer.checker.typeText id) importer.file)
  limit : ∀ id, P (.depthLimitExceeded (importer.checker.typeText id))
  reference : P (.construction .emptyIdentifier)
  repeated : ∀ id name,
    firstRepeated? [] ((importer.checker.properties id).map (·.name)) = some name →
    P (.construction (.duplicateProperty name))

/-- An entered type is refused for the reasons of its structure. -/
lemma failsOnly_importEntered {body : ImportWalk Schema} {isNested : Bool}
    (h : body.FailsOnly P) : (importer.importEntered body isNested id).FailsOnly P := by
  intro s reason s' e
  rcases stop_of_importEntered e with ⟨inside, r⟩ | ⟨misuse, e⟩
  · exact h _ _ _ r
  · cases e

namespace Refuses

variable (k : importer.Refuses P)

include k

/-- A part that may be a rest stops only as unsupported. -/
lemma of_ite {rest : Bool} {type : TypeId}
    (h : .stop error = if rest then importer.refusal id else .part type) : P error := by
  cases rest with
  | true =>
    cases h
    exact k.unsupported id
  | false => cases h

/-- The steps of every rule stop for such reasons. -/
lemma of_stop (h : .stop error ∈ importer.steps id) : P error := by
  have parts : ∀ ids : List TypeId, .stop error ∉ ids.map ImportStep.part := by
    intro ids m
    obtain ⟨j, -, e⟩ := List.mem_map.1 m
    cases e
  have records : ∀ signatures, .stop error ∉ recordSteps signatures := by
    intro signatures m
    obtain ⟨signature, -, m⟩ := List.mem_flatMap.1 m
    simp at m
  have refused : .stop error ∈ [importer.refusal id] → P error := by
    intro m
    cases List.mem_singleton.1 m
    exact k.unsupported id
  unfold steps at h
  split at h
  case h_1 =>
    cases c : importer.checker.callSignatures id with
    | nil =>
      rw [c] at h
      exact refused h
    | cons signature overloads =>
      simp only [c, functionSteps] at h
      split at h
      case isTrue => exact refused h
      case isFalse =>
        rcases List.mem_append.1 h with m | m
        · obtain ⟨parameter, -, e⟩ := List.mem_map.1 m
          exact k.of_ite e.symm
        · cases List.mem_singleton.1 m
  case h_2 =>
    obtain ⟨element, -, e⟩ := List.mem_map.1 h
    exact k.of_ite e.symm
  case h_3 => exact absurd h (parts _)
  case h_4 | h_5 =>
    cases c : importer.checker.constituents id with
    | nil =>
      rw [c] at h
      exact refused h
    | cons member members =>
      rw [c] at h
      exact absurd h (parts _)
  case h_6 => exact absurd h (records _)
  case h_7 =>
    rcases List.mem_append.1 h with m | m
    · rcases List.mem_append.1 m with m | m
      · simp at m
      · split at m
        case h_1 name e =>
          cases List.mem_singleton.1 m
          exact k.repeated id name e
        case h_2 => cases m
    · exact absurd m (records _)
  case h_8 => exact refused h

lemma failsOnly_referenceTo {target : String} :
    (ImportWalk.constructed (Schema.referenceTo target)).FailsOnly P := by
  unfold Schema.referenceTo
  split
  case isTrue => exact Walk.failsOnly_fail k.reference
  case isFalse => exact Walk.failsOnly_pure

/-- A leaf rule refuses a type, or makes a node of it. -/
lemma failsOnly_leaf {leaf : ImportWalk Schema}
    (e : importer.importLeaf? id (importer.checker.flags id) = some leaf) : leaf.FailsOnly P := by
  rcases importLeaf_cases e with ⟨node, rfl⟩ | rfl
  · exact Walk.failsOnly_pure
  · exact Walk.failsOnly_fail (k.unsupported id)

/-- The structure of a type is refused for the reasons of its rule and its parts. -/
lemma failsOnly_importStructure {importPart : TypeId → ImportWalk Schema}
    (n : importer.importLeaf? id (importer.checker.flags id) = none)
    (h : ∀ part, (importPart part).FailsOnly P) :
    (importer.importStructure importPart id (importer.checker.flags id)).FailsOnly P := by
  rw [importStructure_eq n]
  refine Walk.FailsOnly.bind (Walk.FailsOnly.mapM ?_) fun _ => Walk.failsOnly_pure
  intro step m
  cases step with
  | part part => exact h part
  | stop error => exact Walk.failsOnly_fail (k.of_stop m)

/-- A type is refused for such reasons if its parts are. -/
lemma failsOnly_importWith {importPart? : Option (TypeId → ImportWalk Schema)}
    (h : ∀ importPart, importPart? = some importPart → ∀ part, (importPart part).FailsOnly P) :
    (importer.importWith importPart? id).FailsOnly P := by
  intro s reason s'
  refine importWith_outcome ?leaf ?named ?entered ?cycle ?limited
  case leaf => exact fun walk n => k.failsOnly_leaf n s reason s'
  case named => exact fun n identifier c => k.failsOnly_referenceTo s reason s'
  case entered =>
    intro n c guard e importPart p
    exact failsOnly_importEntered (k.failsOnly_importStructure n (h importPart p)) _ reason s'
  case cycle =>
    intro n c guard e
    have named : (importer.identifierFor id).FailsOnly P := by
      intro s reason s' f
      have g := gives_identifierFor.2 (show importer.refer id s = (_, _) from rfl)
      cases g.symm.trans f
    exact (named.bind fun _ => k.failsOnly_referenceTo) _ reason s'
  case limited => exact fun n c answer guard e limit => Walk.failsOnly_fail (k.limit id) _ reason s'

/-- An import without the final check of references is refused for such reasons. -/
theorem failsOnly_importType {room : Nat} : (importer.importType room id).FailsOnly P := by
  induction room generalizing id with
  | zero =>
    apply k.failsOnly_importWith
    intro importPart e
    cases e
  | succ room ih =>
    apply k.failsOnly_importWith
    intro importPart e
    cases e
    exact fun part => ih

end Refuses

/-- An import of a type is the import of its structure alone, or stops at the check of the
references of the node that this gives. -/
lemma run_of_fromType (h : importer.fromType id = .error (.failed error)) :
    (∃ s', (importer.importRoot id).run importer.start = (.error (.failed error), s')) ∨
      ∃ node s', (importer.importRoot id).Gives importer.start node s' ∧
        checkReferences node = .error error := by
  unfold fromType finish at h
  cases e : (importer.importChecked id).run importer.start with
  | mk result s' =>
    rw [e] at h
    dsimp only at h
    cases c : s'.guard.close with
    | error misuse => simp [c] at h
    | ok _ =>
      rw [c] at h
      obtain rfl : result = .error (.failed error) := h
      unfold importChecked at e
      rw [Walk.run_bind] at e
      cases e1 : (importer.importRoot id).run importer.start with
      | mk result1 s1 =>
        rw [e1] at e
        cases result1 with
        | error stop =>
          obtain ⟨rfl, rfl⟩ : stop = .failed error ∧ s1 = s' := by simpa using e
          exact .inl ⟨_, rfl⟩
        | ok node =>
          refine .inr ⟨node, s1, e1, ?_⟩
          cases f : checkReferences node with
          | ok =>
            simp only [f] at e
            cases e
          | error error' =>
            simp only [f] at e
            cases e
            rfl

/-- A tree is refused for one of its references, which is the identifier of none of its nodes. -/
lemma recursionIntegrity_of_checkReferences {node : Schema}
    (h : checkReferences node = .error error) :
    ∃ reference, error = .recursionIntegrity reference ∧ reference ∈ node.references ∧
      reference ∉ node.identifiers := by
  unfold checkReferences at h
  dsimp only at h
  cases f : node.references.find? (· ∉ node.identifiers) with
  | none =>
    rw [f] at h
    cases h
  | some reference =>
    rw [f] at h
    cases h
    have p := List.find?_some f
    exact ⟨reference, rfl, List.mem_of_find?_eq_some f, by simpa using p⟩

/-- An import is refused for such reasons, or for the references of the tree that it gives. -/
theorem Refuses.of_fromType (k : importer.Refuses P)
    (h : importer.fromType id = .error (.failed error)) :
    P error ∨ ∃ reference, error = .recursionIntegrity reference := by
  rcases run_of_fromType h with ⟨_, e⟩ | ⟨node, _, -, e⟩
  · exact .inl (k.failsOnly_importType _ _ _ e)
  · obtain ⟨reference, rfl, -⟩ := recursionIntegrity_of_checkReferences e
    exact .inr ⟨reference, rfl⟩

end TypeSchema.Importer
