import TypeSchema.Proofs.Lowering.Parts
import TypeSchema.Proofs.RoundTrip.Exported

/-!
# The expressions of nodes

The expression of a node that may be identified has parts, which are the expressions of the parts of
the node. Any other node is a keyword, a literal or a name.
-/

namespace TypeSchema.Schema

variable {node root : Schema} {exporter : Exporter} {types : List TypeExpr} {ids : List TypeId}
  {store : TypeStore} {name : String} {declarations : List Declaration}

lemma isStructural_body (k : node.mayBeIdentified) : (exporter.body node).isStructural = true := by
  rw [Exporter.body_eq]
  cases node with
  | object => rfl
  | array => rfl
  | tuple => rfl
  | composite => rfl
  | record => rfl
  | function => rfl
  | _ => exact k.elim

/-- The parts of an expression that is put together are those it is put together from. -/
lemma parts_assemble (k : node.mayBeIdentified) (l : types.length = node.parts.length) :
    (exporter.assemble node types).parts = types := by
  cases node with
  | object properties =>
    have l : types.length = properties.length := l.trans (List.length_map _)
    show (properties.zipWith propertySignature types).map (·.type) = types
    rw [List.map_zipWith]
    exact (zipWith_right l).trans (List.map_id' types)
  | array =>
    obtain ⟨type, rfl⟩ := List.length_eq_one_iff.1 l
    rfl
  | tuple elements =>
    show ((splitTrailing elements).zipWith tupleMember types).map (·.type) = types
    rw [List.map_zipWith]
    exact (zipWith_right l).trans (List.map_id' types)
  | composite => rfl
  | record => rfl
  | function arguments =>
    have l : types.length = (splitTrailing arguments).length + 1 := l.trans List.length_append
    obtain ⟨before, last, rfl⟩ : ∃ before last, types = before ++ [last] :=
      ⟨types.dropLast, types.getLast (by rintro rfl; simp at l),
        (List.dropLast_concat_getLast _).symm⟩
    have l : before.length = (splitTrailing arguments).length := by simpa using l
    show (exporter.parameters 0 _ (before ++ [last])).map (·.type) ++ _ = _
    rw [Exporter.parameters_append l, Exporter.map_type_parameters l, List.getLastD_concat]
  | _ => exact k.elim

lemma parts_body (k : node.mayBeIdentified) :
    (exporter.body node).parts = node.parts.map fun part => exporter.partType part.1 := by
  rw [Exporter.body_eq]
  exact parts_assemble k (List.length_map _)

/-- What a node stands for is defined. -/
lemma layout_body_ne_pending (k : node.mayBeIdentified) :
    (exporter.body node).layout ids ≠ .pending := by
  rw [Exporter.body_eq]
  cases node with
  | object => exact nofun
  | array => exact nofun
  | tuple => exact nofun
  | composite => exact nofun
  | record => exact nofun
  | function => exact nofun
  | _ => exact k.elim

/-- The expression of a node can be put together from handles, unless it is a record whose key
stands for no key type. -/
lemma fits_body (k : node.mayBeIdentified)
    (keys : ∀ key value info, node = record key value info →
      store.recordKeys? (ids.headD default) = some .index) :
    (exporter.body node).Fits store ids := by
  rw [Exporter.body_eq]
  cases node with
  | object => trivial
  | array => trivial
  | tuple => trivial
  | composite => trivial
  | record key value info => exact ⟨rfl, rfl, keys key value info rfl⟩
  | function => trivial
  | _ => exact k.elim

lemma partType_of_identifier {identifier : String} (e : node.identifier = some identifier) :
    declaring.partType node = .reference identifier := by
  simp [Exporter.partType, Exporter.hoisted?, e]

lemma partType_of_none (e : node.identifier = none) :
    declaring.partType node = declaring.body node := by
  simp [Exporter.partType, Exporter.hoisted?, e]

/-- An identified node is declared under its identifier. -/
lemma Declared.declared? (d : Declared name root declarations) (m : node ∈ root.preorder)
    {identifier : String} (e : node.identifier = some identifier) :
    TypeSchema.declared? declarations identifier = some ⟨identifier, declaring.body node⟩ :=
  declared?_eq_some d.nodup (d.identified node m identifier e)

end TypeSchema.Schema
