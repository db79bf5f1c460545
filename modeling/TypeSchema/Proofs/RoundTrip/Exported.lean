import TypeSchema.Proofs.Export.SelfContained
import TypeSchema.Proofs.Export.Success
import TypeSchema.Proofs.RoundTrip.Unfolding

/-!
# The declarations of a portable tree

A portable tree can be exported. Every identified node of it is declared under its identifier, with
the type expression of the node.
-/

namespace TypeSchema.Schema

variable {root node inner : Schema} {name : String}

/-- The exporter of declarations with the default options. -/
abbrev declaring : Exporter := ⟨{}, true⟩

lemma Scoped.references {known : List String} {nodes : List Schema} (h : Scoped known nodes) :
    ∀ target ∈ nodes.filterMap target?, target ∈ known ++ nodes.filterMap identifier := by
  induction nodes generalizing known with
  | nil => exact fun _ m => absurd m List.not_mem_nil
  | cons node nodes ih =>
    intro target m
    obtain ⟨node', mn, e⟩ := List.mem_filterMap.1 m
    cases mn with
    | head => exact List.mem_append_left _ (h.1 target e)
    | tail _ mn =>
      have m' := ih h.2 target (List.mem_filterMap.2 ⟨node', mn, e⟩)
      rw [List.filterMap_cons]
      cases e' : node.identifier with
      | none => simpa [e'] using m'
      | some identifier =>
        simp only [e', Option.toList_some, List.mem_append, List.mem_cons, List.not_mem_nil] at m' ⊢
        tauto

/-- Every reference of a portable tree names a node. -/
lemma Portable.references (p : Portable name root) :
    ∀ target ∈ root.references, target ∈ root.identifiers := p.ordered.references

lemma Portable.finiteNumbers (p : Portable name root) : root.Finite := p.finite

/-- The identified nodes of a portable tree are exported: none of them marks an optional member. -/
lemma mem_exported_of_identifier (p : Portable name root) (m : node ∈ root.preorder)
    (h : inner ∈ node.preorder) (e : inner.identifier ≠ none) : inner ∈ node.exported := by
  induction node using partsInduction with
  | step node ih =>
    rw [preorder_eq] at h
    cases h with
    | head => exact mem_exported_self
    | tail _ h =>
      obtain ⟨child, mc, h⟩ := List.mem_flatMap.1 h
      obtain ⟨part, mp, pair⟩ := exists_partOf mc
      refine mem_exported_of_part mp (ih part mp (mem_root_of_part m mp) ?_)
      cases pair with
      | kept => exact h
      | @split type info info' _ ec e' =>
        subst ec
        have mu : primitive .undefined info ∈ root.preorder :=
          preorder_trans m (mem_preorder_of_child mc
            (mem_preorder_of_child (List.mem_cons_of_mem _ List.mem_cons_self) mem_preorder_self))
        rw [preorder_eq] at h
        simp only [children, List.flatMap_cons, List.flatMap_nil, List.append_nil, List.mem_cons,
          List.mem_append, preorder, List.not_mem_nil, or_false] at h
        rcases h with rfl | h | rfl
        · exact absurd e' e
        · exact h
        · exact absurd (p.identifier_eq_none mu fun h => h) e

/-- The declarations of a tree: the root's first, and one for each other identified node. -/
structure Declared (name : String) (root : Schema) (declarations : List Declaration) : Prop where
  nodup : (declarations.map (·.name)).Nodup
  first : ∃ rest, declarations = ⟨root.rootName name, declaring.body root⟩ :: rest ∧
    ∀ declaration ∈ rest, declaration.name ∈ root.identifiers
  identified : ∀ node ∈ root.preorder, ∀ identifier, node.identifier = some identifier →
    ⟨identifier, declaring.body node⟩ ∈ declarations

/-- A portable tree is exported as its declarations. -/
theorem exists_declared (p : Portable name root) :
    ∃ declarations, root.toDeclarations {} name = .ok declarations ∧
      Declared name root declarations := by
  have low : root.height ≤ ({} : ExportOptions).maxDepth.toNat := Nat.le_trans p.height (by decide)
  obtain ⟨declarations, h⟩ := exists_toDeclarations p.wellFormed p.finiteNumbers p.unambiguous
    p.references p.free low
  refine ⟨declarations, h, ?_⟩
  obtain ⟨c, c', hoisted, rfl, d⟩ := declares_of_toDeclarations h
  have names : ((⟨root.rootName name, declaring.body root⟩ ::
      hoisted.map declaring.declaration : List Declaration).map (·.name)) =
      root.rootName name :: hoisted.map (·.identifier) := by
    rw [List.map_cons, List.map_map]
    rfl
  refine ⟨?_, ⟨_, rfl, ?_⟩, ?_⟩
  · rw [names]
    exact d.names_nodup c'
  · intro declaration m
    obtain ⟨inner, mi, rfl⟩ := List.mem_map.1 m
    obtain ⟨me, e⟩ := d.exported inner mi
    exact mem_identifiers (mem_preorder_of_exported me) e
  · intro node m identifier e
    have exported := mem_exported_of_identifier p mem_preorder_self m (by simp [e])
    have declared : root.IsDeclared hoisted identifier := by
      rcases d.isDeclared p.wellFormed c mem_preorder_self (.refl _)
        (fun inner m => d.closed inner (List.mem_append_left _ m)) exported e with rfl | done
      · exact .inl e
      · exact done
    rcases declared with e' | m'
    · obtain rfl := p.unambiguous node m root mem_preorder_self (by simp [e]) (e.trans e'.symm)
      have n : node.rootName name = identifier := by simp [rootName, e]
      rw [n]
      exact List.mem_cons_self
    · obtain ⟨host, mh, rfl⟩ := List.mem_map.1 m'
      obtain ⟨me, eh⟩ := d.exported host mh
      obtain rfl := p.unambiguous node m host.node (mem_preorder_of_exported me) (by simp [e])
        (e.trans eh.symm)
      exact List.mem_cons_of_mem _ (List.mem_map_of_mem mh)

end TypeSchema.Schema
