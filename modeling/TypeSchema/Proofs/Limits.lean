import Mathlib
import TypeSchema.Proofs.Export.Looser
import TypeSchema.Proofs.Import.Faithful
import TypeSchema.Proofs.Import.Looser

/-!
# Limits decide about success alone

A limit can make an import or an export stop, and it never changes what one gives that succeeds: no
reference turns into an expanded type or the other way round, and no identifier is chosen
differently, because a walk may go deeper or take longer.
-/

namespace TypeSchema

/-- An import that succeeds gives the same node with greater limits, and where functions are
imported by their first signature; and an export that succeeds has the same result with a greater
depth limit. -/
theorem results_of_looserLimits :
    (∀ (importer : Importer) (options : ImportOptions) (root : TypeId) (node : Schema),
      options.anonymousPrefix = importer.options.anonymousPrefix →
      importer.options.maxDepth ≤ options.maxDepth →
      importer.options.maxIterations ≤ options.maxIterations →
      options.signaturePolicy = importer.options.signaturePolicy ∨
        options.signaturePolicy = .firstDeclared →
      importer.fromType root = .ok node →
      (importer.withOptions options).fromType root = .ok node) ∧
    ∀ (options : ExportOptions) (maxDepth : UInt32) (name : String) (node : Schema),
      options.maxDepth ≤ maxDepth →
      (∀ type, node.toTypeExpr options = .ok type →
        node.toTypeExpr (options.withDepth maxDepth) = .ok type) ∧
      ∀ declarations, node.toDeclarations options name = .ok declarations →
        node.toDeclarations (options.withDepth maxDepth) name = .ok declarations := by
  constructor
  · intro importer options root node prefixes depth work policy h
    have looser : importer.options.Looser True options :=
      ⟨prefixes, policy.imp_right fun first => ⟨trivial, first⟩⟩
    exact Importer.fromType_looser looser depth work h
  · intro options maxDepth name node more
    exact ⟨fun type => Schema.toTypeExpr_withDepth more,
      fun declarations => Schema.toDeclarations_withDepth more⟩

/-- An import of linked lists under the tightest limits that they fit in. -/
def tightImporter : Importer :=
  ⟨Importer.linkedList.checker, "types.ts", ⟨.rejectOverloads, "Recursive", 1, 2⟩⟩

/-- The node of linked lists. -/
def listNode : Schema :=
  .object [("value", .primitive .string {}),
    ("next", .composite .union [.reference "Node" {}, .primitive .undefined {}] {})]
    { identifier := some "Node" }

/-- The type of linked lists. -/
def listType : TypeExpr :=
  .object [⟨"value", false, .keyword .string, none⟩, ⟨"next", true, .named "Node" [], none⟩]

/-- Linked lists are imported and exported under the usual limits as they are under the tightest. -/
theorem linkedList_of_looserLimits :
    (tightImporter.withOptions {}).fromType ⟨13⟩ = .ok listNode ∧
      listNode.toTypeExpr (ExportOptions.withDepth ⟨"arg", 2⟩ 500) = .ok listType ∧
      listNode.toDeclarations (ExportOptions.withDepth ⟨"arg", 2⟩ 500) "List" =
        .ok [⟨"Node", listType⟩] := by
  obtain ⟨imports, exports⟩ := results_of_looserLimits
  obtain ⟨types, declarations⟩ := exports ⟨"arg", 2⟩ 500 "List" listNode (by decide)
  refine ⟨imports tightImporter {} ⟨13⟩ listNode rfl (by decide) (by decide) (.inr rfl) (by rfl),
    types listType ?_, declarations [⟨"Node", listType⟩] ?_⟩
  · show Schema.toTypeExpr _ _ = .ok _
    cbv
  · show Schema.toDeclarations _ _ _ = .ok _
    cbv

/-- With too little depth an export stops. -/
example : (Schema.arrayOf (.primitive .string {})).toTypeExpr ⟨"arg", 1⟩ =
    .error (.failed .depthLimitExceeded) := by cbv

end TypeSchema
