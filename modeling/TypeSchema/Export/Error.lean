import TypeSchema.Number.Format

/-!
# Errors of exports
-/

namespace TypeSchema

/-- Why a schema tree could not be exported. -/
inductive ExportError where
  /-- A reference names no node of the tree. -/
  | recursionIntegrity (reference : String)
  /-- Two different nodes carry one identifier, or a node carries the name given to the root. -/
  | duplicateIdentifier (identifier : String)
  | depthLimitExceeded
  /-- A number literal is infinite or not a number. -/
  | nonFiniteLiteral (value : Binary64)
deriving DecidableEq

/-- The wording of an export error. -/
def ExportError.message : ExportError → String
  | recursionIntegrity reference =>
    "reference `" ++ reference ++ "` does not name any node in the exported tree"
  | duplicateIdentifier identifier =>
    "identifier `" ++ identifier ++ "` is established by two different nodes"
  | depthLimitExceeded => "schema tree exceeds the export depth limit"
  | nonFiniteLiteral value => "number literal `" ++ value.text ++ "` has no literal type"

end TypeSchema
