import TypeSchema.Walk.Limits

/-!
# Options of conversions
-/

namespace TypeSchema

/-- How a type with several call signatures is imported. -/
inductive SignaturePolicy where
  /-- By its first signature. -/
  | firstDeclared
  /-- Not at all. -/
  | rejectOverloads
deriving DecidableEq, Repr, Inhabited

/-- The options of an import. -/
structure ImportOptions where
  signaturePolicy : SignaturePolicy := .firstDeclared
  /-- What the identifiers of recursive types without an alias name start with; a counter
  follows. -/
  anonymousPrefix : String := "Recursive"
  maxDepth : UInt32 := WalkProfile.importing.limits.maxDepth
  maxIterations : UInt32 := WalkProfile.importing.limits.maxIterations
deriving DecidableEq, Repr, Inhabited

/-- The limits of an import. -/
def ImportOptions.limits (options : ImportOptions) : WalkLimits :=
  ⟨options.maxDepth, options.maxIterations⟩

/-- The options of an export. -/
structure ExportOptions where
  /-- What the names of parameters start with; their position follows. -/
  parameterPrefix : String := "arg"
  maxDepth : UInt32 := WalkProfile.exporting.limits.maxDepth
deriving DecidableEq, Repr, Inhabited

/-- The limits of an export, which may try as often as can be counted. -/
def ExportOptions.limits (options : ExportOptions) : WalkLimits :=
  ⟨options.maxDepth, 0xffffffff⟩

end TypeSchema
