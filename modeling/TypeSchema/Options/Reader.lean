import TypeSchema.Json.Skip
import TypeSchema.Options.Basic

/-!
# Reading options

Options are read from a JSON object with any of their fields, or from an array that lists them in
order and may stop early; fields that are not there keep their defaults. Members of other names are
skipped.
-/

namespace TypeSchema

open Json Json.Reader

/-- A natural number of 32 bits. -/
def wordValue : Head → Reader UInt32
  | found@(.number (.natural n)) =>
    if n < UInt32.size then return UInt32.ofNat n else refuse (.wrongValue found "u32")
  | found@(.number (.negative _)) => refuse (.wrongValue found "u32")
  | found => refuse (.wrongType found "u32")

/-- The signature policies by name. -/
def namedPolicies : List (String × SignaturePolicy) :=
  [("firstDeclared", .firstDeclared), ("rejectOverloads", .rejectOverloads)]

/-- A signature policy. -/
def policyValue : Reader SignaturePolicy := alternative Reader.maxDepth namedPolicies

/-- The next field of an array, if the array has one. -/
def nextOption {α : Type} (isFirst : Bool) (value : Reader α) : Reader (Option α) := do
  if ← hasElement isFirst then return some (← value) else return none

/-- The fields of import options that are read so far. -/
structure ImportOptionsDraft where
  signaturePolicy : Option SignaturePolicy := none
  anonymousPrefix : Option String := none
  maxDepth : Option UInt32 := none
  maxIterations : Option UInt32 := none

namespace ImportOptionsDraft

/-- The options, with defaults for the fields that are not there. -/
def finish (draft : ImportOptionsDraft) : ImportOptions :=
  let defaults : ImportOptions := {}
  ⟨draft.signaturePolicy.getD defaults.signaturePolicy,
    draft.anonymousPrefix.getD defaults.anonymousPrefix,
    draft.maxDepth.getD defaults.maxDepth,
    draft.maxIterations.getD defaults.maxIterations⟩

/-- Reads the member of the given name. -/
def readField (name : String) (draft : ImportOptionsDraft) : Reader ImportOptionsDraft := do
  match name with
  | "signaturePolicy" =>
    once name draft.signaturePolicy; colon
    return { draft with signaturePolicy := some (← policyValue) }
  | "anonymousIdentifierPrefix" =>
    once name draft.anonymousPrefix; colon
    return { draft with anonymousPrefix := some (← string (← head)) }
  | "maxDepth" =>
    once name draft.maxDepth; colon
    return { draft with maxDepth := some (← wordValue (← head)) }
  | "maxIterations" =>
    once name draft.maxIterations; colon
    return { draft with maxIterations := some (← wordValue (← head)) }
  | _ => do
    ignored
    return draft

/-- Reads the fields that an array lists, after its opening bracket. -/
def readListed : Reader ImportOptionsDraft := do
  let signaturePolicy ← nextOption true policyValue
  let anonymousPrefix ← nextOption false do string (← head)
  let maxDepth ← nextOption false do wordValue (← head)
  let maxIterations ← nextOption false do wordValue (← head)
  closeArray
  return ⟨signaturePolicy, anonymousPrefix, maxDepth, maxIterations⟩

end ImportOptionsDraft

/-- The import options of a text. -/
def ImportOptions.ofText (text : String) : Except Fault ImportOptions :=
  Reader.run (do
    match ← head with
    | .array => return (← ImportOptionsDraft.readListed).finish
    | .object => return (← objectEnd ImportOptionsDraft.readField {}).finish
    | found => refuse (.wrongType found "struct ImportOptions")) text

/-- The fields of export options that are read so far. -/
structure ExportOptionsDraft where
  parameterPrefix : Option String := none
  maxDepth : Option UInt32 := none

namespace ExportOptionsDraft

/-- The options, with defaults for the fields that are not there. -/
def finish (draft : ExportOptionsDraft) : ExportOptions :=
  let defaults : ExportOptions := {}
  ⟨draft.parameterPrefix.getD defaults.parameterPrefix, draft.maxDepth.getD defaults.maxDepth⟩

/-- Reads the member of the given name. -/
def readField (name : String) (draft : ExportOptionsDraft) : Reader ExportOptionsDraft := do
  match name with
  | "parameterPrefix" =>
    once name draft.parameterPrefix; colon
    return { draft with parameterPrefix := some (← string (← head)) }
  | "maxDepth" =>
    once name draft.maxDepth; colon
    return { draft with maxDepth := some (← wordValue (← head)) }
  | _ => do
    ignored
    return draft

/-- Reads the fields that an array lists, after its opening bracket. -/
def readListed : Reader ExportOptionsDraft := do
  let parameterPrefix ← nextOption true do string (← head)
  let maxDepth ← nextOption false do wordValue (← head)
  closeArray
  return ⟨parameterPrefix, maxDepth⟩

end ExportOptionsDraft

/-- The export options of a text. -/
def ExportOptions.ofText (text : String) : Except Fault ExportOptions :=
  Reader.run (do
    match ← head with
    | .array => return (← ExportOptionsDraft.readListed).finish
    | .object => return (← objectEnd ExportOptionsDraft.readField {}).finish
    | found => refuse (.wrongType found "struct ExportOptions")) text

end TypeSchema
