import TypeSchema.Logging
import TypeSchema.Options.Reader
import TypeSchema.RoundTrip
import TypeSchema.Schema.Display
import TypeSchema.Schema.WellFormed
import TypeSchema.Wire.Reader
import TypeSchema.Wire.Writer
import TypeSchema.Proofs.Export.Alike
import TypeSchema.Proofs.Export.SelfContained
import TypeSchema.Proofs.Import.Faithful
import TypeSchema.Proofs.Import.Wrapping
import TypeSchema.Proofs.RoundTrip.Faithful
import TypeSchema.Proofs.Rendering
import TypeSchema.Proofs.Json.Number
import TypeSchema.Proofs.Schema.Nesting
import TypeSchema.Proofs.Wire.Written
import TypeSchema.Proofs.Json.Finite
import TypeSchema.Proofs.Wire.Decoded
import TypeSchema.Proofs.Wire.RoundTrip
import TypeSchema.Proofs.Schema.Constructed
import TypeSchema.Proofs.Number.Intervals
import TypeSchema.Proofs.Number.Text
import TypeSchema.Proofs.Syntax.Reader
import TypeSchema.Proofs.Syntax.Spliced
import TypeSchema.Proofs.Syntax.ReadBack
import TypeSchema.Proofs.Lowering.Order
import TypeSchema.Proofs.Lowering.Pending
import TypeSchema.Proofs.RoundTrip.Levels
import TypeSchema.Proofs.Import.Identifiers
import TypeSchema.Proofs.Import.Reachable
import TypeSchema.Proofs.Import.Grounded
import TypeSchema.Proofs.Export.Cosmetic
import TypeSchema.Proofs.Export.Discovery
import TypeSchema.Proofs.Balanced
import TypeSchema.Proofs.Lowering.History
import TypeSchema.Proofs.Schema.Obtainable
import TypeSchema.Proofs.Syntax.Undocumented
import TypeSchema.Proofs.Lowering.Conditions
import TypeSchema.Proofs.Lowering.Keys
import TypeSchema.Proofs.Limits
import TypeSchema.Proofs.Export.Accepted
import TypeSchema.Proofs.Import.Traces
import TypeSchema.Proofs.Import.Offending
import TypeSchema.Proofs.Lowering.Extension
import TypeSchema.Proofs.Wire.Exact
import TypeSchema.Proofs.Export.WellFormed
import TypeSchema.Proofs.Import.Termination
import TypeSchema.Proofs.Import.Imported
import TypeSchema.Proofs.Schema.Paths
import TypeSchema.Proofs.RoundTrip.Descriptions
import TypeSchema.Proofs.Graph.Text
import TypeSchema.Proofs.Guard.History
import TypeSchema.Proofs.Schema.Optional
import TypeSchema.Proofs.Import.Fresh
