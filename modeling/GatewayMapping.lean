import GatewayMapping.CommandLine.Conclusion
import GatewayMapping.Gateway.Envelope
import GatewayMapping.Http.MessageDocument
import GatewayMapping.Main
import GatewayMapping.Proofs.Http.MessageRoundTrip
import GatewayMapping.Proofs.Printing.NodesRoundTrip
import GatewayMapping.Proofs.Rendering.Permissiveness
import GatewayMapping.Proofs.Value.Equality
import GatewayMapping.Template.ConfigDocument
import GatewayMapping.Proofs.Value.JsonRoundTrip
import GatewayMapping.Proofs.JsonPath.BracketReading
import GatewayMapping.Proofs.JsonPath.FilterReading
import GatewayMapping.Proofs.JsonPath.RoundTrip
import GatewayMapping.Proofs.Rendering.Nesting
import GatewayMapping.Proofs.Gateway.DottedPaths
import GatewayMapping.Proofs.Rendering.Quoting
import GatewayMapping.Proofs.Reading.ReferencePlaces
import GatewayMapping.Proofs.Gateway.Classification
import GatewayMapping.Proofs.Rendering.Changes
import GatewayMapping.Proofs.Rendering.Inlining
import GatewayMapping.Proofs.Json.CompactReading
import GatewayMapping.Proofs.Gateway.Dispatch
import GatewayMapping.Proofs.Method.Effects
import GatewayMapping.Proofs.Gateway.Parameters
import GatewayMapping.Proofs.Decimal.WholeNumbers
import GatewayMapping.Proofs.JsonPath.Filters
import GatewayMapping.Proofs.JsonPath.NumberFilters
import GatewayMapping.Proofs.Rendering.IntegerComparisons
import GatewayMapping.Proofs.Rendering.Loops
import GatewayMapping.Proofs.Rendering.Conditions
import GatewayMapping.Proofs.JsonPath.Places
import GatewayMapping.Proofs.JsonPath.Selection
import GatewayMapping.Proofs.JsonPath.DeepNames
import GatewayMapping.Proofs.Method.Steps
import GatewayMapping.Proofs.Method.Frames
import GatewayMapping.Proofs.Json.Documents
import GatewayMapping.Proofs.Value.DocumentRoundTrip
import GatewayMapping.Proofs.JsonPath.PlainResults
import GatewayMapping.Proofs.Gateway.BodyLookups
import GatewayMapping.Proofs.Rendering.LiteralTexts
import GatewayMapping.Proofs.Http.Acceptance
import GatewayMapping.Proofs.Http.HeadAndBody
import GatewayMapping.Proofs.Text.FormUrl
import GatewayMapping.Proofs.Rendering.PlainSources
import GatewayMapping.Proofs.Reading.OwnLines
import GatewayMapping.Proofs.Text.Base64
import GatewayMapping.Proofs.Text.ScriptString
import GatewayMapping.Proofs.Rendering.IntegerArithmetic
import GatewayMapping.Proofs.Rendering.SlotAssignment
import GatewayMapping.Proofs.Reading.FaultPlaces
import GatewayMapping.Proofs.Method.StringPositions
import GatewayMapping.Proofs.Rendering.MapPrograms
import GatewayMapping.Proofs.Rendering.Joining
import GatewayMapping.Proofs.Value.LooseEquality
import GatewayMapping.Proofs.Rendering.IntegerLiterals
import GatewayMapping.Proofs.JsonPath.Locality
import GatewayMapping.Proofs.JsonPath.FilterLogic
import GatewayMapping.Proofs.Decimal.NotANumber
import GatewayMapping.Proofs.Json.NumberTexts
import GatewayMapping.Proofs.JsonPath.NumberLiterals
import GatewayMapping.Proofs.Text.ByteOrder
import GatewayMapping.Proofs.Rendering.StringComparisons
import GatewayMapping.Proofs.Reading.LineTable
import GatewayMapping.Proofs.JsonPath.ArrayBounds
import GatewayMapping.Proofs.Scenario.Discovery
import GatewayMapping.Proofs.Scenario.Accounts
