import TypedJson.Binary64.Basic
import TypedJson.Binary64.Rounding
import TypedJson.Binary64.Shortest
import TypedJson.Calendar
import TypedJson.Decimal
import TypedJson.Decoder.Basic
import TypedJson.Decoder.Choice
import TypedJson.Decoder.Limit
import TypedJson.Decoder.Object
import TypedJson.Decoder.Primitive
import TypedJson.Decoder.Sequence
import TypedJson.Entries
import TypedJson.Failure.Basic
import TypedJson.Failure.Equality
import TypedJson.Failure.Message
import TypedJson.Failure.Report
import TypedJson.Number
import TypedJson.Output.Basic
import TypedJson.Output.Equality
import TypedJson.Output.Order
import TypedJson.Proofs.Decoder.Runs
import TypedJson.Proofs.Entries
import TypedJson.Proofs.Schema.BuiltFrom
import TypedJson.Proofs.Value.Parts
import TypedJson.Schema.Absence
import TypedJson.Schema.Basic
import TypedJson.Schema.Decoding
import TypedJson.Schema.Description
import TypedJson.Schema.Expansion
import TypedJson.Schema.Leaves
import TypedJson.Schema.Samples
import TypedJson.Text.Blank
import TypedJson.Text.GraphemeExtend
import TypedJson.Text.Ignorable
import TypedJson.Text.Order
import TypedJson.Text.Quoted
import TypedJson.Text.RangeTable
import TypedJson.Text.Unprintable
import TypedJson.Timestamp
import TypedJson.Timestamp.DayText
import TypedJson.Timestamp.Instant
import TypedJson.Timestamp.Rfc3339
import TypedJson.Value.Basic
import TypedJson.Value.Equality
import TypedJson.Value.Path
import TypedJson.Value.Text
import TypedJson.Proofs.Decoder.Faults
import TypedJson.Proofs.Failure.Inherited
import TypedJson.Proofs.Failure.Truth
import TypedJson.Proofs.Value.Depth
import TypedJson.Proofs.Decoder.Limit
import TypedJson.Proofs.Binary64.Canonical
import TypedJson.Proofs.Value.NumericEquality
import TypedJson.Proofs.Value.Canonical
import TypedJson.Proofs.Output.Canonical
import TypedJson.Proofs.Decoder.Agreement
import TypedJson.Proofs.Schema.Spelling
import TypedJson.Proofs.Schema.Evolution
import TypedJson.Proofs.Decoder.Successes
import TypedJson.Proofs.Output.Order
import TypedJson.Proofs.Schema.Rearrangement
import TypedJson.Proofs.Schema.Undeclared
import TypedJson.Proofs.Schema.Conformance
import TypedJson.Proofs.Schema.Declarations
import TypedJson.Proofs.Schema.FirstFault
import TypedJson.Proofs.Schema.Expansion
import TypedJson.Proofs.Failure.Parts
import TypedJson.Proofs.Failure.Report
import TypedJson.Proofs.Value.Tokens
import TypedJson.Proofs.Schema.Location
import TypedJson.Proofs.Binary64.Rounding
import TypedJson.Proofs.Value.Structure
import TypedJson.Proofs.Value.Equivalence
import TypedJson.Proofs.Schema.Literal
import TypedJson.Proofs.Output.Ordered
import TypedJson.Proofs.Decoder.Duplicates
import TypedJson.Proofs.Schema.Duplicates
import TypedJson.Proofs.Schema.SetAndMap
import TypedJson.Proofs.Schema.Flattening
import TypedJson.Proofs.Schema.Records
import TypedJson.Proofs.Schema.Absence
import TypedJson.Proofs.Schema.Dictionaries
import TypedJson.Proofs.Schema.RecordTypes
import TypedJson.Proofs.Schema.PairForm
import TypedJson.Proofs.Binary64.Value
import TypedJson.Proofs.Timestamp.Millis
import TypedJson.Proofs.Calendar
import TypedJson.Proofs.Timestamp.Digits
import TypedJson.Proofs.Timestamp.Days
import TypedJson.Proofs.Binary64.Nearest
import TypedJson.Proofs.Schema.Integers
import TypedJson.Proofs.Timestamp.DayText
import TypedJson.Proofs.Timestamp.Texts
import TypedJson.Proofs.Timestamp.Years
