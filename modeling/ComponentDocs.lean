import ComponentDocs.Main
import ComponentDocs.Proofs.Text.Lines
import ComponentDocs.Proofs.Fence.State
import ComponentDocs.Proofs.Text.Marker
import ComponentDocs.Proofs.Tag.Render
import ComponentDocs.Proofs.Doclet.Agreement
import ComponentDocs.Proofs.Fence.Pieces
import ComponentDocs.Proofs.Normal.Stages
import ComponentDocs.Proofs.Normal.Idempotence
import ComponentDocs.Proofs.Example.Outcome
import ComponentDocs.Proofs.Normal.Examples
import ComponentDocs.Proofs.Record.RoundTrip
import ComponentDocs.Proofs.Normal.Unmodeled
import ComponentDocs.Proofs.Normal.Order
import ComponentDocs.Proofs.Normal.Output
import ComponentDocs.Proofs.Normal.Invariants
import ComponentDocs.Proofs.Example.Header
import ComponentDocs.Proofs.Fence.Blocks
import ComponentDocs.Proofs.Example.Chunk
import ComponentDocs.Proofs.Json.Refusal
import ComponentDocs.Proofs.Example.Fault
import ComponentDocs.Proofs.Normal.Failure
import ComponentDocs.Proofs.CommandLine.Lookup
import ComponentDocs.Proofs.CommandLine.Outcome
import ComponentDocs.Proofs.Doclet.Writing
import ComponentDocs.Proofs.Fence.Highlighted
import ComponentDocs.Proofs.Decimal.Number
import ComponentDocs.Proofs.Json.Document
import ComponentDocs.Proofs.Fence.Spans
import ComponentDocs.Proofs.Example.Cut
import ComponentDocs.Proofs.Doclet.Code
import ComponentDocs.Proofs.Doclet.Complete
import ComponentDocs.Proofs.Example.Declared
import ComponentDocs.Proofs.Tag.Segments
import ComponentDocs.Proofs.Normal.Wrapped
import ComponentDocs.Proofs.Doclet.Spans
import ComponentDocs.Proofs.Tag.Brackets
import ComponentDocs.Proofs.Tag.LineNumbers
import ComponentDocs.Proofs.Normal.Reference
import ComponentDocs.Proofs.Example.FirstFence
import ComponentDocs.Proofs.Fence.Splice
import ComponentDocs.Proofs.Example.Load
import ComponentDocs.Proofs.Tag.Groups
import ComponentDocs.Proofs.Normal.Merging
import ComponentDocs.Proofs.Example.Modifiers
import ComponentDocs.Proofs.Tag.TypeExpression
import ComponentDocs.Proofs.DisplayName
