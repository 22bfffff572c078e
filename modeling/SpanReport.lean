import SpanReport.Description.Raising
import SpanReport.Description.WellFormed
import SpanReport.Main
import SpanReport.Proofs.Cells
import SpanReport.Proofs.Charset
import SpanReport.Proofs.Columns
import SpanReport.Proofs.Markers
import SpanReport.Proofs.Sheet
import SpanReport.Proofs.Terminal
import SpanReport.Terminal
import SpanReport.Proofs.Utf8
import SpanReport.Proofs.Acceptance
import SpanReport.Proofs.Known
import SpanReport.Proofs.Guarded
import SpanReport.Proofs.Loaded
import SpanReport.Proofs.Equality
import SpanReport.Proofs.Session
import SpanReport.Proofs.Displayed
import SpanReport.Proofs.Recut
import SpanReport.Proofs.Paths
import SpanReport.Proofs.Raised
import SpanReport.Proofs.Failures
import SpanReport.Proofs.Runs
import SpanReport.Proofs.LineEnds
import SpanReport.Proofs.Roles
import SpanReport.Proofs.FreshLine
import SpanReport.Proofs.LineFeeds
import SpanReport.Proofs.Excerpts
import SpanReport.Proofs.Underlines
import SpanReport.Proofs.Labels
import SpanReport.Proofs.Brackets
import SpanReport.Proofs.Printing
import SpanReport.Proofs.UnknownNames
import SpanReport.Proofs.Recoloured
import SpanReport.Proofs.Building
import SpanReport.Proofs.FirstRefusal
import SpanReport.Proofs.SourceFiles
import SpanReport.Proofs.Restyling
import SpanReport.Proofs.Spans
import SpanReport.Proofs.Blocks
