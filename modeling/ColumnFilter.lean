import ColumnFilter.Main
import ColumnFilter.Proofs.CommandLine.Pipeline
import ColumnFilter.Proofs.Json.Numbers
import ColumnFilter.Proofs.Reading.Acceptance
import ColumnFilter.Proofs.Reading.Composition
import ColumnFilter.Proofs.Reading.Expectation
import ColumnFilter.Proofs.Reading.Layout
import ColumnFilter.Proofs.Reading.LexicalClass
import ColumnFilter.Proofs.Reading.ListLiteral
import ColumnFilter.Proofs.Reading.Opacity
import ColumnFilter.Proofs.Reading.Soundness
import ColumnFilter.Proofs.RoundTrip.Unquotable
import ColumnFilter.Proofs.Schema.Declaration
import ColumnFilter.Proofs.Tiling
import ColumnFilter.Proofs.Reading.Pointing
import ColumnFilter.Proofs.Reading.Unfinished
import ColumnFilter.Proofs.Reading.Blame
import ColumnFilter.Proofs.RoundTrip.Gaps
import ColumnFilter.Proofs.Stored.Connectors
import ColumnFilter.Proofs.Json.Wholeness
import ColumnFilter.Proofs.Stored.Agreement
import ColumnFilter.Proofs.Schema.Growth
import ColumnFilter.Proofs.Reading.Comparators
import ColumnFilter.Proofs.Text.Edits
import ColumnFilter.Proofs.Grammar.Nesting
import ColumnFilter.Proofs.RoundTrip.Growing
import ColumnFilter.Proofs.Reading.LexicalClass
