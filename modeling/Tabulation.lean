import Tabulation.Column.Equality
import Tabulation.Main
import Tabulation.Proofs.Layout.Stages
import Tabulation.Proofs.Layout.Placement
import Tabulation.Proofs.Layout.Columns
import Tabulation.Proofs.Layout.Tiling
import Tabulation.Proofs.Layout.Grid
import Tabulation.Proofs.Layout.Extent
import Tabulation.Proofs.Layout.Rules
import Tabulation.Proofs.Grammar.Accepts
import Tabulation.Proofs.Leniency.Document
import Tabulation.Proofs.Source.Binding
import Tabulation.Proofs.Source.Spelling
import Tabulation.Proofs.Source.Options
import Tabulation.Proofs.Source.Reading
import Tabulation.Proofs.Source.RoundTrip
import Tabulation.Proofs.Numbering.Tables
import Tabulation.Proofs.Isolation.Document
import Tabulation.Proofs.Formats
import Tabulation.Proofs.Styles.Document
import Tabulation.Proofs.Odt.Reading
import Tabulation.Proofs.Latex.Text
import Tabulation.Proofs.Reference.Registry
import Tabulation.Proofs.Session.Attempt
import Tabulation.Proofs.Widths.Exact
import Tabulation.Proofs.Widths.Sharing
import Tabulation.Proofs.Layout.Runs
import Tabulation.Proofs.Odt.Borders
import Tabulation.Proofs.Content.Refusal
import Tabulation.Proofs.Content.Counts
import Tabulation.Proofs.Content.Extraction
import Tabulation.Proofs.Options.Binding
import Tabulation.Proofs.Leniency.Alignment
import Tabulation.Proofs.Columns.Arguments
import Tabulation.Proofs.Layout.Padding
import Tabulation.Proofs.Layout.Reordering
import Tabulation.Proofs.Widths.Groups
import Tabulation.Proofs.Layout.Validation
import Tabulation.Proofs.Grammar.Segments
import Tabulation.Proofs.Markup.Rows
import Tabulation.Proofs.Latex.Escaping
import Tabulation.Proofs.Content.Canonical
import Tabulation.Proofs.Columns.Positions
import Tabulation.Proofs.Source.Widths
import Tabulation.Proofs.Markup.Closing
import Tabulation.Proofs.Markers
import Tabulation.Proofs.Reference.Spelling
import Tabulation.Proofs.Latex.Links
