import StyledTiles.Number.Basic
import StyledTiles.Number.Decimal
import StyledTiles.Text.Integer
import StyledTiles.Text.Quoted
import StyledTiles.Text.Uppercase
import StyledTiles.Json.Reader
import StyledTiles.Json.Printer
import StyledTiles.Feature
import StyledTiles.Filter.Reader
import StyledTiles.Filter.Eval
import StyledTiles.Layer
import StyledTiles.Style.File
import StyledTiles.Log.Library.Logger
import StyledTiles.Settings
import StyledTiles.Metrics.Exposition
import StyledTiles.Tile.Batch
import StyledTiles.Text.Lines
import StyledTiles.Proofs.Decision
import StyledTiles.Proofs.Range
import StyledTiles.Proofs.Filter.Evaluation
import StyledTiles.Proofs.Filter.Parts
import StyledTiles.Proofs.Filter.Grammar
import StyledTiles.Proofs.Filter.Degraded
import StyledTiles.Proofs.Filter.Extended
import StyledTiles.Proofs.Filter.Resolved
import StyledTiles.Proofs.Style.Deciding
import StyledTiles.Proofs.Style.Grouping
import StyledTiles.Proofs.Style.Loading
import StyledTiles.Proofs.Style.Degraded
import StyledTiles.Proofs.Style.Looser
import StyledTiles.Proofs.Tile.Contents
import StyledTiles.Proofs.Tile.Shortcut
import StyledTiles.Proofs.Tile.Within
import StyledTiles.Proofs.Tile.Degraded
import StyledTiles.Proofs.Tile.Looser
import StyledTiles.Proofs.Tile.Books
import StyledTiles.Proofs.Tile.Samples
import StyledTiles.Proofs.Tile.Pool
import StyledTiles.Proofs.Tile.History
import StyledTiles.Proofs.Style.Reordered
import StyledTiles.Proofs.Style.Faults
import StyledTiles.Proofs.Tile.Reordered
import StyledTiles.Proofs.Tile.Modes
import StyledTiles.Proofs.Tile.Repeated
import StyledTiles.Proofs.Filter.Dual
import StyledTiles.Proofs.Filter.Reordered
import StyledTiles.Proofs.Filter.Mentions
import StyledTiles.Proofs.Style.Mentions
import StyledTiles.Proofs.Style.Indexed
import StyledTiles.Proofs.Style.Disjunction
import StyledTiles.Proofs.Number.Denoted
import StyledTiles.Proofs.Json.Keys
import StyledTiles.Proofs.Paint
import StyledTiles.Proofs.Style.Visible
import StyledTiles.Proofs.Filter.Rewritten
import StyledTiles.Proofs.Filter.Wrapped
import StyledTiles.Proofs.Filter.Respelled
import StyledTiles.Proofs.Filter.Written
import StyledTiles.Proofs.Filter.Congruence
import StyledTiles.Proofs.Filter.Membership
import StyledTiles.Proofs.Filter.Slots
import StyledTiles.Proofs.Style.Labelled
import StyledTiles.Proofs.Path
import StyledTiles.Proofs.Text.Integer
import StyledTiles.Proofs.Settings.Reading
import StyledTiles.Proofs.Settings.Faults
import StyledTiles.Proofs.Settings.Environment
import StyledTiles.Proofs.Json.Numerals
import StyledTiles.Proofs.Json.Lexemes
import StyledTiles.Proofs.Json.Written
import StyledTiles.Proofs.Json.Documents
import StyledTiles.Proofs.Style.File
import StyledTiles.Proofs.Connective
import StyledTiles.Proofs.Metrics.Sums
