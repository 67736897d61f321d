import Highlighting.CommandLine.LogFilter
import Highlighting.CommandLine.Options
import Highlighting.CommandLine.Program
import Highlighting.Grammar.Basic
import Highlighting.Grammar.Common
import Highlighting.Grammar.Error
import Highlighting.Grammar.Layout
import Highlighting.Grammar.Rule
import Highlighting.Grammar.Words
import Highlighting.Highlight
import Highlighting.Highlighter
import Highlighting.Html
import Highlighting.Jacy
import Highlighting.Log
import Highlighting.Main
import Highlighting.Pattern.Basic
import Highlighting.Pattern.Bounds
import Highlighting.Pattern.Bracket
import Highlighting.Pattern.CharSet
import Highlighting.Pattern.Escape
import Highlighting.Pattern.Flags
import Highlighting.Pattern.Match
import Highlighting.Pattern.Parser
import Highlighting.Pattern.Program
import Highlighting.Pattern.Simple
import Highlighting.Pattern.Token
import Highlighting.Proofs.Checked.Attempt
import Highlighting.Proofs.Checked.Matching
import Highlighting.Proofs.Checked.Run
import Highlighting.Proofs.Checked.Safety
import Highlighting.Proofs.Checked.Sorting
import Highlighting.Proofs.Checked.State
import Highlighting.Proofs.Checked.Views
import Highlighting.Proofs.CommandLine.Listing
import Highlighting.Proofs.CommandLine.Plain
import Highlighting.Proofs.Grammar.Assembly
import Highlighting.Proofs.Grammar.Compiling
import Highlighting.Proofs.Grammar.Consistency
import Highlighting.Proofs.Grammar.Listed
import Highlighting.Proofs.Grammar.Mirror
import Highlighting.Proofs.Grammar.Numbering
import Highlighting.Proofs.Grammar.Operators
import Highlighting.Proofs.Grammar.Places
import Highlighting.Proofs.Grammar.Vocabulary
import Highlighting.Proofs.Html.Decoding
import Highlighting.Proofs.Html.Escaping
import Highlighting.Proofs.Html.Pieces
import Highlighting.Proofs.Jacy
import Highlighting.Proofs.Jacy.Attributes
import Highlighting.Proofs.Jacy.CallRule
import Highlighting.Proofs.Jacy.Calls
import Highlighting.Proofs.Jacy.Comments
import Highlighting.Proofs.Jacy.Identifiers
import Highlighting.Proofs.Jacy.Illegal
import Highlighting.Proofs.Jacy.Keywords
import Highlighting.Proofs.Jacy.Loops
import Highlighting.Proofs.Jacy.Nesting
import Highlighting.Proofs.Jacy.Numbers
import Highlighting.Proofs.Jacy.Openings
import Highlighting.Proofs.Jacy.Operators
import Highlighting.Proofs.Jacy.Patterns
import Highlighting.Proofs.Jacy.RawStrings
import Highlighting.Proofs.Jacy.Strings
import Highlighting.Proofs.Jacy.WordEnds
import Highlighting.Proofs.Pattern.Adequacy
import Highlighting.Proofs.Pattern.Charts
import Highlighting.Proofs.Pattern.Choices
import Highlighting.Proofs.Pattern.Edges
import Highlighting.Proofs.Pattern.Embedding
import Highlighting.Proofs.Pattern.Escaped
import Highlighting.Proofs.Pattern.Literal
import Highlighting.Proofs.Pattern.LiteralChoice
import Highlighting.Proofs.Pattern.Locality
import Highlighting.Proofs.Pattern.Meaning
import Highlighting.Proofs.Pattern.Paths
import Highlighting.Proofs.Pattern.Preference
import Highlighting.Proofs.Pattern.Refusals
import Highlighting.Proofs.Pattern.Renumbering
import Highlighting.Proofs.Pattern.Runs
import Highlighting.Proofs.Pattern.Spellings
import Highlighting.Proofs.Pattern.Takes
import Highlighting.Proofs.Pattern.Ways
import Highlighting.Proofs.Registry
import Highlighting.Proofs.Registry.Detection
import Highlighting.Proofs.Scan.Accounting
import Highlighting.Proofs.Scan.Alike
import Highlighting.Proofs.Scan.Bracketing
import Highlighting.Proofs.Scan.Catching
import Highlighting.Proofs.Scan.Coverage
import Highlighting.Proofs.Scan.Descent
import Highlighting.Proofs.Scan.Descents
import Highlighting.Proofs.Scan.Events
import Highlighting.Proofs.Scan.Exposure
import Highlighting.Proofs.Scan.Extent
import Highlighting.Proofs.Scan.Fences
import Highlighting.Proofs.Scan.Finding
import Highlighting.Proofs.Scan.Guarding
import Highlighting.Proofs.Scan.Halting
import Highlighting.Proofs.Scan.Hiding
import Highlighting.Proofs.Scan.Illegal
import Highlighting.Proofs.Scan.Labels
import Highlighting.Proofs.Scan.Lasting
import Highlighting.Proofs.Scan.Nesting
import Highlighting.Proofs.Scan.Opened
import Highlighting.Proofs.Scan.Operations
import Highlighting.Proofs.Scan.Origins
import Highlighting.Proofs.Scan.PartsInLine
import Highlighting.Proofs.Scan.PartsRegions
import Highlighting.Proofs.Scan.PartsTiling
import Highlighting.Proofs.Scan.Segments
import Highlighting.Proofs.Scan.Simulation
import Highlighting.Proofs.Scan.Sorting
import Highlighting.Proofs.Scan.Splitting
import Highlighting.Proofs.Scan.Tally
import Highlighting.Proofs.Scan.Turns
import Highlighting.Proofs.Scan.WordStarts
import Highlighting.Proofs.Scan.Yield
import Highlighting.Proofs.Text.Cuts
import Highlighting.Proofs.Text.Lines
import Highlighting.Proofs.Text.Offsets
import Highlighting.Proofs.Text.Order
import Highlighting.Proofs.Text.Reading
import Highlighting.Proofs.Text.Rounding
import Highlighting.Proofs.Tree.Agreement
import Highlighting.Proofs.Tree.Bytes
import Highlighting.Proofs.Tree.Fitting
import Highlighting.Proofs.Tree.Hiding
import Highlighting.Proofs.Tree.Leaves
import Highlighting.Proofs.Tree.Listing
import Highlighting.Proofs.Tree.Marks
import Highlighting.Proofs.Tree.Occurring
import Highlighting.Proofs.Tree.Tiling
import Highlighting.Registry
import Highlighting.Scan.Attempt
import Highlighting.Scan.Run
import Highlighting.Scan.State
import Highlighting.Scan.Words
import Highlighting.Scope
import Highlighting.Text.Cursor
import Highlighting.Text.LowerCase
import Highlighting.Text.Position
import Highlighting.Text.Quoted
import Highlighting.Text.Source
import Highlighting.Tree
import Highlighting.Unicode.Alphanumeric
import Highlighting.Unicode.Blank
import Highlighting.Unicode.Cased
import Highlighting.Unicode.Digit
import Highlighting.Unicode.Folding
import Highlighting.Unicode.Lower
import Highlighting.Unicode.Printable
import Highlighting.Unicode.Ranges
import Highlighting.Unicode.Runs
import Highlighting.Unicode.Word
