import Vibescript.CommandLine.Basic
import Vibescript.Main
import Vibescript.Proofs.NameTable
import Vibescript.Proofs.Tree.Growth
import Vibescript.Proofs.Tree.Production
import Vibescript.Proofs.Tree.Spelling
import Vibescript.Proofs.Source.Tokens
import Vibescript.Proofs.Cursor.Consumption
import Vibescript.Proofs.Cursor.Pending
import Vibescript.Proofs.Cursor.Moves
import Vibescript.Proofs.Parser.Outcome
import Vibescript.Proofs.Parser.Reading
import Vibescript.Proofs.Parser.Steps
import Vibescript.Proofs.Parser.Bodies
import Vibescript.Proofs.Cursor.Lookahead
import Vibescript.Proofs.Parser.Lists
import Vibescript.Proofs.Parser.Expressions
import Vibescript.Proofs.Parser.Operators
import Vibescript.Proofs.Parser.Declarations
import Vibescript.Proofs.Parser.Faces
import Vibescript.Proofs.Parser.Statements
import Vibescript.Proofs.Parser.Program
import Vibescript.Proofs.Tree.Children
import Vibescript.Proofs.Tree.Spans
import Vibescript.Proofs.Tree.Whole
import Vibescript.Proofs.Source.Stream
import Vibescript.Proofs.Tree.Yield
import Vibescript.Proofs.Tree.Directives
import Vibescript.Proofs.Parser.Fidelity
import Vibescript.Proofs.Tree.Precedence
import Vibescript.Proofs.Source.Quotation
import Vibescript.Proofs.Cursor.Places
import Vibescript.Proofs.Parser.Parallel
import Vibescript.Proofs.Parser.Alike
import Vibescript.Proofs.Parser.Maintained
import Vibescript.Proofs.Parser.Levels
import Vibescript.Proofs.Parser.Parting
import Vibescript.Proofs.Parser.DepthLimit
import Vibescript.Proofs.Parser.FailFast
import Vibescript.Proofs.Parser.Resumption
import Vibescript.Proofs.Parser.Coverage
import Vibescript.Proofs.Source.Faults
import Vibescript.Proofs.Source.Recorded
import Vibescript.Proofs.Source.Tiling
import Vibescript.Proofs.Tree.Brackets
import Vibescript.Proofs.Tree.Colons
import Vibescript.Proofs.Parser.Blocks
import Vibescript.Proofs.Parser.Progress
import Vibescript.Proofs.Parser.Steady
import Vibescript.Proofs.Parser.Rounds
import Vibescript.Proofs.Parser.Termination
import Vibescript.Proofs.Parser.Completeness
import Vibescript.Proofs.Tree.Imports
import Vibescript.Proofs.Parser.SoleStatement
import Vibescript.Proofs.Parser.SoleExpression
import Vibescript.Proofs.Parser.TypeNames
import Vibescript.Proofs.Parser.KeywordColons
import Vibescript.Proofs.Source.Printing
import Vibescript.Proofs.Parser.Literals
import Vibescript.Proofs.Parser.Lockstep
import Vibescript.Proofs.Parser.Abreast
import Vibescript.Proofs.Cursor.Alignment
import Vibescript.Proofs.Cursor.Reader
import Vibescript.Proofs.Cursor.Transparency
import Vibescript.Proofs.Parser.Alignment
import Vibescript.Proofs.Parser.ErrorOrder
import Vibescript.Proofs.Parser.LexicalErrors
import Vibescript.Proofs.Source.Wording
import Vibescript.Proofs.Source.Words
import Vibescript.Proofs.Tree.Leaves
import Vibescript.Proofs.Parser.LayoutIndependence
import Vibescript.Proofs.Parser.Accumulation
import Vibescript.Proofs.Source.Respelling
import Vibescript.Proofs.Parser.Mirroring
import Vibescript.Proofs.Parser.Pausing
import Vibescript.Proofs.Parser.Concatenation
import Vibescript.Proofs.Parser.Enclosure
import Vibescript.Proofs.Tree.Descent
import Vibescript.Proofs.Parser.ErrorNodes
import Vibescript.Proofs.Tree.Displays
import Vibescript.Proofs.Parser.Truncation
import Vibescript.Proofs.Cursor.Directives
import Vibescript.Proofs.Parser.Verdicts
import Vibescript.Proofs.Source.Shapes
import Vibescript.Proofs.Tree.Naming
import Vibescript.Proofs.Tree.Separation
import Vibescript.Proofs.Source.DirectiveComments
import Vibescript.Proofs.Tree.DirectiveNodes
import Vibescript.Proofs.Source.Lookahead
import Vibescript.Proofs.Source.Clearing
import Vibescript.Proofs.Source.Spellings
import Vibescript.Proofs.Parser.Justification
import Vibescript.Proofs.Parser.JustifiedErrors
import Vibescript.Proofs.Parser.Openers
import Vibescript.Proofs.Tree.Outline
import Vibescript.Proofs.Tree.Payload
import Vibescript.Proofs.Tree.Unambiguous
import Vibescript.Proofs.Tree.Walk
import Vibescript.Proofs.Tree.PrintOrder
import Vibescript.Proofs.Tree.Rollback
import Vibescript.Proofs.Interning
import Vibescript.Proofs.Parser.Continuation
import Vibescript.Proofs.Parser.ImportRule
import Vibescript.Proofs.Diagnostic.Markers
import Vibescript.Proofs.Parser.Building
import Vibescript.Proofs.Parser.Nesting
import Vibescript.Proofs.Parser.Reports
