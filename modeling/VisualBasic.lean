import VisualBasic.Block
import VisualBasic.Diagnostic
import VisualBasic.Directive
import VisualBasic.Export.Clause
import VisualBasic.Export.Datum
import VisualBasic.Export.Expression
import VisualBasic.Export.Findings
import VisualBasic.Export.KindTitle
import VisualBasic.Export.Node
import VisualBasic.Export.ProblemTitle
import VisualBasic.Export.Statement
import VisualBasic.Export.Token
import VisualBasic.Literal.Basic
import VisualBasic.Literal.Binary64
import VisualBasic.Literal.Date
import VisualBasic.Literal.Decimal
import VisualBasic.Literal.Integer
import VisualBasic.Literal.Numeral
import VisualBasic.Literal.TypeCharacter
import VisualBasic.Location
import VisualBasic.Parse.Argument
import VisualBasic.Parse.Backtrack
import VisualBasic.Parse.BlockStatement
import VisualBasic.Parse.Bodies
import VisualBasic.Parse.Body
import VisualBasic.Parse.Container
import VisualBasic.Parse.Declaration
import VisualBasic.Parse.Directive
import VisualBasic.Parse.Expression
import VisualBasic.Parse.Lookahead
import VisualBasic.Parse.Name
import VisualBasic.Parse.Rules
import VisualBasic.Parse.Sequence
import VisualBasic.Parse.Signature
import VisualBasic.Parse.SimpleStatement
import VisualBasic.Parse.Source
import VisualBasic.Parse.State
import VisualBasic.Parse.Type
import VisualBasic.Parse.Variable
import VisualBasic.Proofs.Comma.Source
import VisualBasic.Proofs.Loop.Closing
import VisualBasic.Proofs.Loop.Nest
import VisualBasic.Proofs.Loop.Phrase
import VisualBasic.Proofs.Loop.Source
import VisualBasic.Proofs.Parse.Argument
import VisualBasic.Proofs.Parse.Attempt
import VisualBasic.Proofs.Parse.Backtrack
import VisualBasic.Proofs.Parse.BlockStatement
import VisualBasic.Proofs.Parse.Bodies
import VisualBasic.Proofs.Parse.Body
import VisualBasic.Proofs.Parse.Books
import VisualBasic.Proofs.Parse.Comments
import VisualBasic.Proofs.Parse.Context
import VisualBasic.Proofs.Parse.Declaration
import VisualBasic.Proofs.Parse.Directive
import VisualBasic.Proofs.Parse.Ends
import VisualBasic.Proofs.Parse.Expression
import VisualBasic.Proofs.Parse.FileOrder
import VisualBasic.Proofs.Parse.Gap
import VisualBasic.Proofs.Parse.Lawful
import VisualBasic.Proofs.Parse.Name
import VisualBasic.Proofs.Parse.Precedence
import VisualBasic.Proofs.Parse.Print
import VisualBasic.Proofs.Parse.Progress
import VisualBasic.Proofs.Parse.Recovery
import VisualBasic.Proofs.Parse.Regions
import VisualBasic.Proofs.Parse.Rule
import VisualBasic.Proofs.Parse.Run
import VisualBasic.Proofs.Parse.Signature
import VisualBasic.Proofs.Parse.SimpleStatement
import VisualBasic.Proofs.Parse.Source
import VisualBasic.Proofs.Parse.Statement
import VisualBasic.Proofs.Parse.Stretch
import VisualBasic.Proofs.Parse.Type
import VisualBasic.Proofs.Parse.TypeRender
import VisualBasic.Proofs.Report.Account
import VisualBasic.Proofs.Report.Block
import VisualBasic.Proofs.Report.Body
import VisualBasic.Proofs.Report.Directive
import VisualBasic.Proofs.Report.Event
import VisualBasic.Proofs.Report.Lead
import VisualBasic.Proofs.Report.Leading
import VisualBasic.Proofs.Report.Member
import VisualBasic.Proofs.Report.Opening
import VisualBasic.Proofs.Report.Order
import VisualBasic.Proofs.Report.Phrase
import VisualBasic.Proofs.Report.Rule
import VisualBasic.Proofs.Report.Signature
import VisualBasic.Proofs.Report.Statement
import VisualBasic.Proofs.Report.Tally
import VisualBasic.Proofs.Scan.Date
import VisualBasic.Proofs.Scan.Demotion
import VisualBasic.Proofs.Scan.Extent
import VisualBasic.Proofs.Scan.Integer
import VisualBasic.Proofs.Scan.Leading
import VisualBasic.Proofs.Scan.Lexeme
import VisualBasic.Proofs.Scan.Line
import VisualBasic.Proofs.Scan.LineEnd
import VisualBasic.Proofs.Scan.Log
import VisualBasic.Proofs.Scan.Narrow
import VisualBasic.Proofs.Scan.Place
import VisualBasic.Proofs.Scan.Quoted
import VisualBasic.Proofs.Scan.Resume
import VisualBasic.Proofs.Scan.Seek
import VisualBasic.Proofs.Scan.Tiling
import VisualBasic.Proofs.Scan.Words
import VisualBasic.Proofs.Stray.Block
import VisualBasic.Proofs.Stray.Declaration
import VisualBasic.Proofs.Stray.Source
import VisualBasic.Proofs.Syntax.Ancestry
import VisualBasic.Proofs.Syntax.Nodes
import VisualBasic.Proofs.Syntax.Relocate
import VisualBasic.Proofs.Syntax.RelocateLaws
import VisualBasic.Proofs.Syntax.RelocateNode
import VisualBasic.Proofs.Syntax.Separation
import VisualBasic.Proofs.Tandem.Block
import VisualBasic.Proofs.Tandem.Declaration
import VisualBasic.Proofs.Tandem.Separators
import VisualBasic.Proofs.Tandem.Source
import VisualBasic.Proofs.Text.Bounds
import VisualBasic.Proofs.Text.Inert
import VisualBasic.Proofs.Text.Join
import VisualBasic.Proofs.Text.Lines
import VisualBasic.Proofs.Text.Sinks
import VisualBasic.Proofs.Text.TabWidth
import VisualBasic.Scan.Error
import VisualBasic.Scan.Lexeme
import VisualBasic.Scan.Number
import VisualBasic.Scan.Reader
import VisualBasic.Scan.Scanner
import VisualBasic.Syntax.Ancestry
import VisualBasic.Syntax.Clause
import VisualBasic.Syntax.Expression
import VisualBasic.Syntax.Modifier
import VisualBasic.Syntax.Name
import VisualBasic.Syntax.Node
import VisualBasic.Syntax.NodeKind
import VisualBasic.Syntax.Operator
import VisualBasic.Syntax.Statement
import VisualBasic.Syntax.Walk
import VisualBasic.Text.Class
import VisualBasic.Text.Letter
import VisualBasic.Text.Lines
import VisualBasic.Text.Numeral
import VisualBasic.Text.Width
import VisualBasic.Token.Basic
import VisualBasic.Token.Keyword
import VisualBasic.Token.Punctuator
import VisualBasic.Version
