import Oreo.Diagnostic
import Oreo.Json
import Oreo.Location
import Oreo.Log
import Oreo.Main
import Oreo.Node.Basic
import Oreo.Node.Json
import Oreo.Node.Outline
import Oreo.Number.Double
import Oreo.Number.Layout
import Oreo.Number.Shortest
import Oreo.Options
import Oreo.Parse.Expression
import Oreo.Parse.Fault
import Oreo.Parse.Parser
import Oreo.Parse.Program
import Oreo.Parse.Session
import Oreo.Parse.Statement
import Oreo.Proofs.Diagnostic.FiveLines
import Oreo.Proofs.Diagnostic.Underlines
import Oreo.Proofs.Node.Decoding
import Oreo.Proofs.Parse.Brackets
import Oreo.Proofs.Parse.Cases
import Oreo.Proofs.Parse.CommaLists
import Oreo.Proofs.Parse.Completeness
import Oreo.Proofs.Parse.Concatenation
import Oreo.Proofs.Parse.Content
import Oreo.Proofs.Parse.DanglingElse
import Oreo.Proofs.Parse.Depth
import Oreo.Proofs.Parse.ErrorPlaces
import Oreo.Proofs.Parse.Errors
import Oreo.Proofs.Parse.Failure
import Oreo.Proofs.Parse.ImpliedStep
import Oreo.Proofs.Parse.Layout
import Oreo.Proofs.Parse.Legible
import Oreo.Proofs.Parse.Limit
import Oreo.Proofs.Parse.Lookahead
import Oreo.Proofs.Parse.Precedence
import Oreo.Proofs.Parse.Print
import Oreo.Proofs.Parse.Progress
import Oreo.Proofs.Parse.Reading
import Oreo.Proofs.Parse.Reuse
import Oreo.Proofs.Parse.RoundTrip
import Oreo.Proofs.Parse.Shape
import Oreo.Proofs.Parse.Soundness
import Oreo.Proofs.Parse.Spans
import Oreo.Proofs.Parse.Success
import Oreo.Proofs.Parse.Termination
import Oreo.Proofs.Token.Comments
import Oreo.Proofs.Token.Decimals
import Oreo.Proofs.Token.Extent
import Oreo.Proofs.Token.Faults
import Oreo.Proofs.Token.Lines
import Oreo.Proofs.Token.Locality
import Oreo.Proofs.Token.Longest
import Oreo.Proofs.Token.OneLine
import Oreo.Proofs.Token.Positions
import Oreo.Proofs.Token.Scanning
import Oreo.Proofs.Token.Strings
import Oreo.Proofs.Token.Tiling
import Oreo.Report
import Oreo.Shell.Arguments
import Oreo.Shell.Files
import Oreo.Shell.Run
import Oreo.Text.Blank
import Oreo.Token.Basic
import Oreo.Token.Fault
import Oreo.Token.Lexeme
import Oreo.Token.Lexer
