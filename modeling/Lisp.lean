import Lisp.Editor.Documents
import Lisp.Expr.Payload
import Lisp.Layout
import Lisp.Main
import Lisp.Reader.Grammar
import Lisp.Reader.Readable
import Lisp.Proofs.Lexer.LineBreak
import Lisp.Proofs.Reader.Grammar
import Lisp.Proofs.Reader.LineBreak
import Lisp.Proofs.Expr.Print
import Lisp.Proofs.Reader.Readable
import Lisp.Proofs.Reader.RoundTrip
import Lisp.Proofs.Eval.Part
import Lisp.Proofs.Session.Run
import Lisp.Proofs.Repl.Batch
import Lisp.Proofs.Reader.OnePass
import Lisp.Proofs.Reader.Completion
import Lisp.Proofs.Lexer.Offset
import Lisp.Proofs.Reader.Form
import Lisp.Proofs.Text.Position
import Lisp.Proofs.Server.Request
import Lisp.Proofs.Editor.Analysis
import Lisp.Proofs.Server.Framing
import Lisp.Proofs.Repl.Run
import Lisp.Proofs.CommandLine.Program
import Lisp.Proofs.Totality
import Lisp.Proofs.Server.ReadBack
import Lisp.Proofs.Session.LineBreak
import Lisp.Proofs.Repl.Pending
import Lisp.Proofs.Editor.LineBreak
import Lisp.Proofs.Eval.Effect
import Lisp.Proofs.Eval.Replacement
import Lisp.Proofs.Eval.NormalForm
import Lisp.Proofs.Eval.Extension
import Lisp.Proofs.Eval.Failure
import Lisp.Proofs.Server.History
import Lisp.Proofs.Environment.History
import Lisp.Proofs.Environment.Equality
import Lisp.Proofs.Lexer.Lossless
import Lisp.Proofs.Reader.Insertion
import Lisp.Proofs.Reader.Brackets
import Lisp.Proofs.Reader.FaultPosition
import Lisp.Proofs.Reader.Calls
import Lisp.Proofs.Editor.Report
import Lisp.Proofs.Editor.Word
import Lisp.Proofs.Editor.Documents
import Lisp.Proofs.Expr.Comparison
import Lisp.Proofs.Editor.LineEnd
import Lisp.Proofs.Text.LineStart
import Lisp.Proofs.Reader.Single
