import MiniLisp.Config
import MiniLisp.Decimal.Basic
import MiniLisp.Decimal.Notation
import MiniLisp.Decimal.Shortest
import MiniLisp.Error
import MiniLisp.Eval.Call
import MiniLisp.Eval.Console
import MiniLisp.Eval.Evaluator
import MiniLisp.Eval.Expansion
import MiniLisp.Eval.Form
import MiniLisp.Eval.Quasiquote
import MiniLisp.Interpreter
import MiniLisp.Native
import MiniLisp.Primitive.Apply
import MiniLisp.Primitive.Numeric
import MiniLisp.Proofs.Captures
import MiniLisp.Proofs.Completion
import MiniLisp.Proofs.Descent
import MiniLisp.Proofs.DynamicScope
import MiniLisp.Proofs.Escapes
import MiniLisp.Proofs.ExpansionLimit
import MiniLisp.Proofs.Failures
import MiniLisp.Proofs.Forest
import MiniLisp.Proofs.FrameEffect
import MiniLisp.Proofs.Gathering
import MiniLisp.Proofs.Grammar
import MiniLisp.Proofs.History
import MiniLisp.Proofs.Idempotence
import MiniLisp.Proofs.IntegerCalls
import MiniLisp.Proofs.IntegerLiterals
import MiniLisp.Proofs.Invariant
import MiniLisp.Proofs.Joining
import MiniLisp.Proofs.LetterCase
import MiniLisp.Proofs.Locality
import MiniLisp.Proofs.Logging
import MiniLisp.Proofs.NumericCalls
import MiniLisp.Proofs.Outcome
import MiniLisp.Proofs.Positions
import MiniLisp.Proofs.Rereading
import MiniLisp.Proofs.Rewrites
import MiniLisp.Proofs.RoundTrip
import MiniLisp.Proofs.Scanning
import MiniLisp.Proofs.Scope
import MiniLisp.Proofs.Session
import MiniLisp.Proofs.Settings
import MiniLisp.Proofs.SharedFrames
import MiniLisp.Proofs.Simulation
import MiniLisp.Proofs.Stream
import MiniLisp.Proofs.Substitution
import MiniLisp.Proofs.Template
import MiniLisp.Proofs.Termination
import MiniLisp.Proofs.Tokenisation
import MiniLisp.Proofs.Unexpanded
import MiniLisp.Proofs.ValueClosure
import MiniLisp.Source.Atom
import MiniLisp.Source.Lexer
import MiniLisp.Source.Literal
import MiniLisp.Source.Parser
import MiniLisp.Source.ReadError
import MiniLisp.Source.Stream
import MiniLisp.Source.Token
import MiniLisp.Store.Basic
import MiniLisp.Store.Listing
import MiniLisp.Store.Update
import MiniLisp.Text.Blank
import MiniLisp.Text.Cased
import MiniLisp.Text.CodePoint
import MiniLisp.Text.DecimalDigit
import MiniLisp.Text.LowerCase
import MiniLisp.Text.Printable
import MiniLisp.Text.Quoted
import MiniLisp.Value.Basic
import MiniLisp.Value.Identity
import MiniLisp.Value.Printer
import MiniLisp.World
