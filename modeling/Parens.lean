import Parens.Text.Blank
import Parens.Text.Lower.Settled
import Parens.Text.Upper
import Parens.Text.Digit
import Parens.Text.Quoted
import Parens.Number.Binary64
import Parens.Number.Numeral
import Parens.Number.Grammar
import Parens.Number.Shortest
import Parens.Number.Format
import Parens.Term.Equality
import Parens.Term.Parts
import Parens.Term.Printer
import Parens.Term.Inspect
import Parens.Term.Text
import Parens.Term.Readable
import Parens.Term.Grammar
import Parens.Token.Lexer
import Parens.Token.Layout
import Parens.Reader.Descent
import Parens.Session
import Parens.Setting
import Parens.Token.Lexeme
import Parens.Proofs.Text.Reserved
import Parens.Proofs.Number.Bits
import Parens.Proofs.Number.Magnitude
import Parens.Proofs.Number.Rounding
import Parens.Proofs.Number.Shortest
import Parens.Proofs.Number.Text
import Parens.Proofs.Token.Run
import Parens.Proofs.Token.Lexing
import Parens.Proofs.Term.Unambiguous
import Parens.Proofs.Reader.Recursion
import Parens.Proofs.Reader.Descent
import Parens.Proofs.Reader.Grammar
import Parens.Proofs.Term.Equality
import Parens.Proofs.Term.Text
import Parens.Proofs.Term.Plain
import Parens.Proofs.Term.RoundTrip
import Parens.Proofs.Term.Overflow
import Parens.Proofs.Token.MaximalRun
import Parens.Proofs.Token.Coverage
import Parens.Proofs.Token.Pushback
import Parens.Proofs.Token.Spacing
import Parens.Proofs.Reader.Lockstep
import Parens.Token.Path
import Parens.Term.Opened
import Parens.Proofs.Text.Context
import Parens.Proofs.Token.Path
import Parens.Proofs.Token.Case
import Parens.Proofs.Reader.Outcome
import Parens.Proofs.Reader.Forward
import Parens.Proofs.Reader.Viable
import Parens.Proofs.Reader.Nesting
import Parens.Proofs.Reader.Concatenation
import Parens.Proofs.Reader.Case
import Parens.Proofs.Reader.Faults
import Parens.Proofs.Store.Bindings
import Parens.Store.History
import Parens.Proofs.Store.Lookup
import Parens.Evaluator.Flat
import Parens.Proofs.Evaluation.Primitive
import Parens.Proofs.Evaluation.Sequence
import Parens.Proofs.Evaluation.Termination
import Parens.Proofs.Term.Application
import Parens.Proofs.Session.Call
import Parens.Proofs.Session.Order
import Parens.Proofs.Term.NormalForm
import Parens.Proofs.Number.Nearest
import Parens.Proofs.Number.Order
import Parens.Number.Spelling
import Parens.Proofs.Number.Spelling
import Parens.Proofs.Reader.Numeral
import Parens.Proofs.Number.Minimal
import Parens.Proofs.Reader.Progress
import Parens.Proofs.Reader.Exchange
import Parens.Term.Shape
import Parens.Proofs.Reader.Shape
import Parens.Term.Printing
import Parens.Proofs.Term.Printing
import Parens.Proofs.Reader.Printed
import Parens.Proofs.Number.Comparison
import Parens.Term.Matching
import Parens.Proofs.Term.Matching
import Parens.Proofs.Term.Parts
import Parens.Proofs.Procedure.Contract
import Parens.Term.Chain
import Parens.Proofs.Term.Chain
