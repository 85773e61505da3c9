import ClosedForm.Evaluation
import ClosedForm.Expr.Substitution
import ClosedForm.Main
import ClosedForm.Proofs.Places
import ClosedForm.Text.Cursor
import ClosedForm.Proofs.ExactArithmetic
import ClosedForm.Proofs.Layout
import ClosedForm.Proofs.Grammar
import ClosedForm.Proofs.Reading
import ClosedForm.Proofs.RoundTrip
import ClosedForm.Proofs.Walk
import ClosedForm.Proofs.Formula
import ClosedForm.Proofs.Partition
import ClosedForm.Proofs.FirstFault
import ClosedForm.Proofs.Prefix
import ClosedForm.Proofs.Suspension
import ClosedForm.Proofs.Replacement
import ClosedForm.Proofs.Symbols
import ClosedForm.Proofs.Sides
import ClosedForm.Proofs.Diagnosis
import ClosedForm.Proofs.Relocation
import ClosedForm.Proofs.Spacing
import ClosedForm.Proofs.UniqueReading
import ClosedForm.Proofs.Calls
import ClosedForm.Proofs.Paths
import ClosedForm.Proofs.ReadingBack
import ClosedForm.Proofs.Account
import ClosedForm.Proofs.Sessions
import ClosedForm.Proofs.LineByLine
import ClosedForm.Proofs.Transcript
import ClosedForm.Proofs.JsonGrammar
import ClosedForm.Proofs.JsonText
import ClosedForm.Proofs.InputLines
import ClosedForm.Proofs.OneSided
import ClosedForm.Proofs.Resumption
import ClosedForm.Proofs.CursorSessions
import ClosedForm.Proofs.Valuation
import ClosedForm.Proofs.Exchange
import ClosedForm.Proofs.Renaming
import ClosedForm.Proofs.LeftmostFault
import ClosedForm.Proofs.ReadableNumbers
import ClosedForm.Proofs.Tallies
import ClosedForm.Proofs.NumberReading
