import IntScript.Backend
import IntScript.Bindings
import IntScript.CommandLine
import IntScript.Console
import IntScript.Decimal.Binary64
import IntScript.Decimal.Reading
import IntScript.Decimal.Rounding
import IntScript.Decimal.Spelling
import IntScript.Evaluation
import IntScript.Main
import IntScript.Node
import IntScript.Node.Grammar
import IntScript.Node.Render
import IntScript.Node.Same
import IntScript.Node.Spine
import IntScript.Position
import IntScript.Program
import IntScript.Quotient
import IntScript.Report
import IntScript.Report.Diagnosis
import IntScript.Report.Registry
import IntScript.Report.Reporter
import IntScript.Report.Trouble
import IntScript.Report.Wording
import IntScript.Session
import IntScript.Session.Folder
import IntScript.Session.SourceFile
import IntScript.Shell
import IntScript.Shell.Line
import IntScript.Text.Blank
import IntScript.Text.Count
import IntScript.Text.Digit
import IntScript.Text.Layout
import IntScript.Text.Lines
import IntScript.Text.Quoted
import IntScript.Text.Slice
import IntScript.Text.Host
import IntScript.Text.Template
import IntScript.Text.Unmarked
import IntScript.Token
import IntScript.Token.Piece
import IntScript.Token.Scanner
import IntScript.Token.Window
import IntScript.Value
import IntScript.Proofs.Cutting
import IntScript.Proofs.Marking
import IntScript.Proofs.Derivation
import IntScript.Proofs.Erasure
import IntScript.Proofs.Factorisation
import IntScript.Proofs.ReadingCompleteness
import IntScript.Proofs.Acceptance
import IntScript.Proofs.Leftward
import IntScript.Proofs.Writing
import IntScript.Proofs.DirectEvaluation
import IntScript.Proofs.WrittenPieces
import IntScript.Proofs.Rereading
import IntScript.Proofs.RoundTrip
import IntScript.Proofs.Running
import IntScript.Proofs.Filling
import IntScript.Proofs.Reporting
import IntScript.Proofs.SessionSteps
import IntScript.Proofs.Faultless
import IntScript.Proofs.Lookahead
import IntScript.Proofs.ViablePrefix
import IntScript.Proofs.EarliestError
import IntScript.Proofs.Joining
import IntScript.Proofs.OpenString
import IntScript.Proofs.PromptAndFile
import IntScript.Proofs.Closing
import IntScript.Proofs.Queueing
import IntScript.Proofs.LineSteps
import IntScript.Proofs.TypedLines
import IntScript.Proofs.LinesAsSource
import IntScript.Proofs.LineIndependence
import IntScript.Proofs.Halting
import IntScript.Proofs.Spots
import IntScript.Proofs.Pointing
import IntScript.Proofs.Braces
import IntScript.Proofs.Thinning
import IntScript.Proofs.InternalFaults
import IntScript.Proofs.LatestSource
import IntScript.Proofs.Outlining
import IntScript.Proofs.Registration
import IntScript.Proofs.Nesting
import IntScript.Proofs.OpenFactors
import IntScript.Proofs.LargerLimit
import IntScript.Proofs.RightEdges
import IntScript.Proofs.FewestParentheses
import IntScript.Proofs.PulledTokens
import IntScript.Proofs.LinesBelow
import IntScript.Proofs.SameForms
import IntScript.Proofs.Respacing
import IntScript.Proofs.Inputs
import IntScript.Proofs.FirstFault
import IntScript.Proofs.Comparison
import IntScript.Proofs.SourceOrder
import IntScript.Proofs.StrayStatements
import IntScript.Proofs.BindingHistory
import IntScript.Proofs.Diagnosing
import IntScript.Proofs.Offsets
import IntScript.Proofs.Truncation
import IntScript.Proofs.Underlining
import IntScript.Proofs.ErrorTexts
import IntScript.Proofs.FileMode
import IntScript.Proofs.ScanProgress
import IntScript.Proofs.DrawCount
