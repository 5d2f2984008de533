import Calculator.CommandLine.Run
import Calculator.Main
import Calculator.Proofs.Grammar
import Calculator.Proofs.Terminal
import Calculator.Proofs.Reader
import Calculator.Proofs.Reading
import Calculator.Proofs.Parsing
import Calculator.Proofs.Nesting
import Calculator.Proofs.Scanning
import Calculator.Proofs.Subexpression
import Calculator.Proofs.Pattern
import Calculator.Proofs.Rounding
import Calculator.Proofs.NumberText
import Calculator.Proofs.Printing
import Calculator.Proofs.Height
import Calculator.Proofs.Blame
import Calculator.Proofs.Lossless
import Calculator.Proofs.Diagnostics
import Calculator.Proofs.Evaluation
import Calculator.Proofs.Evaluable
import Calculator.Proofs.Joining
import Calculator.Proofs.Composition
import Calculator.Proofs.Stripping
import Calculator.Proofs.Machine
import Calculator.Proofs.Resuming
import Calculator.Proofs.Lookahead
import Calculator.Proofs.Session
import Calculator.Proofs.Prompt
import Calculator.Proofs.Brackets
import Calculator.Proofs.Failing
import Calculator.Proofs.Spacing
import Calculator.Proofs.Checks
import Calculator.Proofs.Places
import Calculator.Proofs.Piping
import Calculator.Proofs.Flags
