import Calculator.Expr.Parse
import Calculator.Expr.Value
import Calculator.Token.Scan

/-!
# The value of a line

A line is cut into tokens, the tokens are read as an expression, and the expression is worked out.
The first of the three steps that fails decides, and nothing is kept from one line to the next.
-/

namespace Calculator

/-- Why a line has no value. -/
inductive LineError where
  | lexical (e : LexicalError)
  | grammatical (e : SyntaxError)
  | evaluation (e : EvaluationError Span)
deriving DecidableEq

namespace LineError

/-- The stretch of the line to show. -/
def span : LineError → Span
  | lexical e => e.span
  | grammatical e => e.span
  | evaluation e => e.note

/-- What went wrong, without the step in which it did. -/
def cause : LineError → String
  | lexical e => e.message
  | grammatical e => e.message
  | evaluation e => e.message

/-- What went wrong, and in which step. -/
def message : LineError → String
  | lexical e => "Lexical error: " ++ e.message
  | grammatical e => "Syntax error: " ++ e.message
  | evaluation e => "Evaluation error: " ++ e.message

end LineError

/-- The tokens of a line. -/
def tokensOfLine (line : String) : Except LineError (List Token) :=
  (tokenize line).mapError .lexical

/-- The expression that a line holds. -/
def parseLine (line : String) : Except LineError Located := do
  let tokens ← tokensOfLine line
  (Located.parse tokens).mapError .grammatical

/-- The value of the expression that a line holds. -/
def evalLine (line : String) : Except LineError Float := do
  let e ← parseLine line
  e.value.mapError .evaluation

end Calculator
