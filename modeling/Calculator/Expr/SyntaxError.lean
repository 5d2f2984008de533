import Calculator.Token

/-!
# What is wrong with a row of tokens

A reader that fails hands back a `Fault`: the cause, and the tokens from the one to blame onwards.
A `SyntaxError` says the same from outside, by the index of that token and by a span of the line.
-/

namespace Calculator

/-- How deep expressions may be nested: brackets, calls, negations and powers of powers. -/
def nestingLimit : Nat := 64

/-- What could have stood in a place. -/
inductive Expectation where
  /-- The beginning of an operand. -/
  | operand
  /-- What may follow an expression. -/
  | continuation
deriving DecidableEq

/-- An expectation in words. -/
def Expectation.describe : Expectation → String
  | operand => "number, constant, function or '('"
  | continuation => "operator or end of input"

/-- Why a row of tokens is no expression. -/
inductive SyntaxCause where
  /-- This token cannot stand where it does. -/
  | unexpectedToken (token : Token) (expected : Expectation)
  /-- The tokens end where an operand has to begin. -/
  | endOfInput
  /-- The bracket at `opening` is not closed. -/
  | unterminatedGroup (opening : Span)
  /-- The function `name` has no bracket behind it. -/
  | expectedCallBracket (name : Token)
  /-- The expression goes deeper than it may. -/
  | tooDeep
deriving DecidableEq

/-- A cause, and the tokens from the one to blame onwards; none when the end is to blame. -/
structure Fault where
  cause : SyntaxCause
  rest : List Token
deriving DecidableEq

/-- Why a row of tokens is no expression, with the index of the token to blame and the span to
show. -/
structure SyntaxError where
  cause : SyntaxCause
  pos : Nat
  span : Span
deriving DecidableEq

/-- The span just past the last of some tokens. -/
def endSpan (tokens : List Token) : Span :=
  match tokens.getLast? with
  | some t => t.span.past
  | none => ⟨0, 1⟩

/-- The span of the first token of `rest`, or just past the last one of `tokens`. -/
def headSpan (tokens rest : List Token) : Span :=
  match rest with
  | t :: _ => t.span
  | [] => endSpan tokens

/-- The error that a fault is for a reader of all of `tokens`. What is missing behind a function
name is shown just past that name, and all else at the token to blame. -/
def Fault.toError (tokens : List Token) (fault : Fault) : SyntaxError where
  cause := fault.cause
  pos := tokens.length - fault.rest.length
  span := match fault.cause with
    | .expectedCallBracket name => name.span.past
    | _ => headSpan tokens fault.rest

namespace SyntaxError

/-- The error in words. Tokens are counted from zero and bytes from one. -/
def message (e : SyntaxError) : String :=
  match e.cause with
  | .unexpectedToken token expected =>
    "Unexpected token '" ++ token.lexeme ++ "' at token " ++ toString e.pos ++
      " (expected " ++ expected.describe ++ ")"
  | .endOfInput => "Unexpected end of input at token " ++ toString e.pos
  | .unterminatedGroup opening =>
    "Missing ')' at token " ++ toString e.pos ++ " to close '(' at " ++
      toString (opening.start + 1)
  | .expectedCallBracket name => "Expected '(' after function name '" ++ name.lexeme ++ "'"
  | .tooDeep =>
    "Expression nested deeper than " ++ toString nestingLimit ++ " levels at token " ++
      toString e.pos

/-- The index of the first token that is left when reading stops with this error: a token that
cannot stand where it does has been used up. -/
def cursorAfter (e : SyntaxError) : Nat :=
  match e.cause with
  | .unexpectedToken .. => e.pos + 1
  | _ => e.pos

end SyntaxError

end Calculator
