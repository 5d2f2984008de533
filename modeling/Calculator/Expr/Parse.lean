import Calculator.Expr.Reader

/-!
# Expressions of a row of tokens

`Located.parse` reads a whole row of tokens as one expression. A `Cursor` reads one expression after
the other from the same row and goes on behind each, or behind what stopped it.
-/

namespace Calculator

/-- The expression that all of `tokens` make, in at most `levels` levels. -/
def Located.parseWithin (levels : Nat) (tokens : List Token) : Except SyntaxError Located :=
  match (Depth.within levels).expression tokens with
  | .error fault => .error (fault.toError tokens)
  | .ok read =>
    match read.rest with
    | [] => .ok read.value
    | t :: rest => .error (Fault.toError tokens ⟨.unexpectedToken t .continuation, t :: rest⟩)

/-- The expression that all of `tokens` make. -/
def Located.parse (tokens : List Token) : Except SyntaxError Located :=
  parseWithin nestingLimit tokens

/-- A row of tokens and the index of the next one to read. -/
structure Cursor where
  tokens : List Token
  index : Nat

namespace Cursor

/-- The cursor in front of the first token. -/
def start (tokens : List Token) : Cursor :=
  ⟨tokens, 0⟩

/-- Reads the expression behind the cursor, in at most `levels` levels, and moves on: behind the
expression, or to where reading stopped. -/
def readWithin (levels : Nat) (c : Cursor) : Except SyntaxError Located × Cursor :=
  match (Depth.within levels).expression (c.tokens.drop c.index) with
  | .error fault =>
    let e := fault.toError c.tokens
    (.error e, ⟨c.tokens, e.cursorAfter⟩)
  | .ok read => (.ok read.value, ⟨c.tokens, c.tokens.length - read.rest.length⟩)

/-- Reads the expression behind the cursor and moves on. -/
def read (c : Cursor) : Except SyntaxError Located × Cursor :=
  c.readWithin nestingLimit

end Cursor

end Calculator
