import Calculator.Number.Remainder

/-!
# Binary operators

The operators between two operands, how they are written, what they compute and how strongly they
bind. Operators of one precedence group to the left, except that powers group to the right.
-/

namespace Calculator

/-- The binary operators. -/
inductive BinaryOp where
  | add | sub | mul | div | pow | mod
deriving DecidableEq

/-- How strongly operators bind, loosest first. -/
inductive Precedence where
  | additive | multiplicative | exponent
deriving DecidableEq

namespace Precedence

/-- All precedences, loosest first. -/
def all : List Precedence := [additive, multiplicative, exponent]

/-- The rank of a precedence, counted from one. -/
def rank : Precedence → Nat
  | additive => 1
  | multiplicative => 2
  | exponent => 3

/-- The precedence that binds one step tighter; past powers come operands. -/
def tighter? : Precedence → Option Precedence
  | additive => some multiplicative
  | multiplicative => some exponent
  | exponent => none

/-- Whether operators of a precedence group to the right. -/
def groupsRight (p : Precedence) : Bool :=
  p == exponent

end Precedence

namespace BinaryOp

/-- All operators. -/
def all : List BinaryOp := [add, sub, mul, div, pow, mod]

/-- How an operator is written. -/
def symbol : BinaryOp → String
  | add => "+"
  | sub => "-"
  | mul => "*"
  | div => "/"
  | pow => "^"
  | mod => "mod"

/-- How strongly an operator binds. -/
def precedence : BinaryOp → Precedence
  | add | sub => .additive
  | mul | div | mod => .multiplicative
  | pow => .exponent

/-- The operator that is written as `lexeme`. -/
def ofSymbol? (lexeme : String) : Option BinaryOp :=
  all.find? fun op => op.symbol == lexeme

/-- The operator of precedence `p` that is written as `lexeme`. -/
def atPrecedence? (p : Precedence) (lexeme : String) : Option BinaryOp :=
  (ofSymbol? lexeme).filter fun op => op.precedence == p

/-- What an operator computes. A division by zero is no error: it gives an infinity or no number. -/
def apply : BinaryOp → Float → Float → Float
  | add, a, b => a + b
  | sub, a, b => a - b
  | mul, a, b => a * b
  | div, a, b => a / b
  | pow, a, b => a.pow b
  | mod, a, b => Number.remainder a b

/-- No two operators are written alike. -/
@[simp] theorem ofSymbol?_symbol (op : BinaryOp) : ofSymbol? op.symbol = some op := by
  cases op <;> decide

/-- An operator is found only under its own symbol. -/
theorem ofSymbol?_eq_some_iff {lexeme : String} {op : BinaryOp} :
    ofSymbol? lexeme = some op ↔ op.symbol = lexeme := by
  constructor
  · intro h
    simpa using List.find?_some h
  · rintro rfl
    exact ofSymbol?_symbol op

end BinaryOp

end Calculator
