import Calculator.Expr
import Calculator.Number.Shortest

/-!
# The text of an expression

An expression is written with all its brackets: one pair around each negation and each operator with
its operands, and those of calls. Numbers have none, also when they are negative.
-/

namespace Calculator

namespace Expr

variable {α : Type}

mutual

/-- The text of an expression, with all its brackets. -/
def text : Expr α → String
  | number x _ => Number.text x
  | negate e _ => "(-" ++ e.text ++ ")"
  | binary op l r _ => "(" ++ l.text ++ " " ++ op.symbol ++ " " ++ r.text ++ ")"
  | call name _ args _ => name ++ "(" ++ argumentText args ++ ")"

/-- The texts of arguments, with a comma and a blank between them. -/
def argumentText : List (Expr α) → String
  | [] => ""
  | [e] => e.text
  | e :: rest => e.text ++ ", " ++ argumentText rest

end

end Expr

end Calculator
