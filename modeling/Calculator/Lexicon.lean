import Calculator.Builtin
import Calculator.Constant
import Calculator.Number.Decimal
import Calculator.Operator

/-!
# The lexicon

Every lexeme that the language knows by its spelling, and what a lexeme can do. A token carries no
tag: what it means is read off its lexeme, and `mod` is an operator behind an operand and a function
in front of one.
-/

namespace Calculator

namespace Lexicon

/-- The characters of numerals. -/
def numeralMarks : List Char := ['0', '1', '2', '3', '4', '5', '6', '7', '8', '9', '.']

/-- The lexeme that opens a group or the arguments of a call. -/
def openBracket : String := "("

/-- The lexeme that closes what `openBracket` opens. -/
def closeBracket : String := ")"

/-- The lexeme between two arguments. -/
def comma : String := ","

/-- The lexeme that negates the operand behind it. -/
def minus : String := "-"

/-- Brackets and the comma. -/
def punctuation : List String := [openBracket, closeBracket, comma]

/-- The characters that are numeral marks, as lexemes. -/
def digits : List String := numeralMarks.map String.singleton

/-- The spellings of all operators. -/
def operators : List String := BinaryOp.all.map BinaryOp.symbol

/-- The names of all functions. -/
def functionNames : List String := Builtin.all.map Builtin.name

/-- The names of all constants. -/
def constantNames : List String := Constant.all.map Constant.name

/-- Every known lexeme once, longer ones first; equally long ones keep the order of the lists. -/
def symbols : List String :=
  (digits ++ operators ++ punctuation ++ functionNames ++ constantNames).eraseDups.mergeSort
    fun a b => b.utf8ByteSize ≤ a.utf8ByteSize

end Lexicon

/-- How an operand can begin. -/
inductive Opening where
  /-- A minus sign, with the operand that it negates behind it. -/
  | negation
  /-- A bracket, with an expression and its closing bracket behind it. -/
  | group
  /-- The name of a function, with bracketed arguments behind it. -/
  | call (f : Builtin)
  /-- A constant or a number, which is the whole operand. -/
  | value (x : Float)

/-- How an operand begins with `lexeme`, if it can. -/
def Opening.ofLexeme? (lexeme : String) : Option Opening :=
  if lexeme = Lexicon.minus then some .negation
  else if lexeme = Lexicon.openBracket then some .group
  else match Builtin.ofName? lexeme with
    | some f => some (.call f)
    | none => match Constant.ofName? lexeme with
      | some k => some (.value k.value)
      | none => (Number.ofText? lexeme.toList).map .value

end Calculator
