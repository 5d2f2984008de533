import Calculator.Text.Span

/-!
# Tokens

A token is a piece of a line that means something, with the place where it was found. This module
also has the two ways in which a line can fail to fall into tokens.
-/

namespace Calculator

/-- A lexeme and where it stands in the line. -/
structure Token where
  lexeme : String
  span : Span
deriving DecidableEq

/-- The same token, `k` bytes further right. -/
def Token.shift (k : Nat) (t : Token) : Token :=
  ⟨t.lexeme, t.span.shift k⟩

/-- Why a line does not fall into tokens. -/
inductive LexicalError where
  /-- A row of digits and points that is no numeral. -/
  | malformedNumber (span : Span) (text : String)
  /-- A character that begins no token. -/
  | foreignCharacter (place : Nat) (c : Char)
deriving DecidableEq

namespace LexicalError

/-- What is to blame. -/
def span : LexicalError → Span
  | malformedNumber span _ => span
  | foreignCharacter place c => ⟨place, place + c.utf8Size⟩

/-- The same failure, `k` bytes further right. -/
def shift (k : Nat) : LexicalError → LexicalError
  | malformedNumber span text => malformedNumber (span.shift k) text
  | foreignCharacter place c => foreignCharacter (k + place) c

/-- The failure in words. -/
def message : LexicalError → String
  | malformedNumber _ text => "Invalid number: '" ++ text ++ "'"
  | foreignCharacter _ c => "Invalid character: '" ++ String.singleton c ++ "'"

end LexicalError

end Calculator
