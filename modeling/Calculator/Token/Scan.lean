import Calculator.Lexicon
import Calculator.Text.Blank
import Calculator.Token

/-!
# Tokens of a line

A line is read from left to right, one piece at a time. `Piece.first` says what the next piece is
and `tokenize` collects the lexemes. White space separates tokens and is dropped.

Digits and points always run on as far as they go. Of the rest, the name of a function comes first
even where a longer word begins with it, so `absent` is the function `abs` and the word `ent`.
-/

namespace Calculator

/-- Whether `c` can be in a numeral. -/
def isNumeralMark (c : Char) : Bool :=
  c.isDigit || c == '.'

/-- Whether a word can begin with `c`. -/
def isWordStart (c : Char) : Bool :=
  c.isAlpha || c == '_'

/-- Whether a word can go on with `c`. -/
def isWordPart (c : Char) : Bool :=
  c.isAlphanum || c == '_'

/-- Whether `c` alone is an operator, a bracket or the comma. -/
def isMark (c : Char) : Bool :=
  ['+', '-', '*', '/', '^', '(', ')', ','].contains c

/-- The function whose name `cs` begins with. -/
def functionAtHead? (cs : List Char) : Option Builtin :=
  Builtin.all.find? fun f => f.name.toList.isPrefixOf cs

/-- What a text begins with. -/
inductive Piece where
  /-- White space. -/
  | blank
  /-- A token. -/
  | lexeme (text : List Char)
  /-- Digits and points that are no numeral. -/
  | malformed (text : List Char)
  /-- A character that begins no token. -/
  | foreign

/-- The first piece of the text `c :: cs`. -/
def Piece.first (c : Char) (cs : List Char) : Piece :=
  if isNumeralMark c then
    let run := c :: cs.takeWhile isNumeralMark
    if Number.isNumeral run then .lexeme run else .malformed run
  else if isBlank c then .blank
  else match functionAtHead? (c :: cs) with
    | some f => .lexeme f.name.toList
    | none =>
      if isMark c then .lexeme [c]
      else if isWordStart c then .lexeme (c :: cs.takeWhile isWordPart)
      else .foreign

/-- The tokens of a text that begins at byte `place` of its line, or the first failure in it. -/
def tokensFrom (place : Nat) : List Char → Except LexicalError (List Token)
  | [] => .ok []
  | c :: cs =>
    match Piece.first c cs with
    | .blank => tokensFrom (place + c.utf8Size) cs
    | .lexeme text =>
      let stop := place + byteCount text
      (tokensFrom stop (cs.drop (text.length - 1))).map
        (⟨String.ofList text, ⟨place, stop⟩⟩ :: ·)
    | .malformed text =>
      .error (.malformedNumber ⟨place, place + byteCount text⟩ (String.ofList text))
    | .foreign => .error (.foreignCharacter place c)
termination_by cs => cs.length

/-- The tokens of a line, or the first failure in it. -/
def tokenize (line : String) : Except LexicalError (List Token) :=
  tokensFrom 0 line.toList

end Calculator
