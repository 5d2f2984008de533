import Calculator.CommandLine.Style
import Calculator.Expr.Text
import Calculator.Line

/-!
# Sessions

A session answers one line after the other, until the lines run out or one of them ends it. At a
prompt, a line without a value only gets its diagnostic; elsewhere it ends the session.
-/

namespace Calculator.CommandLine

/-! ## Lines -/

/-- A line of input. -/
inductive Line where
  | text (s : String)
  /-- Bytes that are no UTF-8. -/
  | undecodable
deriving DecidableEq

/-- The line that some bytes make. -/
def Line.ofBytes (bytes : List UInt8) : Line :=
  match String.fromUTF8? ⟨bytes.toArray⟩ with
  | some s => .text s
  | none => .undecodable

/-- The line that bytes in front of a line feed make, given in reverse: a carriage return at its end
does not belong to it. -/
def Line.ofEnded (reversed : List UInt8) : Line :=
  match reversed with
  | 13 :: before => .ofBytes before.reverse
  | _ => .ofBytes reversed.reverse

/-- The lines of an input, the first of which begins with the bytes `reversed`, given in reverse. A
line feed ends a line; behind the last one there is a line only if there are bytes. -/
def Line.split (reversed : List UInt8) : List UInt8 → List Line
  | [] => if reversed.isEmpty then [] else [.ofBytes reversed.reverse]
  | b :: bytes =>
    if b = 10 then .ofEnded reversed :: split [] bytes else split (b :: reversed) bytes

/-- The lines of an input. -/
def Line.ofInput (bytes : List UInt8) : List Line :=
  split [] bytes

/-! ## Answers -/

/-- How a session is held. -/
structure Settings where
  /-- Ask for each line and go on behind a line without a value. -/
  prompting : Bool
  /-- Write values alone. -/
  strip : Bool
  /-- Write the tokens and the tree of each line to standard error. -/
  verbose : Bool
  /-- Style the diagnostics. -/
  styled : Bool
deriving DecidableEq

/-- How a program ends. -/
inductive Ending where
  | success | failure
deriving DecidableEq

/-- What one line leads to: text for standard output and standard error, and the end of the session
if it is the last. -/
structure Reply where
  out : String := ""
  err : String := ""
  ending : Option Ending := none

/-- What asks for a line. -/
def promptText : String := "Enter expression: "

/-- How the program reports an error of its own, as against one in a line. -/
def reportText (message : String) : String :=
  Style.alert.apply "error" ++ ": " ++ message ++ "\n"

/-- Whether a line asks for the end of a prompted session. Letter case and white space around the
word do not matter. -/
def isQuitWord (line : String) : Bool :=
  ["exit", "quit", "q"].contains
    (String.ofList ((trimBlanks line.toList).map Char.toLower))

/-- The tokens and the tree of a line, as far as it has them. -/
def traceText (line : String) : String :=
  match tokenize line with
  | .error _ => ""
  | .ok tokens =>
    Style.faint.apply "tokens:" ++ " " ++ " ".intercalate (tokens.map Token.lexeme) ++ "\n" ++
      match Located.parse tokens with
      | .error _ => ""
      | .ok e => Style.faint.apply "tree:" ++ " " ++ e.text ++ "\n"

/-- What is written about a line without a value: what is wrong, the line, and marks under the place
to blame. -/
def diagnosticText (styled : Bool) (line : String) (e : LineError) : String :=
  let marks := e.span.caret line
  if styled then
    Style.alert.apply "error" ++ ": " ++ e.message ++ "\n" ++ line ++ "\n" ++
      Style.alert.apply marks ++ "\n"
  else
    "at " ++ toString (e.span.start + 1) ++ ": " ++ e.message ++ "\n" ++ line ++ "\n" ++
      marks ++ "\n"

namespace Settings

/-- What asks for the next line, if anything does. -/
def prompt (s : Settings) : String :=
  if s.prompting then promptText else ""

/-- How a value is written. -/
def valueText (s : Settings) (x : Float) : String :=
  (if s.strip then "" else "Result: ") ++ Number.text x ++ "\n"

/-- The trace of a line, if one is wanted. -/
def trace (s : Settings) (line : String) : String :=
  if s.verbose then traceText line else ""

/-- The reply to a line that is worked out. -/
def evaluate (s : Settings) (line : String) : Reply :=
  match evalLine line with
  | .ok x => { out := s.valueText x ++ s.prompt, err := s.trace line }
  | .error e =>
    { out := s.prompt
      err := s.trace line ++ diagnosticText s.styled line e
      ending := if s.prompting then none else some .failure }

/-- The reply to a line. -/
def reply (s : Settings) : Line → Reply
  | .undecodable =>
    { err := reportText "stream did not contain valid UTF-8", ending := some .failure }
  | .text line =>
    if s.prompting && isQuitWord line then { ending := some .success }
    else if isBlankLine line then
      { err := reportText "Empty expression", ending := some .failure }
    else s.evaluate line

end Settings

/-! ## Whole sessions -/

/-- What a program leaves behind. -/
structure Report where
  out : String
  err : String
  exit : Nat
deriving DecidableEq

/-- The exit code of an ending. -/
def Ending.exitCode : Ending → Nat
  | success => 0
  | failure => 1

/-- The replies to lines, up to the first that ends the session. -/
def Settings.replies (s : Settings) : List Line → Report
  | [] => ⟨"", "", Ending.success.exitCode⟩
  | line :: lines =>
    let r := s.reply line
    match r.ending with
    | some ending => ⟨r.out, r.err, ending.exitCode⟩
    | none =>
      let later := s.replies lines
      ⟨r.out ++ later.out, r.err ++ later.err, later.exit⟩

/-- A session over some lines. -/
def Settings.session (s : Settings) (lines : List Line) : Report :=
  let report := s.replies lines
  { report with out := s.prompt ++ report.out }

end Calculator.CommandLine
