/-!
# Styled text

Escape sequences that a terminal shows as colour and weight. Each styled piece of text ends by
putting the terminal back to plain.
-/

namespace Calculator.CommandLine

/-- The styles of the output. -/
inductive Style where
  /-- For what went wrong. -/
  | alert
  /-- For headings. -/
  | heading
  /-- For names in a listing. -/
  | name
  /-- For the labels of a trace. -/
  | faint

/-- What turns a style on: red and bold, blue and bold, bold, or dim. -/
def Style.codes : Style → String
  | alert => "\x1b[38;5;9m\x1b[1m"
  | heading => "\x1b[38;5;12m\x1b[1m"
  | name => "\x1b[1m"
  | faint => "\x1b[2m"

/-- A text in a style. -/
def Style.apply (style : Style) (text : String) : String :=
  style.codes ++ text ++ "\x1b[0m"

/-- A text in a style if `on`, and plain otherwise. -/
def Style.applyIf (style : Style) (on : Bool) (text : String) : String :=
  if on then style.apply text else text

end Calculator.CommandLine
