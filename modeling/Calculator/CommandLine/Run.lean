import Calculator.CommandLine.Manual
import Calculator.CommandLine.Options
import Calculator.CommandLine.Session

/-!
# The program

What the program does with its arguments, its input and the terminals that it is connected to.
-/

namespace Calculator.CommandLine

/-- Which of the standard streams are terminals. -/
structure Terminals where
  input : Bool
  output : Bool
  error : Bool

/-- Where the lines of a session come from. -/
inductive Source where
  /-- The arguments. -/
  | arguments
  /-- The arguments, and then lines typed at a prompt. -/
  | prompt
  /-- The arguments, and then lines of the input. -/
  | input
deriving DecidableEq

/-- Where lines come from. Prompting needs a terminal. Unless it is asked for, arguments are all
that is worked out, and without them the input is read, with a prompt if it is a terminal. -/
def Source.choose? (hasArguments interactive terminal : Bool) : Option Source :=
  if interactive then
    if terminal then some prompt else none
  else if hasArguments then some arguments
  else if terminal then some prompt
  else some input

/-- What there is to do. -/
inductive Plan where
  /-- Nothing more than to hand over this report. -/
  | report (r : Report)
  /-- A session over the lines of the arguments and, if `reading`, those of the input. -/
  | session (s : Settings) (lines : List Line) (reading : Bool)

/-- What options ask for. A listing comes before the grammar, and both before expressions. -/
def Options.plan (o : Options) (terminals : Terminals) : Plan :=
  if o.has .functions then .report ⟨listingText terminals.output, "", 0⟩
  else if o.has .grammar then .report ⟨grammarText, "", 0⟩
  else
    match Source.choose? (!o.expressions.isEmpty) (o.has .interactive) terminals.input with
    | none => .report ⟨"", reportText "--interactive requires terminal", 1⟩
    | some source =>
      .session
        { prompting := source == .prompt
          strip := o.has .strip
          verbose := o.has .verbose
          styled := terminals.error }
        (o.expressions.map .text)
        (source != .arguments)

/-- What the arguments ask for. -/
def Plan.ofArguments (args : List String) (terminals : Terminals) : Plan :=
  match Request.ofArguments args with
  | .help => .report ⟨helpText, "", 0⟩
  | .version => .report ⟨versionText, "", 0⟩
  | .refused => .report ⟨"", usageText, 2⟩
  | .work o => o.plan terminals

/-- All that the program leaves behind, given its arguments and the bytes of its input. -/
def run (args : List String) (input : List UInt8) (terminals : Terminals) : Report :=
  match Plan.ofArguments args terminals with
  | .report r => r
  | .session s lines reading =>
    s.session (lines ++ if reading then Line.ofInput input else [])

end Calculator.CommandLine
