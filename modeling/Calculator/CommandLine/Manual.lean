import Calculator.CommandLine.Style
import Calculator.Lexicon
import Calculator.Number.Shortest

/-!
# What the program says of itself

The help, the version, the grammar of expressions, and the listing of functions and constants.
-/

namespace Calculator.CommandLine

/-- The answer to a request for the version. -/
def versionText : String := "nc 0.1.0\n"

/-- Some lines, each with a line feed at its end. -/
def lines (texts : List String) : String :=
  String.join (texts.map fun text => text ++ "\n")

/-- Some lexemes in quotation marks, as the alternatives of a rule of the grammar. -/
def alternatives (lexemes : List String) : String :=
  " | ".intercalate (lexemes.map fun lexeme => "\"" ++ lexeme ++ "\"")

/-- The answer to a request for help. -/
def helpText : String :=
  lines
    ["Evaluate arithmetic expressions",
     "",
     "Usage: nc [OPTIONS] [EVALS]...",
     "",
     "Arguments:",
     "  [EVALS]...  Expressions to evaluate",
     "",
     "Options:",
     "  -i, --interactive  Keep prompting for expressions after EVALS (requires a terminal)",
     "  -s, --strip        Print only the resulting value",
     "  -v, --verbose      Trace the tokens and expression tree of each line on stderr",
     "      --functions    List the available functions and constants",
     "      --grammar      Print the expression grammar",
     "  -h, --help         Print help",
     "  -V, --version      Print version",
     "",
     "If [EVALS] is provided, each argument is evaluated,",
     "and the program exits unless --interactive is specified.",
     "",
     "If [EVALS] is not provided, the program prompts for expressions",
     "when connected to a terminal, and reads lines from stdin otherwise."]

/-- What is written to standard error when the arguments are refused. This is a fixed text in place
of the one that the program writes, which names the argument that it refuses and why; the stream and
the exit code are the program's. -/
def usageText : String :=
  lines
    ["error: unexpected arguments",
     "",
     "Usage: nc [OPTIONS] [EVALS]...",
     "",
     "For more information, try '--help'."]

/-- The grammar of expressions. -/
def grammarText : String :=
  lines
    ["(* Expression language of nc *)",
     "(* Whitespace separates tokens and is otherwise ignored. *)",
     "",
     "Expression   = Term, \x7b ( \"+\" | \"-\" ), Term \x7d ;",
     "Term         = Factor, \x7b ( \"*\" | \"/\" | \"mod\" ), Factor \x7d ;",
     "Factor       = Primary, [ \"^\", Factor ] ;",
     "Primary      = \"-\", Primary",
     "             | FunctionName, \"(\", Expression, \x7b \",\", Expression \x7d, \")\"",
     "             | \"(\", Expression, \")\"",
     "             | ConstantName",
     "             | Number ;",
     "",
     "FunctionName = " ++ alternatives Lexicon.functionNames ++ " ;",
     "ConstantName = " ++ alternatives Lexicon.constantNames ++ " ;  (* case insensitive *)",
     "Number       = Digit, \x7b Digit \x7d, [ \".\", Digit, \x7b Digit \x7d ] ;",
     "Digit        = " ++ alternatives (Lexicon.digits.filter (· != ".")) ++ " ;"]

/-! ## The listing -/

/-- A heading of the listing. -/
def headingLine (styled : Bool) (heading : String) : String :=
  Style.heading.applyIf styled heading ++ ":\n"

/-- The length of the longest function name. -/
def nameWidth : Nat :=
  (Builtin.all.map fun f => f.name.length).foldl max 0

/-- The line of the listing for one function. What is said of the functions stands in one column. -/
def functionLine (styled : Bool) (f : Builtin) : String :=
  let gap := String.ofList (List.replicate (nameWidth - f.name.length) ' ')
  "    " ++ Style.name.applyIf styled f.name ++ gap ++ ": " ++ f.help ++ "\n"

/-- The lines of the listing for some functions of one category. -/
def categoryText (styled : Bool) (fs : List Builtin) : String :=
  match fs with
  | [] => ""
  | f :: _ =>
    headingLine styled f.category.heading ++ String.join (fs.map (functionLine styled))

/-- The line of the listing for one constant. -/
def constantLine (styled : Bool) (k : Constant) : String :=
  "    " ++ Style.name.applyIf styled k.name ++ ": " ++ Number.text k.value ++ "\n"

/-- All functions by category, then all constants, with empty lines in between. -/
def listingText (styled : Bool) : String :=
  let groups := Builtin.all.splitBy fun f g => f.category == g.category
  let constants := headingLine styled "Constants" ++
    String.join (Constant.all.map (constantLine styled))
  "\n".intercalate (groups.map (categoryText styled) ++ [constants])

end Calculator.CommandLine
