/-!
# Command line arguments

Options may stand anywhere in front of `--`. What follows `--`, a dash alone and all arguments
without a dash in front are expressions. Short options can share one dash. The arguments are read
from left to right, and the first call for help or for the version, or the first fault, decides: an
option that is not known or is given twice, or a value for an option.
-/

namespace Calculator.CommandLine

/-- The options that can be turned on. -/
inductive Flag where
  | interactive | strip | verbose | functions | grammar
deriving DecidableEq

/-- What an option can ask for. -/
inductive Switch where
  | flag (f : Flag)
  | help
  | version
deriving DecidableEq

/-- The option behind one dash. -/
def Switch.short? : Char → Option Switch
  | 'i' => some (.flag .interactive)
  | 's' => some (.flag .strip)
  | 'v' => some (.flag .verbose)
  | 'h' => some .help
  | 'V' => some .version
  | _ => none

/-- The option behind two dashes. -/
def Switch.long? : String → Option Switch
  | "interactive" => some (.flag .interactive)
  | "strip" => some (.flag .strip)
  | "verbose" => some (.flag .verbose)
  | "functions" => some (.flag .functions)
  | "grammar" => some (.flag .grammar)
  | "help" => some .help
  | "version" => some .version
  | _ => none

/-- What was asked for, in the order in which it was. -/
structure Options where
  flags : List Flag := []
  expressions : List String := []
deriving DecidableEq

/-- Whether an option is turned on. -/
def Options.has (o : Options) (f : Flag) : Bool :=
  o.flags.contains f

/-- What the arguments come to. -/
inductive Request where
  | help
  | version
  | refused
  | work (o : Options)
deriving DecidableEq

/-- Turns on the options of one argument, or says what decides before all of them are. -/
def Options.turnOn (o : Options) : List (Option Switch) → Except Request Options
  | [] => .ok o
  | none :: _ => .error .refused
  | some .help :: _ => .error .help
  | some .version :: _ => .error .version
  | some (.flag f) :: rest =>
    if o.has f then .error .refused else { o with flags := o.flags ++ [f] }.turnOn rest

/-- The options that one argument stands for; no answer for an expression. -/
def switchesOf? (arg : String) : Option (List (Option Switch)) :=
  match arg.toList with
  | '-' :: '-' :: name => some [Switch.long? (String.ofList name)]
  | '-' :: c :: cs => some ((c :: cs).map Switch.short?)
  | _ => none

/-- What all arguments come to, after those that `o` has. -/
def Options.read (o : Options) : List String → Request
  | [] => .work o
  | arg :: rest =>
    if arg = "--" then .work { o with expressions := o.expressions ++ rest }
    else match switchesOf? arg with
      | none => { o with expressions := o.expressions ++ [arg] }.read rest
      | some switches =>
        match o.turnOn switches with
        | .error request => request
        | .ok o => o.read rest

/-- What the arguments come to. -/
def Request.ofArguments (args : List String) : Request :=
  ({} : Options).read args

end Calculator.CommandLine
