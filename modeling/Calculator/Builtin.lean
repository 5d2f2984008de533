import Calculator.Number.Remainder

/-!
# Built-in functions

The functions that an expression may call: their names, what the listing says of them, how many
arguments they take and what they compute. Names are exact, letter case included.
-/

namespace Calculator

/-- How many arguments a function takes. -/
inductive Arity where
  | one | two
deriving DecidableEq

namespace Arity

/-- The number of arguments. -/
def count : Arity → Nat
  | one => 1
  | two => 2

/-- The number of arguments in words. -/
def describe : Arity → String
  | one => "one argument"
  | two => "two arguments"

end Arity

/-- The values that a function is applied to. -/
inductive Arguments where
  | one (a : Float)
  | two (a b : Float)

namespace Arguments

/-- The arguments for a function of a given arity, if there are as many values as it takes. -/
def ofList? : Arity → List Float → Option Arguments
  | .one, [a] => some (.one a)
  | .two, [a, b] => some (.two a b)
  | _, _ => none

/-- The first argument. -/
def first : Arguments → Float
  | one a => a
  | two a _ => a

/-- The second argument, if there is one. -/
def second? : Arguments → Option Float
  | one _ => none
  | two _ b => some b

/-- Values become arguments exactly when there are as many as the arity says. -/
theorem isSome_ofList? (n : Arity) (values : List Float) :
    (ofList? n values).isSome ↔ values.length = n.count := by
  match n, values with
  | .one, [] | .one, [_] | .one, _ :: _ :: _ => simp [ofList?, Arity.count]
  | .two, [] | .two, [_] | .two, [_, _] | .two, _ :: _ :: _ :: _ => simp [ofList?, Arity.count]

end Arguments

/-- The built-in functions. -/
inductive Builtin where
  | abs | mod | round | floor | ceil | pow | root
deriving DecidableEq

/-- The groups under which functions are listed. -/
inductive Category where
  | general | rounding | powers
deriving DecidableEq

/-- The heading of a group. -/
def Category.heading : Category → String
  | general => "General"
  | rounding => "Rounding"
  | powers => "Powers and Roots"

namespace Builtin

/-- All functions in the order of the listing, group by group. -/
def all : List Builtin := [abs, mod, round, floor, ceil, pow, root]

/-- The name under which a function is called. -/
def name : Builtin → String
  | abs => "abs"
  | mod => "mod"
  | round => "round"
  | floor => "floor"
  | ceil => "ceil"
  | pow => "pow"
  | root => "root"

/-- The group of a function. -/
def category : Builtin → Category
  | abs | mod => .general
  | round | floor | ceil => .rounding
  | pow | root => .powers

/-- What the listing says of a function. -/
def help : Builtin → String
  | abs => "compute absolute value"
  | mod => "mod(a, b) is the remainder of a / b, with the sign of a"
  | round => "round value to nearest integer (halves away from zero)"
  | floor => "floor value to lower integer"
  | ceil => "ceil value to upper integer"
  | pow => "first argument raised to the power the second argument"
  | root => "root(n, x) is the n-th root of x"

/-- How many arguments a function takes. -/
def arity : Builtin → Arity
  | abs | round | floor | ceil => .one
  | mod | pow | root => .two

/-- The function called `name`. -/
def ofName? (name : String) : Option Builtin :=
  all.find? fun f => f.name == name

/-- What a function computes. There is no value when it needs a second argument and gets one only; a
second argument that it does not need is left aside. -/
def apply (f : Builtin) (args : Arguments) : Option Float :=
  match f with
  | abs => some args.first.abs
  | mod => args.second?.map (Number.remainder args.first)
  | round => some args.first.round
  | floor => some args.first.floor
  | ceil => some args.first.ceil
  | pow => args.second?.map args.first.pow
  | root => args.second?.map fun x => x.pow (Number.one / args.first)

/-- No two functions share a name. -/
@[simp] theorem ofName?_name (f : Builtin) : ofName? f.name = some f := by
  cases f <;> decide

/-- A function is found only under its own name. -/
theorem ofName?_eq_some_iff {name : String} {f : Builtin} :
    ofName? name = some f ↔ f.name = name := by
  constructor
  · intro h
    simpa using List.find?_some h
  · rintro rfl
    exact ofName?_name f

end Builtin

end Calculator
