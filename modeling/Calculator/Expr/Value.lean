import Calculator.Builtin
import Calculator.Expr

/-!
# The value of an expression

An expression is worked out from left to right and from the inside to the outside. The name of a
function is looked up before its arguments are worked out, and they are counted after that.
-/

namespace Calculator

/-- Why an expression has no value. The note is the one of the name that is not known, or of the
call that does not fit. -/
inductive EvaluationError (α : Type) where
  /-- There is no function of this name. -/
  | unknownFunction (note : α) (name : String)
  /-- The function takes another number of arguments. -/
  | argumentCount (note : α) (name : String) (expected : Arity) (actual : Nat)
  /-- A function was applied to fewer arguments than it uses. -/
  | missingArgument (note : α)
deriving DecidableEq

namespace EvaluationError

variable {α β : Type}

/-- The note of an error. -/
def note : EvaluationError α → α
  | unknownFunction a _ | argumentCount a _ _ _ | missingArgument a => a

/-- The same error with its note changed by `f`. -/
def map (f : α → β) : EvaluationError α → EvaluationError β
  | unknownFunction a name => unknownFunction (f a) name
  | argumentCount a name expected actual => argumentCount (f a) name expected actual
  | missingArgument a => missingArgument (f a)

/-- The error in words. -/
def message : EvaluationError α → String
  | unknownFunction _ name => "Function `" ++ name ++ "` is unknown"
  | argumentCount _ name expected actual =>
    "Function `" ++ name ++ "` expects " ++ expected.describe ++ ", but received " ++
      toString actual
  | missingArgument _ => "Not enough arguments"

end EvaluationError

namespace Expr

variable {α : Type}

mutual

/-- The value of an expression. -/
def value : Expr α → Except (EvaluationError α) Float
  | number x _ => .ok x
  | negate e _ => do
    let x ← e.value
    return -x
  | binary op l r _ => do
    let x ← l.value
    let y ← r.value
    return op.apply x y
  | call name nameNote args note =>
    match Builtin.ofName? name with
    | none => .error (.unknownFunction nameNote name)
    | some f => do
      let xs ← values args
      match Arguments.ofList? f.arity xs with
      | none => .error (.argumentCount note f.name f.arity xs.length)
      | some given =>
        match f.apply given with
        | none => .error (.missingArgument note)
        | some x => .ok x

/-- The values of several expressions, from left to right. -/
def values : List (Expr α) → Except (EvaluationError α) (List Float)
  | [] => .ok []
  | e :: es => do
    let x ← e.value
    let xs ← values es
    return x :: xs

end

end Expr

end Calculator
