import Calculator.Number.Nearest
import Calculator.Text.DecimalDigit

/-!
# Decimal numerals

A numeral is a row of digits, or two rows with a point between them: `12`, `0.5`, but neither `.5`
nor `5.`. It is worth the nearest binary64 number.
-/

namespace Calculator.Number

attribute [local instance] naturalPow

/-- Whether `cs` is a numeral over the digits `isDigit`: digits, or digits, a point and digits. -/
def isNumeralOver (isDigit : Char → Bool) (cs : List Char) : Bool :=
  !(cs.takeWhile isDigit).isEmpty &&
    match cs.dropWhile isDigit with
    | [] => true
    | c :: places => c == '.' && !places.isEmpty && places.all isDigit

/-- Whether `cs` is a numeral over the digits from `0` to `9`. -/
def isNumeral (cs : List Char) : Bool :=
  isNumeralOver Char.isDigit cs

/-- The whole number that a row of digits writes; all other characters count as zero. -/
def digitsValue (cs : List Char) : Nat :=
  cs.foldl (fun n c => 10 * n + (c.toNat - '0'.toNat)) 0

/-- The value of a numeral as a fraction: all its digits as one whole number, over a power of ten
with one zero for each digit after the point. -/
def fractionOf (cs : List Char) : Nat × Nat :=
  let whole := cs.takeWhile Char.isDigit
  let places := (cs.dropWhile Char.isDigit).drop 1
  (digitsValue (whole ++ places), 10 ^ places.length)

/-- The number nearest to the value of a numeral. -/
def ofNumeral (cs : List Char) : Float :=
  let value := fractionOf cs
  ofPattern (nearestPattern value.1 value.2)

/-- A numeral that may have a minus sign in front, as its sign and the numeral. -/
def splitSign (cs : List Char) : Bool × List Char :=
  match cs with
  | '-' :: rest => (true, rest)
  | _ => (false, cs)

/-- Whether a text has the form of a number: a numeral over the decimal digits of any scripts, with
or without a minus sign. -/
def hasNumberForm (cs : List Char) : Bool :=
  isNumeralOver isDecimalDigit (splitSign cs).2

/-- The number that a text writes, with or without a minus sign. Only the digits from `0` to `9`
have a value. -/
def ofText? (cs : List Char) : Option Float :=
  let (negative, numeral) := splitSign cs
  if isNumeral numeral then
    some (if negative then -ofNumeral numeral else ofNumeral numeral)
  else none

end Calculator.Number
