import Calculator.Number.Nearest

/-!
# The shortest text of a number

A finite number is written in positional notation with as few significant digits as still round
back to it. Of the texts with that many digits the nearest to the number is taken, and of two
equally near ones the larger. There is no exponent, no point without digits after it, and zero
keeps its sign.

Every finite number is a whole number of *steps* of `10 ^ -1074`, because a unit is `5 ^ 1074` of
them. So the search runs over whole numbers of steps: first over the multiples of the power of ten
that leaves one digit, then over those of the next smaller power, and so on. The last grid has all
whole numbers and holds the number itself.
-/

namespace Calculator.Number

attribute [local instance] naturalPow

/-- How many decimal places a step has: a step is `10 ^ -1074`. -/
def stepPlaces : Nat := 1074

/-- The value of a finite pattern in steps. -/
def stepsOf (pattern : Nat) : Nat :=
  unitsOf pattern * 5 ^ (1074 : Nat)

/-- A whole number of steps with `place` zeros at its end: `count * 10 ^ place`. -/
structure Decimal where
  count : Nat
  place : Nat
deriving DecidableEq

namespace Decimal

/-- The value as a numerator over a power of ten. One of the two differences is zero. -/
def fraction (d : Decimal) : Nat × Nat :=
  (d.count * 10 ^ (d.place - stepPlaces), 10 ^ (stepPlaces - d.place))

/-- Whether the number nearest to the value has this pattern. -/
def roundsTo (d : Decimal) (pattern : Nat) : Bool :=
  nearestPattern d.fraction.1 d.fraction.2 == pattern

/-- The value in positional notation. At least one digit stands in front of the point, and no zero
at the end behind it. -/
def text (d : Decimal) : List Char :=
  let digits := Nat.toDigits 10 d.fraction.1
  let places := stepPlaces - d.place
  let padded := List.replicate (places + 1 - digits.length) '0' ++ digits
  let whole := padded.take (padded.length - places)
  match (padded.drop (padded.length - places)).reverse.dropWhile (· == '0') with
  | [] => whole
  | kept => whole ++ '.' :: kept.reverse

end Decimal

/-- Of the two neighbours of `steps` on the grid of multiples of `10 ^ place`, the one that rounds
to `pattern`; of two such the nearer one, and the upper one where both are equally near. -/
def onGrid? (pattern steps place : Nat) : Option Decimal :=
  let grid := 10 ^ place
  let down : Decimal := ⟨steps / grid, place⟩
  let up : Decimal := ⟨steps / grid + 1, place⟩
  let above := steps % grid
  if down.roundsTo pattern && (above < grid - above || !up.roundsTo pattern) then some down
  else if up.roundsTo pattern then some up
  else none

/-- The first hit on the grids of `10 ^ place` and below. On the finest grid, `steps` itself. -/
def shortestFrom (pattern steps : Nat) : (place : Nat) → Decimal
  | 0 => ⟨steps, 0⟩
  | place + 1 => (onGrid? pattern steps (place + 1)).getD (shortestFrom pattern steps place)

/-- The place of the leading decimal digit of `n`. The bit length times `log10 2`, from below, gives
it up to one. -/
def leadingPlace (n : Nat) : Nat :=
  let guess := n.log2 * 1233 / 4096
  if 10 ^ (guess + 1) ≤ n then guess + 1 else guess

/-- The decimal with the fewest digits that rounds to a finite pattern, nearest to its value. -/
def shortest (pattern : Nat) : Decimal :=
  let steps := stepsOf pattern
  shortestFrom pattern steps (leadingPlace steps)

/-- The text of a pattern without a sign. -/
def magnitudeText (pattern : Nat) : List Char :=
  if pattern = infinityPattern then ['i', 'n', 'f'] else (shortest pattern).text

/-- The text of a number. -/
def text (x : Float) : String :=
  if x.isNaN then "NaN"
  else if isNegative x then String.ofList ('-' :: magnitudeText (magnitude x))
  else String.ofList (magnitudeText (magnitude x))

end Calculator.Number
