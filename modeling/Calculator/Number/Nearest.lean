/-!
# The nearest binary64 number

Numbers are IEEE 754 binary64. The finite numbers that are not negative, taken in increasing order,
have the bit patterns 0, 1, 2, …, and infinity has the next one. Each of them is a whole number of
*units*, the least positive number, which is `2 ^ -1074`.

`nearestPattern` rounds any fraction to the nearest of them, ties to an even pattern, and
`unitsOf` says how many units a pattern is worth.
-/

namespace Calculator.Number

/-- Powers of natural numbers, whatever other powers are in scope. -/
@[reducible] def naturalPow : Pow Nat Nat := instPowNat

attribute [local instance] naturalPow

/-- How many units make one: `1 / 2 ^ -1074`. -/
def unitsPerOne : Nat := 2 ^ (1074 : Nat)

/-- The pattern of positive infinity. All smaller patterns are finite numbers. -/
def infinityPattern : Nat := 2047 * 2 ^ (52 : Nat)

/-- The value of a finite pattern in units: below exponent field one the pattern itself, and from
there on a significand of 53 bits, shifted. -/
def unitsOf (pattern : Nat) : Nat :=
  if pattern < 2 ^ (52 : Nat) then pattern
  else (2 ^ (52 : Nat) + pattern % 2 ^ (52 : Nat)) * 2 ^ (pattern / 2 ^ (52 : Nat) - 1)

/-- `num / den` rounded to the nearest whole number, a half to the even neighbour. -/
def roundHalfEven (num den : Nat) : Nat :=
  let whole := num / den
  let twice := 2 * (num % den)
  if twice < den then whole
  else if den < twice then whole + 1
  else whole + whole % 2

/-- The pattern nearest to the fraction `num / den`, ties to an even pattern; a fraction that
rounds beyond the largest finite number gives infinity.

With the fraction in units and cut down by `2 ^ shift` to 53 bits, each step of the exponent field
adds `2 ^ 52` to the pattern. A significand that rounds up to `2 ^ 53` carries into that field. -/
def nearestPattern (num den : Nat) : Nat :=
  let scaled := num * unitsPerOne
  let shift := (scaled / den).log2 - 52
  min (roundHalfEven scaled (den * 2 ^ shift) + shift * 2 ^ (52 : Nat)) infinityPattern

/-- The number that is not negative with a given pattern. -/
def ofPattern (pattern : Nat) : Float :=
  Float.ofBits (UInt64.ofNat pattern)

/-- The number one. -/
def one : Float :=
  ofPattern (1023 * 2 ^ (52 : Nat))

/-- The bit pattern of a number without its sign. -/
def magnitude (x : Float) : Nat :=
  x.toBits.toNat % 2 ^ (63 : Nat)

/-- Whether the sign bit of a number is set. -/
def isNegative (x : Float) : Bool :=
  2 ^ (63 : Nat) ≤ x.toBits.toNat

theorem nearestPattern_le (num den : Nat) : nearestPattern num den ≤ infinityPattern :=
  Nat.min_le_right _ _

end Calculator.Number
