import Calculator.Number.Nearest

/-!
# The remainder of a division

The remainder of `x / y` for the quotient cut towards zero. It is exact: both numbers are whole
numbers of units, so the remainder is one too, and it has the sign of `x`.
-/

namespace Calculator.Number

/-- The value that stands for every result that is not a number. -/
def notANumber : Float :=
  Float.ofBits 0x7FF8000000000000

/-- What is left of `x` after taking `y` away from it as often as it goes, with the sign of `x`. An
infinite `y` leaves all of `x`; an infinite `x` or a zero `y` leaves no number. -/
def remainder (x y : Float) : Float :=
  if x.isNaN || y.isNaN || x.isInf || magnitude y == 0 then notANumber
  else if y.isInf then x
  else
    let left := unitsOf (magnitude x) % unitsOf (magnitude y)
    let size := ofPattern (nearestPattern left unitsPerOne)
    if isNegative x then -size else size

end Calculator.Number
