/-!
# Named constants

The constants that an expression may name. Letter case does not matter.
-/

namespace Calculator

/-- The constants. -/
inductive Constant where
  | pi | tau
deriving DecidableEq

namespace Constant

/-- All constants in the order of the listing. -/
def all : List Constant := [pi, tau]

/-- The name of a constant in capitals. -/
def name : Constant → String
  | pi => "PI"
  | tau => "TAU"

/-- The number nearest to the constant. -/
def value : Constant → Float
  | pi => Float.ofBits 0x400921FB54442D18
  | tau => Float.ofBits 0x401921FB54442D18

/-- The capital letter of `c`, where it is one of the letters from `A` to `Z`. Outside the Latin
alphabet of 26 letters, the dotless `ı` has the capital `I` and the long `ſ` the capital `S`; all
other characters stay as they are, which names no constant. -/
def capital (c : Char) : Char :=
  if c == 'ı' then 'I' else if c == 'ſ' then 'S' else c.toUpper

/-- The constant that a text names. -/
def ofName? (text : String) : Option Constant :=
  all.find? fun k => k.name.toList == text.toList.map capital

@[simp] theorem ofName?_name (k : Constant) : ofName? k.name = some k := by
  cases k <;> decide

end Constant

end Calculator
