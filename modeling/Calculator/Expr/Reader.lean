import Calculator.Expr
import Calculator.Expr.SyntaxError
import Calculator.Lexicon

/-!
# Expressions at the front of a row of tokens

The grammar, loosest first:

* an *expression* is one or more terms with `+` or `-` between them,
* a *term* is one or more powers with `*`, `/` or `mod` between them,
* a *power* is an operand, or an operand, `^` and a power,
* an *operand* is `-` and an operand, a function name and bracketed expressions, a bracketed
  expression, a constant or a number.

Depth is counted in levels. An operand takes one level, and what stands inside it is read one level
deeper: the operand behind a minus sign and the expressions in brackets. The power behind `^` is
read one level deeper too. `Depth.next` makes the readers of one level out of those one level
deeper, and `Depth.within n` has `n` levels, so every law about reading goes by one step over
`Depth.next`.

A reader uses up at least one token, and that is why the loops over operators and arguments end.
-/

namespace Calculator

/-- A value from the front of the tokens `ts`, and the fewer tokens that are left behind it. -/
structure Parsed (α : Type) (ts : List Token) where
  value : α
  rest : List Token
  shorter : rest.length < ts.length

/-- Takes a value from the front of any row of tokens, or says why there is none. -/
abbrev Reader (α : Type) := (ts : List Token) → Except Fault (Parsed α ts)

/-! ## Operators that group to the left -/

/-- Goes on from `read` over operators of precedence `p` and the operands behind them; each takes
all that was read before as its left operand. -/
def extendLeft (p : Precedence) (operand : Reader Located) {ts : List Token}
    (read : Parsed Located ts) : Except Fault (Parsed Located ts) :=
  match h : read.rest with
  | [] => .ok read
  | t :: rest =>
    match BinaryOp.atPrecedence? p t.lexeme with
    | none => .ok read
    | some op => do
      let right ← operand rest
      extendLeft p operand
        { value := .binary op read.value right.value (read.value.note.join right.value.note)
          rest := right.rest
          shorter := by
            have := read.shorter
            have := right.shorter
            simp only [h, List.length_cons] at *
            omega }
termination_by read.rest.length
decreasing_by
  have := right.shorter
  simp only [h, List.length_cons]
  omega

/-- One or more operands with operators of precedence `p` between them. -/
def joinedLeft (p : Precedence) (operand : Reader Located) : Reader Located := fun ts => do
  let first ← operand ts
  extendLeft p operand first

/-! ## Brackets -/

/-- The bracket that closes the one at `opening`. -/
def closingBracket (opening : Span) : Reader Span
  | [] => .error ⟨.unterminatedGroup opening, []⟩
  | t :: rest =>
    if t.lexeme = Lexicon.closeBracket then .ok ⟨t.span, rest, by simp⟩
    else .error ⟨.unterminatedGroup opening, t :: rest⟩

/-- Goes on from the arguments in `read` over commas and the expressions behind them. The last
argument comes first. -/
def extendArguments (expression : Reader Located) {ts : List Token}
    (read : Parsed (List Located) ts) : Except Fault (Parsed (List Located) ts) :=
  match h : read.rest with
  | [] => .ok read
  | t :: rest =>
    if t.lexeme = Lexicon.comma then do
      let arg ← expression rest
      extendArguments expression
        { value := arg.value :: read.value
          rest := arg.rest
          shorter := by
            have := read.shorter
            have := arg.shorter
            simp only [h, List.length_cons] at *
            omega }
    else .ok read
termination_by read.rest.length
decreasing_by
  have := arg.shorter
  simp only [h, List.length_cons]
  omega

/-- One or more expressions with commas between them. -/
def arguments (expression : Reader Located) : Reader (List Located) := fun ts => do
  let first ← expression ts
  let all ← extendArguments expression ⟨[first.value], first.rest, first.shorter⟩
  return ⟨all.value.reverse, all.rest, all.shorter⟩

/-! ## Levels -/

/-- The readers that are left at some depth. -/
structure Depth where
  operand : Reader Located
  power : Reader Located

namespace Depth

/-- No level is left. -/
def exhausted : Depth where
  operand ts := .error ⟨.tooDeep, ts⟩
  power ts := .error ⟨.tooDeep, ts⟩

/-- An expression at this depth. -/
def expression (d : Depth) : Reader Located :=
  joinedLeft .additive (joinedLeft .multiplicative d.power)

/-- The bracketed arguments behind the function `name`, and with them the call. -/
def callOf (d : Depth) (name : Token) : Reader Located
  | [] => .error ⟨.expectedCallBracket name, []⟩
  | t :: ts =>
    if t.lexeme = Lexicon.openBracket then do
      let args ← arguments d.expression ts
      let close ← closingBracket t.span args.rest
      return {
        value := .call name.lexeme name.span args.value (name.span.join close.value)
        rest := close.rest
        shorter := by
          have := args.shorter
          have := close.shorter
          simp only [List.length_cons]
          omega }
    else .error ⟨.expectedCallBracket name, t :: ts⟩

/-- An operand, its inside at this depth. Brackets leave no node: what they hold takes their
span. -/
def nextOperand (d : Depth) : Reader Located
  | [] => .error ⟨.endOfInput, []⟩
  | t :: ts =>
    match Opening.ofLexeme? t.lexeme with
    | some .negation => do
      let e ← d.operand ts
      return {
        value := .negate e.value (t.span.join e.value.note)
        rest := e.rest
        shorter := by
          have := e.shorter
          simp only [List.length_cons]
          omega }
    | some .group => do
      let e ← d.expression ts
      let close ← closingBracket t.span e.rest
      return {
        value := e.value.withNote (t.span.join close.value)
        rest := close.rest
        shorter := by
          have := e.shorter
          have := close.shorter
          simp only [List.length_cons]
          omega }
    | some (.call _) => do
      let e ← d.callOf t ts
      return {
        value := e.value
        rest := e.rest
        shorter := by
          have := e.shorter
          simp only [List.length_cons]
          omega }
    | some (.value x) => .ok ⟨.number x t.span, ts, by simp⟩
    | none => .error ⟨.unexpectedToken t .operand, t :: ts⟩

/-- A power, its operand's inside and its exponent at this depth. -/
def nextPower (d : Depth) : Reader Located := fun ts => do
  let base ← d.nextOperand ts
  match h : base.rest with
  | [] => return base
  | t :: rest =>
    match BinaryOp.atPrecedence? .exponent t.lexeme with
    | none => return base
    | some op => do
      let exponent ← d.power rest
      return {
        value := .binary op base.value exponent.value
          (base.value.note.join exponent.value.note)
        rest := exponent.rest
        shorter := by
          have := base.shorter
          have := exponent.shorter
          simp only [h, List.length_cons] at *
          omega }

/-- One level more than `d`. -/
def next (d : Depth) : Depth where
  operand := d.nextOperand
  power := d.nextPower

/-- The readers that have `levels` levels. -/
def within : (levels : Nat) → Depth
  | 0 => exhausted
  | levels + 1 => (within levels).next

end Depth

end Calculator
