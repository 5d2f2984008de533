import Calculator.Expr.Parse
import Calculator.Proofs.Terminal

/-!
# What readers find

A reader gives back, besides a value and the tokens left, the fact that these are fewer. `find`
drops that fact, so that what readers find can be compared for different rows of tokens, and each
reader gets one equation for what it finds. Its loops become `resumeLeft` and `resumeArguments`.
-/

namespace Calculator

/-- What follows a success. -/
@[simp] theorem ok_bind {ε α β : Type} (a : α) (f : α → Except ε β) : (Except.ok a >>= f) = f a :=
  rfl

/-- The value and the tokens that are left. -/
def Parsed.found {α : Type} {ts : List Token} (read : Parsed α ts) : α × List Token :=
  (read.value, read.rest)

/-- What a reader finds at the front of the tokens `ts`. -/
def Reader.find {α : Type} (r : Reader α) (ts : List Token) : Except Fault (α × List Token) :=
  (r ts).map Parsed.found

namespace Reader

theorem find_of_eq_ok {α : Type} {r : Reader α} {ts : List Token} {read : Parsed α ts}
    (h : r ts = .ok read) : find r ts = .ok (read.value, read.rest) := by
  rw [find, h]
  rfl

end Reader

open Reader

/-! ## Loops -/

/-- Goes on from `e`, with `ts` left, over operators of precedence `p` and the operands behind
them. -/
def resumeLeft (p : Precedence) (operand : Reader Located) (e : Located) (ts : List Token) :
    Except Fault (Located × List Token) :=
  match ts with
  | [] => .ok (e, [])
  | t :: rest =>
    match BinaryOp.atPrecedence? p t.lexeme with
    | none => .ok (e, t :: rest)
    | some op => do
      let right ← operand rest
      resumeLeft p operand (.binary op e right.value (e.note.join right.value.note)) right.rest
termination_by ts.length
decreasing_by
  have := right.shorter
  simp only [List.length_cons]
  omega

/-- Goes on from the arguments `es`, the last one first, with `ts` left. -/
def resumeArguments (expression : Reader Located) (es : List Located) (ts : List Token) :
    Except Fault (List Located × List Token) :=
  match ts with
  | [] => .ok (es, [])
  | t :: rest =>
    if t.lexeme = Lexicon.comma then do
      let arg ← expression rest
      resumeArguments expression (arg.value :: es) arg.rest
    else .ok (es, t :: rest)
termination_by ts.length
decreasing_by
  have := arg.shorter
  simp only [List.length_cons]
  omega

section Loops

variable {p : Precedence} {operand : Reader Located} {e : Located} {es : List Located} {t : Token}
  {ts : List Token}

/-- The loop ends where no operator of its precedence is next. -/
theorem resumeLeft_of_none (h : ∀ t ∈ ts.head?, BinaryOp.atPrecedence? p t.lexeme = none) :
    resumeLeft p operand e ts = .ok (e, ts) := by
  rw [resumeLeft.eq_def]
  cases ts with
  | nil => rfl
  | cons t rest => simp only [h t rfl]

/-- The loop takes an operator and one operand more. -/
theorem resumeLeft_cons {op : BinaryOp} (h : BinaryOp.atPrecedence? p t.lexeme = some op) :
    resumeLeft p operand e (t :: ts) = (do
      let (right, rest) ← find operand ts
      resumeLeft p operand (.binary op e right (e.note.join right.note)) rest) := by
  rw [resumeLeft.eq_def]
  simp only [h, find]
  cases operand ts <;> rfl

theorem resumeArguments_of_ne (h : ∀ t ∈ ts.head?, t.lexeme ≠ ",") :
    resumeArguments operand es ts = .ok (es, ts) := by
  rw [resumeArguments.eq_def]
  cases ts with
  | nil => rfl
  | cons t rest => exact if_neg (h t rfl)

theorem resumeArguments_cons (h : t.lexeme = ",") :
    resumeArguments operand es (t :: ts) = (do
      let (arg, rest) ← find operand ts
      resumeArguments operand (arg :: es) rest) := by
  rw [resumeArguments.eq_def]
  simp only [h, Lexicon.comma, if_true, find]
  cases operand ts <;> rfl

/-- What a loop adds does not depend on the tokens in front. -/
theorem found_extendLeft (read : Parsed Located ts) :
    (extendLeft p operand read).map Parsed.found = resumeLeft p operand read.value read.rest := by
  fun_induction extendLeft p operand read with
  | case1 read end_ =>
    rw [end_, resumeLeft]
    simp only [Except.map, Parsed.found, end_]
  | case2 read t rest next other =>
    rw [next, resumeLeft, other]
    simp only [Except.map, Parsed.found, next]
  | case3 read t rest next op found ih =>
    rw [next, resumeLeft, found]
    cases h : operand rest with
    | error fault => rfl
    | ok right => exact ih right

theorem found_extendArguments (read : Parsed (List Located) ts) :
    (extendArguments operand read).map Parsed.found
      = resumeArguments operand read.value read.rest := by
  fun_induction extendArguments operand read with
  | case1 read end_ =>
    rw [end_, resumeArguments]
    simp only [Except.map, Parsed.found, end_]
  | case2 read t rest next comma ih =>
    rw [next, resumeArguments, if_pos comma]
    cases h : operand rest with
    | error fault => rfl
    | ok arg => exact ih arg
  | case3 read t rest next other =>
    rw [next, resumeArguments, if_neg other]
    simp only [Except.map, Parsed.found, next]

/-- One operand, and then the loop. -/
theorem find_joinedLeft :
    find (joinedLeft p operand) ts = (do
      let (first, rest) ← find operand ts
      resumeLeft p operand first rest) := by
  unfold find joinedLeft
  cases operand ts with
  | error fault => rfl
  | ok first => exact found_extendLeft first

/-- One expression, and then the loop over commas. -/
theorem find_arguments :
    find (arguments operand) ts = (do
      let (first, rest) ← find operand ts
      let (all, rest) ← resumeArguments operand [first] rest
      return (all.reverse, rest)) := by
  unfold find arguments
  cases operand ts with
  | error fault => rfl
  | ok first =>
    let read : Parsed (List Located) ts := ⟨[first.value], first.rest, first.shorter⟩
    have loop : (extendArguments operand read).map Parsed.found
        = resumeArguments operand [first.value] first.rest := found_extendArguments read
    simp only [ok_bind, Except.map, Parsed.found] at loop ⊢
    rw [← loop]
    cases extendArguments operand read <;> rfl

end Loops

/-! ## Levels -/

section Levels

variable {d : Depth} {t : Token} {ts : List Token}

theorem find_closingBracket {opening : Span} (h : t.lexeme = ")") :
    find (closingBracket opening) (t :: ts) = .ok (t.span, ts) := by
  unfold find closingBracket Lexicon.closeBracket
  simp only [h, if_true]
  rfl

theorem find_closingBracket_of_ne {opening : Span} (h : ∀ t ∈ ts.head?, t.lexeme ≠ ")") :
    find (closingBracket opening) ts = .error ⟨.unterminatedGroup opening, ts⟩ := by
  unfold find closingBracket Lexicon.closeBracket
  cases ts with
  | nil => rfl
  | cons t rest =>
    simp only [h t rfl, if_false]
    rfl

theorem find_callOf {name : Token} (h : t.lexeme = "(") :
    find (d.callOf name) (t :: ts) = (do
      let (args, rest) ← find (arguments d.expression) ts
      let (close, rest) ← find (closingBracket t.span) rest
      return (.call name.lexeme name.span args (name.span.join close), rest)) := by
  unfold find Depth.callOf Lexicon.openBracket
  simp only [h, if_true]
  cases arguments d.expression ts with
  | error fault => rfl
  | ok args =>
    simp only [ok_bind, Except.map, Parsed.found]
    cases closingBracket t.span args.rest <;> rfl

theorem find_callOf_of_ne {name : Token} (h : ∀ t ∈ ts.head?, t.lexeme ≠ "(") :
    find (d.callOf name) ts = .error ⟨.expectedCallBracket name, ts⟩ := by
  unfold find Depth.callOf Lexicon.openBracket
  cases ts with
  | nil => rfl
  | cons t rest =>
    simp only [h t rfl, if_false]
    rfl

theorem find_nextOperand_negation (h : Opening.ofLexeme? t.lexeme = some .negation) :
    find d.nextOperand (t :: ts) = (do
      let (e, rest) ← find d.operand ts
      return (.negate e (t.span.join e.note), rest)) := by
  unfold find Depth.nextOperand
  simp only [h]
  cases d.operand ts <;> rfl

theorem find_nextOperand_group (h : Opening.ofLexeme? t.lexeme = some .group) :
    find d.nextOperand (t :: ts) = (do
      let (e, rest) ← find d.expression ts
      let (close, rest) ← find (closingBracket t.span) rest
      return (e.withNote (t.span.join close), rest)) := by
  unfold find Depth.nextOperand
  simp only [h]
  cases d.expression ts with
  | error fault => rfl
  | ok e =>
    simp only [ok_bind, Except.map, Parsed.found]
    cases closingBracket t.span e.rest <;> rfl

theorem find_nextOperand_call {f : Builtin} (h : Opening.ofLexeme? t.lexeme = some (.call f)) :
    find d.nextOperand (t :: ts) = find (d.callOf t) ts := by
  unfold find Depth.nextOperand
  simp only [h]
  cases d.callOf t ts <;> rfl

theorem find_nextOperand_value {x : Float} (h : Opening.ofLexeme? t.lexeme = some (.value x)) :
    find d.nextOperand (t :: ts) = .ok (.number x t.span, ts) := by
  unfold find Depth.nextOperand
  simp only [h]
  rfl

theorem find_nextOperand_none (h : Opening.ofLexeme? t.lexeme = none) :
    find d.nextOperand (t :: ts) = .error ⟨.unexpectedToken t .operand, t :: ts⟩ := by
  unfold find Depth.nextOperand
  simp only [h]
  rfl

/-- Goes on from the operand `e`, with `ts` left, over `^` and the power behind it. -/
def resumePower (power : Reader Located) (e : Located) (ts : List Token) :
    Except Fault (Located × List Token) :=
  match ts with
  | [] => .ok (e, [])
  | t :: rest =>
    if t.lexeme = "^" then do
      let (exponent, rest) ← find power rest
      return (.binary .pow e exponent (e.note.join exponent.note), rest)
    else .ok (e, t :: rest)

theorem resumePower_of_ne {power : Reader Located} {e : Located}
    (h : ∀ t ∈ ts.head?, t.lexeme ≠ "^") : resumePower power e ts = .ok (e, ts) := by
  unfold resumePower
  cases ts with
  | nil => rfl
  | cons t rest => exact if_neg (h t rfl)

theorem resumePower_cons {power : Reader Located} {e : Located} (h : t.lexeme = "^") :
    resumePower power e (t :: ts) = (do
      let (exponent, rest) ← find power ts
      return (.binary .pow e exponent (e.note.join exponent.note), rest)) :=
  if_pos h

/-- One operand, and then perhaps an exponent. -/
theorem find_nextPower :
    find d.nextPower ts = (do
      let (base, rest) ← find d.nextOperand ts
      resumePower d.power base rest) := by
  unfold find Depth.nextPower
  cases d.nextOperand ts with
  | error fault => rfl
  | ok base =>
    rcases base with ⟨base, rest, shorter⟩
    cases rest with
    | nil => rfl
    | cons t rest =>
      by_cases circumflex : t.lexeme = "^"
      · have op := BinaryOp.eq_circumflex_iff.1 circumflex
        simp only [ok_bind, Except.map, Parsed.found, op, resumePower_cons circumflex, find]
        cases d.power rest <;> rfl
      -- The reader looks for any operator of this precedence, but there is only one.
      · have noOp : BinaryOp.atPrecedence? .exponent t.lexeme = none := by
          cases found : BinaryOp.atPrecedence? .exponent t.lexeme with
          | none => rfl
          | some op =>
            rw [BinaryOp.eq_pow_of_atPrecedence? found] at found
            exact absurd (BinaryOp.eq_circumflex_iff.2 found) circumflex
        simp only [ok_bind, Except.map, Parsed.found, noOp, resumePower, if_neg circumflex]
        rfl

end Levels

end Calculator
