import Calculator.Expr.Parse
import Calculator.Proofs.Reading

/-!
# Reading as a machine

A machine reads from a row of tokens one by one. All that it remembers is the index of the next
token and how many levels are open, and each step changes these and goes on, or stops with an error
in the state that it has come to. How many levels may be open is up to its user. Its functions call
each other, and an attempt is made with some number of calls that may be nested. Nothing in the
definitions says that any number is enough, that the machine closes the levels that it has opened,
or that an error is where it stops. This comes from the readers of `Depth`, which the machine
mirrors step by step, whatever the limit is: `Machine.expressionWithin_run`.
-/

namespace Calculator

/-! ## The machine -/

/-- A row of tokens, the index of the next one, and the number of levels that are open. -/
structure Machine where
  tokens : List Token
  index : Nat
  depth : Nat
deriving DecidableEq

namespace Machine

/-- The machine in front of the first token. -/
def start (tokens : List Token) : Machine :=
  ⟨tokens, 0, 0⟩

/-- The next token. -/
def first? (m : Machine) : Option Token :=
  m.tokens[m.index]?

/-- The place of the next token, or just past the last one. -/
def here (m : Machine) : Span :=
  match m.first? with
  | some t => t.span
  | none => endSpan m.tokens

/-- The machine behind the next token. -/
def advance (m : Machine) : Machine :=
  { m with index := min (m.index + 1) m.tokens.length }

/-- The machine with one level more. -/
def enter (m : Machine) : Machine :=
  { m with depth := m.depth + 1 }

/-- The machine with one level less. -/
def leave (m : Machine) : Machine :=
  { m with depth := m.depth - 1 }

/-- What a step comes to: a value or an error, and the machine as the step leaves it. -/
abbrev Outcome (α : Type) := Except (SyntaxError × Machine) (α × Machine)

/-- The outcome of a step, if it comes to one. -/
abbrev Run := ExceptT (SyntaxError × Machine) Option

/-- Stops at the next token. -/
def fail {α : Type} (m : Machine) (cause : SyntaxCause) (span : Span) : Run α :=
  throw (⟨cause, m.index, span⟩, m)

/-- An outcome with one level less. -/
def Outcome.leave {α : Type} : Outcome α → Outcome α
  | .error (e, m) => .error (e, m.leave)
  | .ok (a, m) => .ok (a, m.leave)

/-- The operator of precedence `p` that is next. -/
def operator? (p : Precedence) (m : Machine) : Option BinaryOp :=
  m.first?.bind fun t => BinaryOp.atPrecedence? p t.lexeme

/-- The bracket that closes the one at `opening`. -/
def closing (opening : Span) (m : Machine) : Run (Span × Machine) :=
  match m.first? with
  | some t =>
    if t.lexeme = Lexicon.closeBracket then return (t.span, m.advance)
    else m.fail (.unterminatedGroup opening) m.here
  | none => m.fail (.unterminatedGroup opening) m.here

/-- What is read one level deeper. -/
inductive Inner where
  /-- All of an operand. -/
  | operand
  /-- What is behind an operator that groups to the right. -/
  | right (p : Precedence)

/-- No outcome, as the calls that may be nested have run out. -/
def stuck {α : Type} : Run α :=
  ExceptT.mk none

/-- Closes a level whatever the outcome is. -/
def leaving {α : Type} (run : Run (α × Machine)) : Run (α × Machine) :=
  ExceptT.mk (run.run.map Outcome.leave)

section Functions

-- No more levels than these may be open.
variable (levels : Nat)

-- Each function is given the number of calls that may still be nested, and is stuck without any.
mutual

/-- Operands with operators of precedence `p` between them. -/
def binary : (p : Precedence) → (calls : Nat) → (m : Machine) → Run (Located × Machine)
  | _, 0, _ => stuck
  | p, calls + 1, m => do
    let (e, m) ← operandAt p calls m
    extend p e calls m

/-- Goes on from `e` over operators of precedence `p` and their right operands. -/
def extend : (p : Precedence) → (e : Located) → (calls : Nat) → (m : Machine) →
    Run (Located × Machine)
  | _, _, 0, _ => stuck
  | p, e, calls + 1, m =>
    match m.operator? p with
    | none => return (e, m)
    | some op => do
      let (f, m) ← rightOperand p calls m.advance
      extend p (.binary op e f (e.note.join f.note)) calls m

/-- What is behind an operator of precedence `p`. -/
def rightOperand : (p : Precedence) → (calls : Nat) → (m : Machine) → Run (Located × Machine)
  | _, 0, _ => stuck
  | p, calls + 1, m => if p.groupsRight then nested (.right p) calls m else operandAt p calls m

/-- An operand of operators of precedence `p`. -/
def operandAt : (p : Precedence) → (calls : Nat) → (m : Machine) → Run (Located × Machine)
  | _, 0, _ => stuck
  | p, calls + 1, m =>
    match p.tighter? with
    | some q => binary q calls m
    | none => nested .operand calls m

/-- Reads one level deeper, and closes the level whatever the outcome is. -/
def nested : (inner : Inner) → (calls : Nat) → (m : Machine) → Run (Located × Machine)
  | _, 0, _ => stuck
  | inner, calls + 1, m =>
    if m.depth < levels then
      match inner with
      | .operand => leaving (operand calls m.enter)
      | .right p => leaving (binary p calls m.enter)
    else m.fail .tooDeep m.here

/-- An operand. A token that begins none is used up. -/
def operand : (calls : Nat) → (m : Machine) → Run (Located × Machine)
  | 0, _ => stuck
  | calls + 1, m =>
    match m.first? with
    | none => m.fail .endOfInput m.here
    | some t =>
      match Opening.ofLexeme? t.lexeme with
      | some .negation => do
        let (e, m) ← nested .operand calls m.advance
        return (.negate e (t.span.join e.note), m)
      | some .group => do
        let (e, m) ← binary .additive calls m.advance
        let (close, m) ← m.closing t.span
        return (e.withNote (t.span.join close), m)
      | some (.call _) => callOf t calls m.advance
      | some (.value x) => return (.number x t.span, m.advance)
      | none => throw (⟨.unexpectedToken t .operand, m.index, t.span⟩, m.advance)

/-- The bracketed arguments behind the function `name`, and with them the call. -/
def callOf : (name : Token) → (calls : Nat) → (m : Machine) → Run (Located × Machine)
  | _, 0, _ => stuck
  | name, calls + 1, m =>
    match m.first? with
    | some t =>
      if t.lexeme = Lexicon.openBracket then do
        let (e, m) ← binary .additive calls m.advance
        let (es, m) ← arguments [e] calls m
        let (close, m) ← m.closing t.span
        return (.call name.lexeme name.span es (name.span.join close), m)
      else m.fail (.expectedCallBracket name) name.span.past
    | none => m.fail (.expectedCallBracket name) name.span.past

/-- Goes on from the arguments `es` over commas and the expressions behind them. -/
def arguments : (es : List Located) → (calls : Nat) → (m : Machine) → Run (List Located × Machine)
  | _, 0, _ => stuck
  | es, calls + 1, m =>
    match m.first? with
    | some t =>
      if t.lexeme = Lexicon.comma then do
        let (e, m) ← binary .additive calls m.advance
        arguments (es ++ [e]) calls m
      else return (es, m)
    | none => return (es, m)

end

end Functions

/-- With all large enough numbers of calls, attempts come to this outcome. -/
def Settles {α : Type} (attempt : Nat → Run α) (outcome : Except (SyntaxError × Machine) α) :
    Prop :=
  ∃ enough, ∀ calls ≥ enough, (attempt calls).run = some outcome

open Classical in
/-- What attempts settle on, if they do. -/
noncomputable def limit {α : Type} (attempt : Nat → Run α) : Run α :=
  ExceptT.mk (if h : ∃ outcome, Settles attempt outcome then some h.choose else none)

/-- Reads one expression, with at most so many levels open. -/
noncomputable def expressionWithin (levels : Nat) (m : Machine) : Run (Located × Machine) :=
  limit fun calls => binary levels .additive calls m

/-- Reads one expression. -/
noncomputable def expression (m : Machine) : Run (Located × Machine) :=
  m.expressionWithin nestingLimit

/-! ## Attempts -/

section Attempts

variable {α : Type} {attempt : Nat → Run α} {outcome other : Except (SyntaxError × Machine) α}

theorem Settles.of_eq (h : ∀ calls, attempt calls = ExceptT.mk (some outcome)) :
    Settles attempt outcome :=
  ⟨0, fun calls _ => congrArg ExceptT.run (h calls)⟩

/-- Attempts settle on one outcome at most. -/
theorem Settles.eq (h : Settles attempt outcome) (h' : Settles attempt other) :
    outcome = other := by
  obtain ⟨enough, all⟩ := h
  obtain ⟨more, allMore⟩ := h'
  have here := all (max enough more) (Nat.le_max_left ..)
  rw [allMore (max enough more) (Nat.le_max_right ..)] at here
  exact (Option.some.inj here).symm

/-- One call more plays no part. -/
theorem Settles.succ (h : Settles (fun calls => attempt (calls + 1)) outcome) :
    Settles attempt outcome := by
  obtain ⟨enough, all⟩ := h
  refine ⟨enough + 1, fun calls le => ?_⟩
  obtain ⟨fewer, rfl⟩ : ∃ fewer, calls = fewer + 1 := ⟨calls - 1, by omega⟩
  exact all fewer (by omega)

theorem Settles.run_limit (h : Settles attempt outcome) : (limit attempt).run = some outcome := by
  have settles : ∃ outcome, Settles attempt outcome := ⟨outcome, h⟩
  rw [limit, dif_pos settles]
  exact congrArg some (settles.choose_spec.eq h)

end Attempts

end Machine

/-! ## Machines in front of some tokens -/

/-- What readers leave is the end of what they are given. -/
def Reader.Keeps {α : Type} (r : Reader α) : Prop :=
  ∀ ts a rest, Reader.find r ts = .ok (a, rest) → rest <:+ ts

/-- The readers of all phrases leave the end of what they are given. -/
theorem Depth.keeps_within (levels : Nat) (p : Phrase) : ((within levels).reader p).Keeps := by
  intro ts a rest found
  have comes := decides_within levels p ts
  rw [found] at comes
  obtain ⟨us, -, taken, -⟩ := comes
  exact ⟨us, taken.symm⟩

namespace Machine

variable {α β : Type} {ts rest : List Token} {levels d : Nat}

/-- The machine over `ts` in front of the tokens `rest`, which are the last ones. -/
def facing (ts : List Token) (d : Nat) (rest : List Token) : Machine :=
  ⟨ts, ts.length - rest.length, d⟩

theorem first?_facing (h : rest <:+ ts) : (facing ts d rest).first? = rest.head? := by
  obtain ⟨us, rfl⟩ := h
  have index : (us ++ rest).length - rest.length = us.length := by
    rw [List.length_append, Nat.add_sub_cancel]
  show (us ++ rest)[(us ++ rest).length - rest.length]? = _
  rw [index, List.getElem?_append_right (Nat.le_refl _), Nat.sub_self, List.head?_eq_getElem?]

theorem here_facing (h : rest <:+ ts) : (facing ts d rest).here = headSpan ts rest := by
  unfold here headSpan
  rw [first?_facing h]
  cases rest <;> rfl

theorem advance_facing {t : Token} (h : t :: rest <:+ ts) :
    (facing ts d (t :: rest)).advance = facing ts d rest := by
  have le := h.length_le
  rw [List.length_cons] at le
  have index : min (ts.length - (rest.length + 1) + 1) ts.length = ts.length - rest.length := by
    omega
  unfold advance facing
  rw [List.length_cons, index]

/-- What a machine over `ts` comes to where a reader finds this. -/
def settle (ts : List Token) (d : Nat) : Except Fault (α × List Token) → Outcome α
  | .ok (a, rest) => .ok (a, facing ts d rest)
  | .error fault => .error (fault.toError ts, ⟨ts, (fault.toError ts).cursorAfter, d⟩)

@[simp] theorem leave_settle {x : Except Fault (α × List Token)} :
    (settle ts (d + 1) x).leave = settle ts d x := by
  cases x <;> rfl

/-- At depth `d`, attempts settle on what the reader `r` finds. -/
def Mirrors (ts : List Token) (d : Nat) (r : Reader α) (run : Nat → Machine → Run (α × Machine)) :
    Prop :=
  ∀ rest, rest <:+ ts →
    Settles (fun calls => run calls (facing ts d rest)) (settle ts d (Reader.find r rest))

/-- One level deeper the machine is as far, and it comes back to its own depth. -/
theorem Mirrors.leave {r : Reader α} {run : Nat → Machine → Run (α × Machine)}
    (h : Mirrors ts (d + 1) r run) (suffix : rest <:+ ts) :
    Settles (fun calls => leaving (run calls (facing ts d rest).enter))
      (settle ts d (Reader.find r rest)) := by
  obtain ⟨enough, all⟩ := h rest suffix
  refine ⟨enough, fun calls le => ?_⟩
  have deeper : (run calls (facing ts d rest).enter).run = _ := all calls le
  show ((run calls (facing ts d rest).enter).run.map Outcome.leave) = _
  rw [deeper]
  exact congrArg some leave_settle

/-- Steps of the machine in a row settle on what readers find in a row. -/
theorem Settles.bind {x : Except Fault (α × List Token)} {attempt : Nat → Run (α × Machine)}
    {f : Nat → α × Machine → Run (β × Machine)}
    {g : α × List Token → Except Fault (β × List Token)} (h : Settles attempt (settle ts d x))
    (next : ∀ a rest, x = .ok (a, rest) →
      Settles (fun calls => f calls (a, facing ts d rest)) (settle ts d (g (a, rest)))) :
    Settles (fun calls => attempt calls >>= f calls) (settle ts d (x >>= g)) := by
  obtain ⟨enough, all⟩ := h
  cases x with
  | error fault =>
    refine ⟨enough, fun calls le => ?_⟩
    rw [ExceptT.run_bind, all calls le]
    rfl
  | ok found =>
    obtain ⟨more, allMore⟩ := next found.1 found.2 rfl
    refine ⟨max enough more, fun calls le => ?_⟩
    rw [ExceptT.run_bind, all calls (Nat.le_trans (Nat.le_max_left ..) le)]
    exact allMore calls (Nat.le_trans (Nat.le_max_right ..) le)

/-- Behind a step, a reader that goes on may say how much was taken. -/
theorem Settles.bind_parsed {r : Reader α} {attempt : Nat → Run (α × Machine)}
    {f : Nat → α × Machine → Run (β × Machine)} {g : Parsed α rest → Except Fault (β × List Token)}
    (h : Settles attempt (settle ts d (Reader.find r rest)))
    (next : ∀ parsed, Reader.find r rest = .ok (parsed.value, parsed.rest) →
      Settles (fun calls => f calls (parsed.value, facing ts d parsed.rest))
        (settle ts d (g parsed))) :
    Settles (fun calls => attempt calls >>= f calls) (settle ts d (r rest >>= g)) := by
  cases read : r rest with
  | error fault =>
    rw [Reader.find, read] at h
    refine h.bind (g := fun _ => .error fault) fun a left none => ?_
    cases none
  | ok parsed =>
    have found := Reader.find_of_eq_ok read
    rw [found] at h
    refine h.bind (g := fun _ => g parsed) fun a left same => ?_
    cases same
    exact next parsed found

theorem closing_facing (opening : Span) :
    Mirrors ts d (closingBracket opening) (fun _ => closing opening) := by
  intro rest suffix
  refine .of_eq fun _ => ?_
  dsimp only
  rcases comes_closingBracket opening rest with ⟨c, left, rfl, closes, found⟩ | ⟨open_, found⟩
  · rw [found]
    unfold closing
    rw [first?_facing suffix]
    simp only [List.head?_cons, Lexicon.closeBracket, if_pos closes, advance_facing suffix]
    rfl
  · rw [found]
    unfold closing
    rw [first?_facing suffix, here_facing suffix]
    cases rest with
    | nil => rfl
    | cons t rest =>
      have other : t.lexeme ≠ Lexicon.closeBracket := open_ t rfl
      simp only [List.head?_cons, if_neg other]
      rfl

/-! ## Loops -/

theorem operator?_facing (p : Precedence) (h : rest <:+ ts) :
    (facing ts d rest).operator? p
      = rest.head?.bind fun t => BinaryOp.atPrecedence? p t.lexeme := by
  unfold operator?
  rw [first?_facing h]

section Loops

variable {p : Precedence} {operand : Reader Located}

/-- The loop over operators. -/
theorem extend_facing (keeps : operand.Keeps) (right : Mirrors ts d operand (rightOperand levels p))
    (e : Located) (suffix : rest <:+ ts) :
    Settles (fun calls => extend levels p e calls (facing ts d rest))
      (settle ts d (resumeLeft p operand e rest)) := by
  fun_induction resumeLeft p operand e rest with
  | case1 e =>
    refine Settles.succ (.of_eq fun _ => ?_)
    rw [extend, operator?_facing p suffix]
    rfl
  | case2 e t rest other =>
    refine Settles.succ (.of_eq fun _ => ?_)
    rw [extend, operator?_facing p suffix, List.head?_cons, Option.bind_some, other]
    rfl
  | case3 e t rest op found ih =>
    have suffixRest : rest <:+ ts := (List.suffix_cons t rest).trans suffix
    refine Settles.succ ?_
    simp only [extend, operator?_facing p suffix, List.head?_cons, Option.bind_some, found,
      advance_facing suffix]
    refine (right rest suffixRest).bind_parsed fun behind found => ?_
    exact ih behind ((keeps _ _ _ found).trans suffixRest)

/-- One operand, and then the loop. -/
theorem binary_facing (keeps : operand.Keeps) (first : Mirrors ts d operand (operandAt levels p))
    (right : Mirrors ts d operand (rightOperand levels p)) :
    Mirrors ts d (joinedLeft p operand) (binary levels p) := by
  intro rest suffix
  rw [find_joinedLeft]
  refine Settles.succ ((first rest suffix).bind fun e left found => ?_)
  exact extend_facing keeps right e ((keeps _ _ _ found).trans suffix)

/-- The loop over commas. -/
theorem arguments_facing (keeps : operand.Keeps)
    (expression : Mirrors ts d operand (binary levels .additive)) (es : List Located)
    (suffix : rest <:+ ts) :
    Settles (fun calls => arguments levels es.reverse calls (facing ts d rest)) (settle ts d (do
      let (all, left) ← resumeArguments operand es rest
      return (all.reverse, left))) := by
  fun_induction resumeArguments operand es rest with
  | case1 es =>
    refine Settles.succ (.of_eq fun _ => ?_)
    rw [arguments, first?_facing suffix]
    rfl
  | case2 es t rest comma ih =>
    have suffixRest : rest <:+ ts := (List.suffix_cons t rest).trans suffix
    refine Settles.succ ?_
    simp only [arguments, first?_facing suffix, List.head?_cons, if_pos comma,
      advance_facing suffix]
    rw [bind_assoc]
    refine (expression rest suffixRest).bind_parsed fun behind found => ?_
    have loop := ih behind ((keeps _ _ _ found).trans suffixRest)
    rw [List.reverse_cons] at loop
    exact loop
  | case3 es t rest other =>
    refine Settles.succ (.of_eq fun _ => ?_)
    rw [arguments, first?_facing suffix]
    simp only [List.head?_cons, if_neg other]
    rfl

end Loops

/-! ## Levels -/

section Levels

variable {dp : Depth}

/-- Where powers are read as by the reader, expressions are. -/
theorem expression_facing (keeps : ∀ p, (dp.reader p).Keeps)
    (power : Mirrors ts d dp.power (binary levels .exponent)) :
    Mirrors ts d dp.expression (binary levels .additive) := by
  have factor : Mirrors ts d dp.power (operandAt levels .multiplicative) := by
    intro rest suffix
    exact (power rest suffix).succ
  have rightFactor : Mirrors ts d dp.power (rightOperand levels .multiplicative) := by
    intro rest suffix
    exact (factor rest suffix).succ
  have product : Mirrors ts d (dp.reader .term) (binary levels .multiplicative) :=
    binary_facing (keeps .factor) factor rightFactor
  have term : Mirrors ts d (dp.reader .term) (operandAt levels .additive) := by
    intro rest suffix
    exact (product rest suffix).succ
  have rightTerm : Mirrors ts d (dp.reader .term) (rightOperand levels .additive) := by
    intro rest suffix
    exact (term rest suffix).succ
  exact binary_facing (keeps .term) term rightTerm

/-- A call, with its arguments as by the reader. -/
theorem callOf_facing (keeps : ∀ p, (dp.reader p).Keeps)
    (expression : Mirrors ts d dp.expression (binary levels .additive)) (name : Token) :
    Mirrors ts d (dp.callOf name) (callOf levels name) := by
  intro rest suffix
  refine Settles.succ ?_
  simp only [callOf, first?_facing suffix]
  cases rest with
  | nil =>
    rw [find_callOf_of_ne (by simp)]
    exact .of_eq fun _ => rfl
  | cons t rest =>
    by_cases opens : t.lexeme = Lexicon.openBracket
    · have suffixRest : rest <:+ ts := (List.suffix_cons t rest).trans suffix
      rw [find_callOf opens]
      simp only [List.head?_cons, if_pos opens, advance_facing suffix]
      rw [find_arguments, bind_assoc]
      refine (expression rest suffixRest).bind fun e left found => ?_
      have suffixLeft := (keeps .expression _ _ _ found).trans suffixRest
      have loop := arguments_facing (keeps .expression) expression [e] suffixLeft
      rw [List.reverse_singleton] at loop
      rw [Depth.reader] at loop
      refine loop.bind fun es behind all => ?_
      have whole : Reader.find (dp.reader .arguments) rest = .ok (es, behind) := by
        show Reader.find (Calculator.arguments dp.expression) rest = _
        rw [find_arguments, found]
        exact all
      have suffixBehind := (keeps .arguments _ _ _ whole).trans suffixRest
      exact (closing_facing t.span behind suffixBehind).bind fun close last _ => .of_eq fun _ => rfl
    · have other : ∀ u ∈ (t :: rest).head?, u.lexeme ≠ "(" := by
        intro u hu
        cases hu
        exact opens
      rw [find_callOf_of_ne other]
      simp only [List.head?_cons, if_neg opens]
      exact .of_eq fun _ => rfl

/-- An operand, with its inside as by the reader. -/
theorem operand_facing (keeps : ∀ p, (dp.reader p).Keeps)
    (inner : Mirrors ts d dp.operand (nested levels .operand))
    (expression : Mirrors ts d dp.expression (binary levels .additive)) :
    Mirrors ts d dp.nextOperand (operand levels) := by
  intro rest suffix
  refine Settles.succ ?_
  simp only [operand, first?_facing suffix]
  cases rest with
  | nil =>
    simp only [here_facing suffix]
    exact .of_eq fun _ => rfl
  | cons t rest =>
    have suffixRest : rest <:+ ts := (List.suffix_cons t rest).trans suffix
    simp only [List.head?_cons, advance_facing suffix]
    cases opening : Opening.ofLexeme? t.lexeme with
    | none =>
      rw [find_nextOperand_none opening]
      have le := suffix.length_le
      rw [List.length_cons] at le
      -- The token is used up.
      have index : ts.length - (rest.length + 1) + 1 = ts.length - rest.length := by omega
      have behind : facing ts d rest = ⟨ts, ts.length - (rest.length + 1) + 1, d⟩ := by
        rw [index]
        rfl
      rw [behind]
      exact .of_eq fun _ => rfl
    | some o =>
      cases o with
      | negation =>
        rw [find_nextOperand_negation opening]
        exact (inner rest suffixRest).bind fun e left _ => .of_eq fun _ => rfl
      | group =>
        rw [find_nextOperand_group opening]
        refine (expression rest suffixRest).bind fun e left found => ?_
        have suffixLeft := (keeps .expression _ _ _ found).trans suffixRest
        exact (closing_facing t.span left suffixLeft).bind fun close last _ => .of_eq fun _ => rfl
      | call f =>
        rw [find_nextOperand_call opening]
        exact callOf_facing keeps expression t rest suffixRest
      | value x =>
        rw [find_nextOperand_value opening]
        exact .of_eq fun _ => rfl

/-- No operators are tighter than `^`. -/
theorem operandAt_exponent_facing {r : Reader Located}
    (h : Mirrors ts d r (nested levels .operand)) :
    Mirrors ts d r (operandAt levels .exponent) :=
  fun rest suffix => (h rest suffix).succ

/-- A power, with operands and exponents as by the readers. -/
theorem power_facing (keeps : dp.nextOperand.Keeps)
    (ends : ∀ ts e rest, Reader.find dp.power ts = .ok (e, rest) →
      rest <:+ ts ∧ ∀ t ∈ rest.head?, t.lexeme ≠ "^")
    (operand : Mirrors ts d dp.nextOperand (nested levels .operand))
    (exponent : Mirrors ts d dp.power (nested levels (.right .exponent))) :
    Mirrors ts d dp.nextPower (binary levels .exponent) := by
  intro rest suffix
  rw [find_nextPower]
  have first := operandAt_exponent_facing operand rest suffix
  refine Settles.succ (first.bind fun e left found => ?_)
  have suffixLeft := (keeps _ _ _ found).trans suffix
  -- The loop ends where no `^` is next.
  have stop {e : Located} {left : List Token} (suffix : left <:+ ts)
      (other : ∀ t ∈ left.head?, t.lexeme ≠ "^") :
      Settles (fun calls => extend levels .exponent e calls (facing ts d left))
        (settle ts d (.ok (e, left))) := by
    refine Settles.succ (.of_eq fun _ => ?_)
    rw [extend, operator?_facing _ suffix]
    cases left with
    | nil => rfl
    | cons t left =>
      have absent : BinaryOp.atPrecedence? .exponent t.lexeme = none :=
        (Stops.of_ne_circumflex other).atPrecedence?_eq_none (by decide) t rfl
      rw [List.head?_cons, Option.bind_some, absent]
      rfl
  dsimp only
  by_cases next : ∀ t ∈ left.head?, t.lexeme ≠ "^"
  · rw [resumePower_of_ne next]
    exact stop suffixLeft next
  · cases left with
    | nil => simp at next
    | cons t left =>
      have circumflex : t.lexeme = "^" := by simpa using next
      have suffixBehind : left <:+ ts := (List.suffix_cons t left).trans suffixLeft
      have right :
          Settles (fun calls => rightOperand levels .exponent calls (facing ts d left)) _ :=
        (exponent left suffixBehind).succ
      rw [resumePower_cons circumflex]
      refine Settles.succ ?_
      simp only [extend, operator?_facing _ suffixLeft, List.head?_cons, Option.bind_some,
        BinaryOp.eq_circumflex_iff.1 circumflex, advance_facing suffixLeft]
      refine right.bind fun f last found' => ?_
      obtain ⟨suffixLast, other⟩ := ends _ _ _ found'
      exact stop (suffixLast.trans suffixBehind) other

end Levels

/-- At any depth, the machine comes to what is found in the levels that are left. -/
theorem mirrors_within (ts : List Token) (left : Nat) {levels d : Nat} (h : d + left = levels) :
    Mirrors ts d (Depth.within left).operand (nested levels .operand) ∧
      Mirrors ts d (Depth.within left).power (binary levels .exponent) := by
  induction left generalizing d with
  | zero =>
    have deep : Mirrors ts d (Depth.within 0).operand (nested levels .operand) := by
      intro rest suffix
      have full : ¬ (facing ts d rest).depth < levels := by
        show ¬ d < levels
        omega
      refine Settles.succ (.of_eq fun _ => ?_)
      rw [nested, if_neg full, here_facing suffix]
      rfl
    refine ⟨deep, fun rest suffix => ?_⟩
    have first := operandAt_exponent_facing deep rest suffix
    refine Settles.succ (first.bind (g := fun _ => .error ⟨.tooDeep, rest⟩) fun e left none => ?_)
    cases none
  | succ left ih =>
    obtain ⟨operandInside, powerInside⟩ := ih (by omega : d + 1 + left = levels)
    have keeps := Depth.keeps_within left
    have inside := operand_facing keeps operandInside (expression_facing keeps powerInside)
    have room (rest : List Token) : (facing ts d rest).depth < levels := by
      show d < levels
      omega
    have operand : Mirrors ts d (Depth.within left).nextOperand (nested levels .operand) := by
      intro rest suffix
      refine Settles.succ ?_
      simp only [nested, if_pos (room rest)]
      exact inside.leave suffix
    have exponent : Mirrors ts d (Depth.within left).power (nested levels (.right .exponent)) := by
      intro rest suffix
      refine Settles.succ ?_
      simp only [nested, if_pos (room rest)]
      exact powerInside.leave suffix
    refine ⟨operand, power_facing (Depth.keeps_within (left + 1) .primary) ?_ operand exponent⟩
    intro us e rest found
    have comes := Depth.decides_within left .factor us
    change Comes _ _ _ _ us (Reader.find (Depth.within left).power us) at comes
    rw [found] at comes
    obtain ⟨vs, -, taken, -, -, ends⟩ := comes
    exact ⟨⟨vs, taken.symm⟩, Stops.ne_circumflex ends (by decide)⟩

/-! ## Reading one expression -/

/-- A machine with no levels open comes to what is found behind its index, in as many levels as it
may open. -/
theorem expressionWithin_run (levels : Nat) {index : Nat} (le : index ≤ ts.length) :
    ((⟨ts, index, 0⟩ : Machine).expressionWithin levels).run = some (settle ts 0
      (Reader.find (Depth.within levels).expression (ts.drop index))) := by
  have here : (⟨ts, index, 0⟩ : Machine) = facing ts 0 (ts.drop index) := by
    unfold facing
    rw [List.length_drop, Nat.sub_sub_self le]
  have power := (mirrors_within ts levels (Nat.zero_add _)).2
  rw [here]
  have settles := expression_facing (Depth.keeps_within levels) power
  exact (settles _ (List.drop_suffix index ts)).run_limit

end Machine

end Calculator
