import Calculator.Proofs.Reader

/-!
# What reading comes to

A reader either finds a phrase of the grammar, which ends where nothing of it can follow, or it is
refused in one of the ways that `Refuses` lists: one for each place where a reader stops, and one for
each place where it passes on what stopped a part of the phrase. `Depth.decides_within` says so of
the readers of all phrases at once.
-/

namespace Calculator

open Reader

/-- The readers of all phrases at some depth. -/
def Depth.reader (d : Depth) : (p : Phrase) → Reader (p.Tree Span)
  | .expression => d.expression
  | .term => joinedLeft .multiplicative d.power
  | .factor => d.power
  | .primary => d.operand
  | .arguments => arguments d.expression

/-! ## Where a phrase ends -/

/-- No operator that binds more strongly than `bound` is next. -/
def Stops (bound : Nat) (ts : List Token) : Prop :=
  ∀ t ∈ ts.head?, ∀ op : BinaryOp, t.lexeme = op.symbol → op.precedence.rank ≤ bound

namespace Stops

variable {bound : Nat} {ts : List Token}

theorem mono {more : Nat} (h : Stops bound ts) (le : bound ≤ more) : Stops more ts :=
  fun t ht op spelled => Nat.le_trans (h t ht op spelled) le

/-- Operators that bind more strongly are not next. -/
theorem atPrecedence?_eq_none (h : Stops bound ts) {p : Precedence} (lt : bound < p.rank) :
    ∀ t ∈ ts.head?, BinaryOp.atPrecedence? p t.lexeme = none := by
  intro t ht
  cases found : BinaryOp.atPrecedence? p t.lexeme with
  | none => rfl
  | some op =>
    obtain ⟨spelled, rfl⟩ := BinaryOp.atPrecedence?_eq_some_iff.1 found
    have := h t ht op spelled
    omega

/-- No `^` is next. -/
theorem ne_circumflex (h : Stops bound ts) (lt : bound < 3) : ∀ t ∈ ts.head?, t.lexeme ≠ "^" := by
  intro t ht circumflex
  have : 3 ≤ bound := h t ht .pow circumflex
  omega

theorem nil : Stops bound [] := by
  intro t ht
  simp at ht

/-- An operator stops what binds more strongly. -/
theorem cons_operator {t : Token} {p : Precedence} {op : BinaryOp}
    (h : BinaryOp.atPrecedence? p t.lexeme = some op) : Stops p.rank (t :: ts) := by
  intro u hu op' spelled
  cases hu
  obtain ⟨spelled', rfl⟩ := BinaryOp.atPrecedence?_eq_some_iff.1 h
  have : op' = op := by
    rw [spelled'] at spelled
    apply Option.some.inj
    rw [← BinaryOp.ofSymbol?_symbol, ← BinaryOp.ofSymbol?_symbol, spelled]
  rw [this]

/-- Where the weakest operators that could be next are not next, only weaker ones are. -/
theorem of_atPrecedence?_eq_none {p : Precedence} (h : Stops p.rank ts)
    (none : ∀ t ∈ ts.head?, BinaryOp.atPrecedence? p t.lexeme = none) : Stops (p.rank - 1) ts := by
  intro t ht op spelled
  have le := h t ht op spelled
  have ne : op.precedence ≠ p := by
    intro eq
    have := none t ht
    rw [BinaryOp.atPrecedence?_eq_some_iff.2 ⟨spelled, eq⟩] at this
    simp at this
  -- Ranks are one apart.
  revert le ne
  cases op.precedence <;> cases p <;> decide

/-- Where no `^` is next, no operator that binds like it is. -/
theorem of_ne_circumflex (h : ∀ t ∈ ts.head?, t.lexeme ≠ "^") : Stops 2 ts := by
  intro t ht op spelled
  have ne : op ≠ .pow := by
    intro eq
    rw [eq] at spelled
    exact h t ht spelled
  revert ne
  cases op <;> decide

/-- What is no operator stops everything. -/
theorem cons_of_ne {t : Token} (h : ∀ op : BinaryOp, t.lexeme ≠ op.symbol) :
    Stops bound (t :: ts) := by
  intro u hu op spelled
  cases hu
  exact absurd spelled (h op)

end Stops

/-- A closing bracket is no operator. -/
theorem stops_close {bound : Nat} {c : Token} {ts : List Token} (h : c.lexeme = ")") :
    Stops bound (c :: ts) := by
  apply Stops.cons_of_ne
  intro op
  rw [h]
  cases op <;> decide

/-- A comma is no operator. -/
theorem stops_comma {bound : Nat} {c : Token} {ts : List Token} (h : c.lexeme = ",") :
    Stops bound (c :: ts) := by
  apply Stops.cons_of_ne
  intro op
  rw [h]
  cases op <;> decide

/-- Whether a phrase that was read before `ts` ends there: nothing of it can follow. -/
def Phrase.Ends : Phrase → List Token → Prop
  | expression, ts => Stops 0 ts
  | term, ts => Stops 1 ts
  | factor, ts => Stops 2 ts
  | primary, _ => True
  | arguments, ts => Stops 0 ts ∧ ∀ t ∈ ts.head?, t.lexeme ≠ ","

/-! ## Where reading stops -/

/-- In `levels` levels, a phrase is not read at the front of these tokens but stops with a fault. -/
inductive Refuses : (levels : Nat) → Phrase → List Token → Fault → Prop
  | deep {ts} : Refuses 0 .primary ts ⟨.tooDeep, ts⟩
  | ended {n} : Refuses (n + 1) .primary [] ⟨.endOfInput, []⟩
  | unexpected {n t ts} : Opening.ofLexeme? t.lexeme = none →
      Refuses (n + 1) .primary (t :: ts) ⟨.unexpectedToken t .operand, t :: ts⟩
  | negate {n t ts f} : t.lexeme = "-" → Refuses n .primary ts f →
      Refuses (n + 1) .primary (t :: ts) f
  | group {n t ts f} : t.lexeme = "(" → Refuses n .expression ts f →
      Refuses (n + 1) .primary (t :: ts) f
  | openGroup {n t us rest e m} : t.lexeme = "(" → Derives .places 1 .expression us e m → m ≤ n →
      Phrase.expression.Ends rest → (∀ c ∈ rest.head?, c.lexeme ≠ ")") →
      Refuses (n + 1) .primary (t :: (us ++ rest)) ⟨.unterminatedGroup t.span, rest⟩
  | noBracket {n w g rest} : Builtin.ofName? w.lexeme = some g →
      (∀ o ∈ rest.head?, o.lexeme ≠ "(") →
      Refuses (n + 1) .primary (w :: rest) ⟨.expectedCallBracket w, rest⟩
  | call {n w g o ts f} : Builtin.ofName? w.lexeme = some g → o.lexeme = "(" →
      Refuses n .arguments ts f → Refuses (n + 1) .primary (w :: o :: ts) f
  | openCall {n w g o us rest es m} : Builtin.ofName? w.lexeme = some g → o.lexeme = "(" →
      Derives .places 1 .arguments us es m → m ≤ n → Phrase.arguments.Ends rest →
      (∀ c ∈ rest.head?, c.lexeme ≠ ")") →
      Refuses (n + 1) .primary (w :: o :: (us ++ rest)) ⟨.unterminatedGroup o.span, rest⟩
  | argument {n ts f} : Refuses n .expression ts f → Refuses n .arguments ts f
  | comma {n us k ts es m f} : Derives .places 1 .arguments us es m → m ≤ n → k.lexeme = "," →
      Refuses n .expression ts f → Refuses n .arguments (us ++ k :: ts) f
  | base {n ts f} : Refuses n .primary ts f → Refuses n .factor ts f
  | exponent {n us k ts e m f} : Derives .places 1 .primary us e m → m ≤ n + 1 → k.lexeme = "^" →
      Refuses n .factor ts f → Refuses (n + 1) .factor (us ++ k :: ts) f
  | factor {n ts f} : Refuses n .factor ts f → Refuses n .term ts f
  | product {n us k op ts e m f} : Derives .places 1 .term us e m → m ≤ n →
      (k.lexeme, op) ∈ productOperators → Refuses n .factor ts f →
      Refuses n .term (us ++ k :: ts) f
  | term {n ts f} : Refuses n .term ts f → Refuses n .expression ts f
  | sum {n us k op ts e m f} : Derives .places 1 .expression us e m → m ≤ n →
      (k.lexeme, op) ∈ sumOperators → Refuses n .term ts f →
      Refuses n .expression (us ++ k :: ts) f

/-! ## Either a phrase or a refusal -/

/-- What a reader may come to from `ts`. A value was taken from the front of `ts`, as `P` says, in at
most `levels` levels, and `ends` holds of the tokens left; or `ts` is refused, as `R` says. -/
def Comes {α : Type} (levels : Nat) (P : List Token → α → Nat → Prop) (ends : List Token → Prop)
    (R : List Token → Fault → Prop) (ts : List Token) : Except Fault (α × List Token) → Prop
  | .ok (a, rest) => ∃ us n, ts = us ++ rest ∧ n ≤ levels ∧ P us a n ∧ ends rest
  | .error f => R ts f

/-- All that a reader of the phrase `p` may come to. -/
abbrev Decides (levels : Nat) (p : Phrase) (r : Reader (p.Tree Span)) : Prop :=
  ∀ ts, Comes levels (Derives .places 1 p) p.Ends (Refuses levels p) ts (find r ts)

section Loops

variable {levels : Nat} {p : Precedence} {operand : Reader Located}
  {P Q : List Token → Located → Nat → Prop} {R S : List Token → Fault → Prop}

/-- The loop over operators leads from one thing that `P` allows to another. -/
theorem comes_resumeLeft
    (decides : ∀ ts, Comes levels Q (Stops p.rank) S ts (find operand ts))
    (more : ∀ {us t op vs e f n m}, P us e n → BinaryOp.atPrecedence? p t.lexeme = some op →
      Q vs f m → P (us ++ t :: vs) (.binary op e f (e.note.join f.note)) (max n m))
    (refuse : ∀ {us t op ts e n f}, P us e n → n ≤ levels →
      BinaryOp.atPrecedence? p t.lexeme = some op → S ts f → R (us ++ t :: ts) f)
    {us ts : List Token} {e : Located} {n : Nat} (he : P us e n) (hn : n ≤ levels)
    (stops : Stops p.rank ts) :
    Comes levels P (Stops (p.rank - 1)) R (us ++ ts) (resumeLeft p operand e ts) := by
  -- What was read so far is always derived from the tokens `us` in front of the rest.
  fun_induction resumeLeft p operand e ts generalizing us n with
  | case1 e => exact ⟨us, n, rfl, hn, he, .nil⟩
  | case2 e t ts other =>
    refine ⟨us, n, rfl, hn, he, stops.of_atPrecedence?_eq_none ?_⟩
    intro u hu
    cases hu
    exact other
  | case3 e t ts op found ih =>
    have operandComes := decides ts
    cases read : operand ts with
    | error f =>
      rw [find, read] at operandComes
      exact refuse he hn found operandComes
    | ok right =>
      rw [find_of_eq_ok read] at operandComes
      rcases operandComes with ⟨vs, m, taken, hm, hright, stopsRight⟩
      -- The operator and its right operand move to the tokens in front.
      have loop := ih right (more he found hright) (max_le hn hm) stopsRight
      rw [List.append_assoc, List.cons_append, ← taken] at loop
      exact loop

/-- Operands with operators between them. -/
theorem comes_joinedLeft
    (decides : ∀ ts, Comes levels Q (Stops p.rank) S ts (find operand ts))
    (one : ∀ {us e n}, Q us e n → P us e n)
    (more : ∀ {us t op vs e f n m}, P us e n → BinaryOp.atPrecedence? p t.lexeme = some op →
      Q vs f m → P (us ++ t :: vs) (.binary op e f (e.note.join f.note)) (max n m))
    (refuseOne : ∀ {ts f}, S ts f → R ts f)
    (refuse : ∀ {us t op ts e n f}, P us e n → n ≤ levels →
      BinaryOp.atPrecedence? p t.lexeme = some op → S ts f → R (us ++ t :: ts) f)
    (ts : List Token) :
    Comes levels P (Stops (p.rank - 1)) R ts (find (joinedLeft p operand) ts) := by
  rw [find_joinedLeft]
  have first := decides ts
  cases read : find operand ts with
  | error f =>
    rw [read] at first
    exact refuseOne first
  | ok found =>
    rw [read] at first
    rcases first with ⟨us, n, rfl, hn, he, stops⟩
    exact comes_resumeLeft decides more refuse (one he) hn stops

/-- The loop over commas leads from arguments to arguments. -/
theorem comes_resumeArguments (decides : Decides levels .expression operand)
    {us ts : List Token} {es : List Located} {n : Nat}
    (hes : Derives .places 1 .arguments us es.reverse n) (hn : n ≤ levels) (stops : Stops 0 ts) :
    Comes levels (fun vs all => Derives .places 1 .arguments vs all.reverse)
      Phrase.arguments.Ends (Refuses levels .arguments) (us ++ ts)
      (resumeArguments operand es ts) := by
  -- As in the loop over operators, with the last argument at the head of the list.
  fun_induction resumeArguments operand es ts generalizing us n with
  | case1 es =>
    refine ⟨us, n, rfl, hn, hes, stops, ?_⟩
    intro u hu
    simp at hu
  | case2 es t ts comma ih =>
    have argComes := decides ts
    cases read : operand ts with
    | error f =>
      rw [find, read] at argComes
      exact .comma hes hn comma argComes
    | ok arg =>
      rw [find_of_eq_ok read] at argComes
      rcases argComes with ⟨vs, m, taken, hm, harg, stopsArg⟩
      have longer : Derives .places 1 .arguments (us ++ t :: vs) (arg.value :: es).reverse
          (max n m) := by
        rw [List.reverse_cons]
        exact .comma hes comma harg
      have loop := ih arg longer (max_le hn hm) stopsArg
      rw [List.append_assoc, List.cons_append, ← taken] at loop
      exact loop
  | case3 es t ts other =>
    refine ⟨us, n, rfl, hn, hes, stops, ?_⟩
    intro u hu
    cases hu
    exact other

/-- Expressions with commas between them. -/
theorem decides_arguments (decides : Decides levels .expression operand) :
    Decides levels .arguments (arguments operand) := by
  intro ts
  rw [find_arguments]
  have first := decides ts
  cases read : find operand ts with
  | error f =>
    rw [read] at first
    exact .argument first
  | ok found =>
    rw [read] at first
    rcases found with ⟨e, rest⟩
    rcases first with ⟨us, n, rfl, hn, he, stops⟩
    have one : Derives .places 1 .arguments us [e].reverse n := .argument he
    have loop := comes_resumeArguments decides one hn stops
    rw [ok_bind]
    dsimp only
    cases resumed : resumeArguments operand [e] rest with
    | error f =>
      rw [resumed] at loop
      exact loop
    | ok all =>
      rw [resumed] at loop
      exact loop

end Loops

/-- A bracket is closed where a closing bracket is next. -/
theorem comes_closingBracket (opening : Span) (ts : List Token) :
    (∃ c rest, ts = c :: rest ∧ c.lexeme = ")" ∧
      find (closingBracket opening) ts = .ok (c.span, rest)) ∨
    ((∀ c ∈ ts.head?, c.lexeme ≠ ")") ∧
      find (closingBracket opening) ts = .error ⟨.unterminatedGroup opening, ts⟩) := by
  by_cases next : ∀ c ∈ ts.head?, c.lexeme ≠ ")"
  · exact .inr ⟨next, find_closingBracket_of_ne next⟩
  · cases ts with
    | nil => simp at next
    | cons c rest =>
      have closes : c.lexeme = ")" := by simpa using next
      exact .inl ⟨c, rest, rfl, closes, find_closingBracket closes⟩

namespace Depth

variable {d : Depth} {levels : Nat}

/-- Operands and powers carry all other phrases. -/
theorem decides_reader (operand : Decides levels .primary d.operand)
    (power : Decides levels .factor d.power) (p : Phrase) : Decides levels p (d.reader p) := by
  have term : Decides levels .term (joinedLeft .multiplicative d.power) :=
    comes_joinedLeft power .factor
      (fun he op hf => .product he (BinaryOp.mem_productOperators_iff.2 op) hf) .factor
      (fun he hn op hf => .product he hn (BinaryOp.mem_productOperators_iff.2 op) hf)
  have expression : Decides levels .expression d.expression :=
    comes_joinedLeft term .term
      (fun he op hf => .sum he (BinaryOp.mem_sumOperators_iff.2 op) hf) .term
      (fun he hn op hf => .sum he hn (BinaryOp.mem_sumOperators_iff.2 op) hf)
  cases p with
  | expression => exact expression
  | term => exact term
  | factor => exact power
  | primary => exact operand
  | arguments => exact decides_arguments expression

/-- What reading behind the name of a function comes to, with the name in front. -/
theorem comes_callOf (inside : ∀ p, Decides levels p (d.reader p)) {name : Token} {g : Builtin}
    (named : Builtin.ofName? name.lexeme = some g) (ts : List Token) :
    Comes (levels + 1) (fun us => Derives .places 1 .primary (name :: us)) Phrase.primary.Ends
      (fun ts => Refuses (levels + 1) .primary (name :: ts)) ts (find (d.callOf name) ts) := by
  by_cases next : ∀ o ∈ ts.head?, o.lexeme ≠ "("
  · rw [find_callOf_of_ne next]
    exact .noBracket named next
  · cases ts with
    | nil => simp at next
    | cons o ts =>
      have opens : o.lexeme = "(" := by simpa using next
      rw [find_callOf opens]
      have args := inside .arguments ts
      change Comes _ _ _ _ ts (find (arguments d.expression) ts) at args
      cases read : find (arguments d.expression) ts with
      | error f =>
        rw [read] at args
        exact .call named opens args
      | ok found =>
        rw [read] at args
        rcases args with ⟨us, n, rfl, hn, hes, ends⟩
        rw [ok_bind]
        dsimp only
        rcases comes_closingBracket o.span found.2 with ⟨c, rest, left, closes, closed⟩ |
          ⟨not, open_⟩
        · rw [closed, left]
          exact ⟨o :: (us ++ [c]), 1 + n, by simp, by omega, .call named opens hes closes, trivial⟩
        · rw [open_]
          exact .openCall named opens hes hn ends not

/-- With the inside of an operand decided, an operand is. -/
theorem decides_nextOperand (inside : ∀ p, Decides levels p (d.reader p)) :
    Decides (levels + 1) .primary d.nextOperand := by
  intro ts
  cases ts with
  | nil => exact .ended
  | cons t ts =>
    cases opening : Opening.ofLexeme? t.lexeme with
    | none =>
      rw [find_nextOperand_none opening]
      exact .unexpected opening
    | some o =>
      have spelled := Opening.ofLexeme?_eq_some_iff.1 opening
      cases o with
      | negation =>
        rw [find_nextOperand_negation opening]
        have operand := inside .primary ts
        change Comes _ _ _ _ ts (find d.operand ts) at operand
        cases read : find d.operand ts with
        | error f =>
          rw [read] at operand
          exact .negate spelled operand
        | ok found =>
          rw [read] at operand
          rcases operand with ⟨us, n, rfl, hn, he, -⟩
          exact ⟨t :: us, 1 + n, rfl, by omega, .negate spelled he, trivial⟩
      | group =>
        rw [find_nextOperand_group opening]
        have expression := inside .expression ts
        change Comes _ _ _ _ ts (find d.expression ts) at expression
        cases read : find d.expression ts with
        | error f =>
          rw [read] at expression
          exact .group spelled expression
        | ok found =>
          rw [read] at expression
          rcases expression with ⟨us, n, rfl, hn, he, ends⟩
          rw [ok_bind]
          dsimp only
          rcases comes_closingBracket t.span found.2 with ⟨c, rest, left, closes, closed⟩ |
            ⟨not, open_⟩
          · rw [closed, left]
            exact ⟨t :: (us ++ [c]), 1 + n, by simp, by omega, .group spelled he closes, trivial⟩
          · rw [open_]
            exact .openGroup spelled he hn ends not
      | call g =>
        rw [find_nextOperand_call opening]
        have call := comes_callOf inside spelled ts
        cases read : find (d.callOf t) ts with
        | error f =>
          rw [read] at call
          exact call
        | ok found =>
          rw [read] at call
          rcases call with ⟨us, n, rfl, hn, he, -⟩
          exact ⟨t :: us, n, rfl, hn, he, trivial⟩
      | value x =>
        rw [find_nextOperand_value opening]
        rcases spelled with ⟨k, named, rfl⟩ | ⟨number, rfl⟩
        · exact ⟨[t], 1, rfl, by omega, .constant named, trivial⟩
        · exact ⟨[t], 1, rfl, by omega, .number number, trivial⟩

/-- With operands decided, and exponents one level deeper, powers are. -/
theorem decides_nextPower (operand : Decides (levels + 1) .primary d.nextOperand)
    (exponent : Decides levels .factor d.power) : Decides (levels + 1) .factor d.nextPower := by
  intro ts
  rw [find_nextPower]
  have base := operand ts
  cases read : find d.nextOperand ts with
  | error f =>
    rw [read] at base
    exact .base base
  | ok found =>
    rw [read] at base
    rcases found with ⟨e, rest⟩
    rcases base with ⟨us, n, rfl, hn, he, -⟩
    rw [ok_bind]
    dsimp only
    by_cases next : ∀ k ∈ rest.head?, k.lexeme ≠ "^"
    -- With no `^` behind it, the operand is the whole power.
    · rw [resumePower_of_ne next]
      exact ⟨us, n, rfl, hn, .base he, .of_ne_circumflex next⟩
    · cases rest with
      | nil => simp at next
      | cons k ts =>
        have circumflex : k.lexeme = "^" := by simpa using next
        rw [resumePower_cons circumflex]
        have power := exponent ts
        cases readExponent : find d.power ts with
        | error f =>
          rw [readExponent] at power
          exact .exponent he hn circumflex power
        | ok found =>
          rw [readExponent] at power
          rcases power with ⟨vs, m, rfl, hm, hf, ends⟩
          exact ⟨us ++ k :: vs, max n (1 + m), by simp, by omega, .power he circumflex hf, ends⟩

/-- What reading in some number of levels comes to, for each phrase. -/
theorem decides_within (levels : Nat) (p : Phrase) :
    Decides levels p ((within levels).reader p) := by
  -- At each level the inside of an operand, and an exponent, are read with one level less.
  induction levels generalizing p with
  | zero =>
    refine decides_reader ?_ ?_ p
    · intro ts
      exact Refuses.deep
    · intro ts
      exact Refuses.base .deep
  | succ levels inside =>
    have operand := decides_nextOperand inside
    exact decides_reader operand (decides_nextPower operand (inside .factor)) p

/-- What reading an expression comes to. -/
theorem comes_expression (levels : Nat) (ts : List Token) :
    Comes levels (Derives .places 1 .expression) (Stops 0) (Refuses levels .expression) ts
      (find (within levels).expression ts) :=
  decides_within levels .expression ts

end Depth

end Calculator
