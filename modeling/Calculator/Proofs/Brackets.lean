import Calculator.Proofs.Blame
import Mathlib.Data.Nat.Find

/-!
# Brackets

A row of tokens is `Balanced` if it has as many closing brackets as opening ones, and no beginning
of it has more. All phrases of the grammar are (`Derives.balanced`), and so is what stands between
an unterminated bracket and the token where it should have been closed (`Refuses.leavesOpen`). So
every bracket opened in between is closed there too, and the one to blame is the last that is not:
`parse_brackets`.
-/

namespace Calculator

/-! ## Balanced tokens -/

/-- The number of opening brackets. -/
def openings (ts : List Token) : Nat :=
  ts.countP fun t => t.lexeme = "("

/-- The number of closing brackets. -/
def closings (ts : List Token) : Nat :=
  ts.countP fun t => t.lexeme = ")"

/-- No beginning of the tokens has more closing brackets than opening ones, and in all they are as
many. -/
structure Balanced (ts : List Token) : Prop where
  beginnings : ∀ n, closings (ts.take n) ≤ openings (ts.take n)
  total : openings ts = closings ts

/-- A token that is no bracket. -/
structure IsPlain (t : Token) : Prop where
  not_opening : t.lexeme ≠ "("
  not_closing : t.lexeme ≠ ")"

section Counting

variable {t : Token} (ts us : List Token)

@[simp] theorem openings_nil : openings [] = 0 := rfl

@[simp] theorem closings_nil : closings [] = 0 := rfl

@[simp] theorem openings_append : openings (ts ++ us) = openings ts + openings us :=
  List.countP_append

@[simp] theorem closings_append : closings (ts ++ us) = closings ts + closings us :=
  List.countP_append

theorem openings_cons : openings (t :: ts) = (if t.lexeme = "(" then 1 else 0) + openings ts := by
  rw [openings, List.countP_cons, Nat.add_comm]
  simp only [decide_eq_true_eq, openings]

theorem closings_cons : closings (t :: ts) = (if t.lexeme = ")" then 1 else 0) + closings ts := by
  rw [closings, List.countP_cons, Nat.add_comm]
  simp only [decide_eq_true_eq, closings]

/-- An opening bracket is no closing one. -/
theorem counts_opening (h : t.lexeme = "(") :
    openings (t :: ts) = 1 + openings ts ∧ closings (t :: ts) = closings ts := by
  rw [openings_cons, closings_cons, h]
  exact ⟨rfl, Nat.zero_add _⟩

/-- A closing bracket is no opening one. -/
theorem counts_closing (h : t.lexeme = ")") :
    openings (t :: ts) = openings ts ∧ closings (t :: ts) = 1 + closings ts := by
  rw [openings_cons, closings_cons, h]
  exact ⟨Nat.zero_add _, rfl⟩

theorem counts_plain (h : IsPlain t) :
    openings (t :: ts) = openings ts ∧ closings (t :: ts) = closings ts := by
  rw [openings_cons, closings_cons, if_neg h.not_opening, if_neg h.not_closing]
  exact ⟨Nat.zero_add _, Nat.zero_add _⟩

end Counting

namespace Balanced

variable {t o c : Token} {ts us : List Token}

theorem nil : Balanced [] :=
  ⟨fun n => by simp, rfl⟩

/-- Balanced tokens behind others. -/
theorem append (h : Balanced ts) (h' : Balanced us) : Balanced (ts ++ us) := by
  constructor
  · intro n
    have front := h.beginnings n
    have back := h'.beginnings (n - ts.length)
    rw [List.take_append, openings_append, closings_append]
    omega
  · rw [openings_append, closings_append, h.total, h'.total]

/-- A token that is no bracket in front of balanced ones. -/
theorem cons (ht : IsPlain t) (h : Balanced ts) : Balanced (t :: ts) := by
  constructor
  · intro n
    cases n with
    | zero => simp
    | succ n =>
      rw [List.take_succ_cons, (counts_plain _ ht).1, (counts_plain _ ht).2]
      exact h.beginnings n
  · rw [(counts_plain _ ht).1, (counts_plain _ ht).2, h.total]

/-- Balanced tokens in brackets. -/
theorem bracketed (ho : o.lexeme = "(") (h : Balanced ts) (hc : c.lexeme = ")") :
    Balanced (o :: (ts ++ [c])) := by
  constructor
  · intro n
    cases n with
    | zero => simp
    | succ n =>
      -- The last bracket closes what the first one opens.
      have inside := h.beginnings n
      have last : closings ([c].take (n - ts.length)) ≤ 1 := by
        cases n - ts.length with
        | zero => simp
        | succ k => rw [List.take_succ_cons, (counts_closing _ hc).2]; simp
      rw [List.take_succ_cons, (counts_opening _ ho).1, (counts_opening _ ho).2, List.take_append,
        openings_append, closings_append]
      omega
  · rw [(counts_opening _ ho).1, (counts_opening _ ho).2, openings_append, closings_append,
      (counts_closing _ hc).1, (counts_closing _ hc).2, h.total]
    simp [Nat.add_comm]

end Balanced

/-! ## Closed brackets -/

/-- A bracket that is opened right in front of the tokens `ts` is closed in them: a closing bracket
stands behind balanced ones. -/
def ClosedIn (ts : List Token) : Prop :=
  ∃ inside c behind, ts = inside ++ c :: behind ∧ Balanced inside ∧ c.lexeme = ")"

/-- Balanced tokens do not close a bracket in front of them. -/
theorem Balanced.not_closedIn {ts : List Token} (h : Balanced ts) : ¬ ClosedIn ts := by
  rintro ⟨inside, c, behind, rfl, balanced, closes⟩
  have beginning := h.beginnings (inside.length + 1)
  rw [List.append_cons, List.take_left' (by simp), openings_append, closings_append,
    (counts_closing _ closes).1, (counts_closing _ closes).2, openings_nil, closings_nil,
    balanced.total] at beginning
  omega

/-- A bracket in front of more closing brackets than opening ones is closed. -/
theorem closedIn_of_lt {ts : List Token} (h : openings ts < closings ts) : ClosedIn ts := by
  -- The closing bracket is the last token of the shortest beginning with more closing ones.
  have some : ∃ n, openings (ts.take n) < closings (ts.take n) :=
    ⟨ts.length, by rwa [List.take_length]⟩
  obtain ⟨n, more, least⟩ : ∃ n, openings (ts.take n) < closings (ts.take n) ∧
      ∀ m < n, closings (ts.take m) ≤ openings (ts.take m) :=
    ⟨Nat.find some, Nat.find_spec some, fun m lt => Nat.le_of_not_lt (Nat.find_min some lt)⟩
  cases n with
  | zero => simp at more
  | succ n =>
    have shorter := least n (Nat.lt_succ_self n)
    rw [List.take_add_one, openings_append, closings_append] at more
    cases last : ts[n]? with
    | none =>
      rw [last, Option.toList_none, openings_nil, closings_nil] at more
      omega
    | some c =>
      rw [last, Option.toList_some, openings_cons, closings_cons, openings_nil, closings_nil]
        at more
      by_cases closes : c.lexeme = ")"
      · rw [if_pos closes] at more
        refine ⟨ts.take n, c, ts.drop (n + 1), ?_, ⟨fun m => ?_, by omega⟩, closes⟩
        · obtain ⟨lt, rfl⟩ := List.getElem?_eq_some_iff.1 last
          rw [← List.drop_eq_getElem_cons lt, List.take_append_drop]
        · rw [List.take_take]
          exact least _ (by omega)
      · rw [if_neg closes] at more
        omega

/-- Every bracket that is opened among balanced tokens is closed there. -/
theorem Balanced.closedIn {before behind : List Token} {o : Token}
    (h : Balanced (before ++ o :: behind)) (ho : o.lexeme = "(") : ClosedIn behind := by
  have front := h.beginnings before.length
  have total := h.total
  rw [List.take_left] at front
  rw [openings_append, closings_append, (counts_opening _ ho).1, (counts_opening _ ho).2] at total
  exact closedIn_of_lt (by omega)

/-! ## Phrases -/

section Plain

variable {t : Token}

/-- Only an opening bracket opens a group. -/
theorem isPlain_of_ofLexeme? {o : Opening} (h : Opening.ofLexeme? t.lexeme = some o)
    (ne : o ≠ .group) : IsPlain t := by
  constructor
  · intro opens
    rw [opens] at h
    exact ne (Option.some.inj h).symm
  · intro closes
    have none : Opening.ofLexeme? ")" = none := rfl
    rw [closes, none] at h
    cases h

theorem isPlain_of_symbol {op : BinaryOp} (h : t.lexeme = op.symbol) : IsPlain t := by
  constructor <;> rw [h] <;> cases op <;> decide

theorem isPlain_of_comma (h : t.lexeme = ",") : IsPlain t := by
  constructor <;> rw [h] <;> decide

end Plain

/-- Phrases have balanced brackets. -/
theorem Derives.balanced {leaf n : Nat} {p : Phrase} {ts : List Token} {e : p.Tree Span}
    (h : Derives .places leaf p ts e n) : Balanced ts := by
  have operand {t : Token} {o : Opening} (spelled : o.Spelled t.lexeme) (ne : o ≠ .group) :
      IsPlain t :=
    isPlain_of_ofLexeme? (Opening.ofLexeme?_eq_some_iff.2 spelled) ne
  induction h with
  | number h => exact .cons (operand (o := .value _) (.inr ⟨h, rfl⟩) (by simp)) .nil
  | constant h => exact .cons (operand (o := .value _) (.inl ⟨_, h, rfl⟩) (by simp)) .nil
  | negate h _ ih => exact .cons (operand (o := .negation) h (by simp)) ih
  | group ho _ hc ih => exact .bracketed ho ih hc
  | call hf ho _ hc ih =>
    exact .cons (operand (o := .call _) hf (by simp)) (.bracketed ho ih hc)
  | argument _ ih => exact ih
  | comma _ hk _ ihs ih => exact ihs.append (.cons (isPlain_of_comma hk) ih)
  | base _ ih => exact ih
  | power _ hk _ ihe ihf =>
    have op := BinaryOp.atPrecedence?_eq_some_iff.1 (BinaryOp.eq_circumflex_iff.1 hk)
    exact ihe.append (.cons (isPlain_of_symbol op.1) ihf)
  | factor _ ih => exact ih
  | product _ hk _ ihe ihf =>
    have op := BinaryOp.atPrecedence?_eq_some_iff.1 (BinaryOp.mem_productOperators_iff.1 hk)
    exact ihe.append (.cons (isPlain_of_symbol op.1) ihf)
  | term _ ih => exact ih
  | sum _ hk _ ihe ihf =>
    have op := BinaryOp.atPrecedence?_eq_some_iff.1 (BinaryOp.mem_sumOperators_iff.1 hk)
    exact ihe.append (.cons (isPlain_of_symbol op.1) ihf)

/-! ## Where a bracket is missing -/

/-- The tokens `ts`, up to those left in `rest`, open a bracket at `opening`, with balanced tokens
behind it. It should be closed by the next token and is not. -/
def LeavesOpen (opening : Span) (ts rest : List Token) : Prop :=
  ∃ before o inside, ts = before ++ o :: (inside ++ rest) ∧ o.lexeme = "(" ∧ o.span = opening ∧
    Balanced inside ∧ ∀ c ∈ rest.head?, c.lexeme ≠ ")"

/-- More tokens in front make no difference. -/
theorem LeavesOpen.append_left {opening : Span} {ts rest : List Token}
    (h : LeavesOpen opening ts rest) (front : List Token) :
    LeavesOpen opening (front ++ ts) rest := by
  obtain ⟨before, o, inside, rfl, opens⟩ := h
  exact ⟨front ++ before, o, inside, (List.append_assoc front before _).symm, opens⟩

/-- A reader that misses a closing bracket has read balanced tokens behind the opening one. -/
theorem Refuses.leavesOpen {levels : Nat} {p : Phrase} {ts : List Token} {f : Fault} {opening : Span}
    (h : Refuses levels p ts f) (cause : f.cause = .unterminatedGroup opening) :
    LeavesOpen opening ts f.rest := by
  induction h with
  | deep => cases cause
  | ended => cases cause
  | unexpected _ => cases cause
  | @negate n t ts f _ _ ih => exact (ih cause).append_left [t]
  | @group n t ts f _ _ ih => exact (ih cause).append_left [t]
  | @openGroup n t us rest e m ht derived _ _ open_ =>
    cases cause
    exact ⟨[], t, us, rfl, ht, rfl, derived.balanced, open_⟩
  | noBracket _ _ => cases cause
  | @call n w g o ts f _ _ _ ih => exact (ih cause).append_left [w, o]
  | @openCall n w g o us rest es m _ ho derived _ _ open_ =>
    cases cause
    exact ⟨[w], o, us, rfl, ho, rfl, derived.balanced, open_⟩
  | argument _ ih => exact ih cause
  | @comma n us k ts es m f _ _ _ _ ih => exact ((ih cause).append_left [k]).append_left us
  | base _ ih => exact ih cause
  | @exponent n us k ts e m f _ _ _ _ ih => exact ((ih cause).append_left [k]).append_left us
  | factor _ ih => exact ih cause
  | @product n us k op ts e m f _ _ _ _ ih => exact ((ih cause).append_left [k]).append_left us
  | term _ ih => exact ih cause
  | @sum n us k op ts e m f _ _ _ _ ih => exact ((ih cause).append_left [k]).append_left us

namespace Located

/-- What is parsed has balanced brackets. Where a closing bracket is missing, the error is at the end
or at a token that is none, and the bracket to blame is the last one in front of it that is not
closed there: all brackets that are opened behind it are closed. -/
theorem parse_brackets (ts : List Token) :
    (∀ e, parse ts = .ok e → Balanced ts) ∧
    ∀ err opening, parse ts = .error err → err.cause = .unterminatedGroup opening →
      (∃ before o inside, ts.take err.pos = before ++ o :: inside ∧ o.lexeme = "(" ∧
        o.span = opening ∧ ¬ ClosedIn inside ∧
        ∀ us o' behind, inside = us ++ o' :: behind → o'.lexeme = "(" → ClosedIn behind) ∧
      err.pos ≤ ts.length ∧ ∀ t, ts[err.pos]? = some t → t.lexeme ≠ ")" := by
  constructor
  · intro e parsed
    obtain ⟨n, -, derived⟩ := parseWithin_eq_ok_iff.1 parsed
    exact derived.balanced
  · intro err opening refused cause
    obtain ⟨f, rejected, rfl⟩ := parseWithin_eq_error_iff.1 refused
    cases rejected with
    | trailing _ _ _ => cases cause
    | refused refuses =>
      obtain ⟨before, o, inside, whole, opens, same, balanced, next⟩ := refuses.leavesOpen cause
      have front : ts = (before ++ o :: inside) ++ f.rest := by simp [whole]
      have pos : (f.toError ts).pos = (before ++ o :: inside).length := by
        show ts.length - f.rest.length = _
        rw [front, List.length_append, Nat.add_sub_cancel]
      rw [pos, front]
      refine ⟨⟨before, o, inside, List.take_left, opens, same, balanced.not_closedIn, ?_⟩, ?_, ?_⟩
      · rintro us o' behind rfl opens'
        exact balanced.closedIn opens'
      · exact (List.prefix_append _ f.rest).length_le
      · rw [List.getElem?_append_right (Nat.le_refl _), Nat.sub_self, ← List.head?_eq_getElem?]
        exact next

/-- In `abs((1)2` the bracket of the call is to blame, since the other one is closed. The group alone
is balanced. -/
theorem parse_brackets_call :
    Balanced [⟨"(", ⟨4, 5⟩⟩, ⟨"1", ⟨5, 6⟩⟩, ⟨")", ⟨6, 7⟩⟩] ∧
    ∃ before o inside, before ++ o :: inside = [⟨"abs", ⟨0, 3⟩⟩, ⟨"(", ⟨3, 4⟩⟩, ⟨"(", ⟨4, 5⟩⟩,
        ⟨"1", ⟨5, 6⟩⟩, ⟨")", ⟨6, 7⟩⟩] ∧
      o.lexeme = "(" ∧ o.span = ⟨3, 4⟩ ∧ ¬ ClosedIn inside ∧
      ∀ us o' behind, inside = us ++ o' :: behind → o'.lexeme = "(" → ClosedIn behind := by
  have one : Derives .places 1 .primary [⟨"1", ⟨5, 6⟩⟩] (.number (numberValue "1") ⟨5, 6⟩) 1 :=
    .number (by decide)
  have group : Derives .places 1 .primary [⟨"(", ⟨4, 5⟩⟩, ⟨"1", ⟨5, 6⟩⟩, ⟨")", ⟨6, 7⟩⟩] _ 2 :=
    .group rfl (.term (.factor (.base one))) rfl
  have two : Stops 0 [⟨"2", ⟨7, 8⟩⟩] := .cons_of_ne fun op => by cases op <;> decide
  have rejected : Rejects nestingLimit [⟨"abs", ⟨0, 3⟩⟩, ⟨"(", ⟨3, 4⟩⟩, ⟨"(", ⟨4, 5⟩⟩,
      ⟨"1", ⟨5, 6⟩⟩, ⟨")", ⟨6, 7⟩⟩, ⟨"2", ⟨7, 8⟩⟩]
      ⟨.unterminatedGroup ⟨3, 4⟩, [⟨"2", ⟨7, 8⟩⟩]⟩ :=
    .refused (.term (.factor (.base (.openCall (g := .abs) (by decide) rfl
      (.argument (.term (.factor (.base group)))) (by decide) ⟨two, by simp⟩ (by simp)))))
  have refused := parseWithin_eq_error_iff.2 ⟨_, rejected, rfl⟩
  have parsed : parse [⟨"(", ⟨4, 5⟩⟩, ⟨"1", ⟨5, 6⟩⟩, ⟨")", ⟨6, 7⟩⟩] = .ok _ :=
    parseWithin_of_derives (.term (.factor (.base group))) (by decide)
  obtain ⟨⟨before, o, inside, taken, opens⟩, -⟩ := (parse_brackets _).2 _ ⟨3, 4⟩ refused rfl
  exact ⟨(parse_brackets _).1 _ parsed, before, o, inside, taken.symm, opens⟩

end Located

end Calculator
