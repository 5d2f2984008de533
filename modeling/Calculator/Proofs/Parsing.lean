import Calculator.Proofs.Reading

/-!
# Reading what the grammar derives

What is derived is read, in as many levels as the derivation goes deep and no fewer: `Derives.read`.
With what reading comes to, this says which rows of tokens `Located.parseWithin` accepts, and as
what.
-/

namespace Calculator

open Reader

/-! ## What is derived is read -/

/-- How strongly an operator may bind that is next behind a phrase, for the phrase to end there. -/
def Phrase.bound : Phrase → Nat
  | expression => 1
  | term | factor => 2
  | primary => 3
  | arguments => 0

/-- How a reader goes on that has read a phrase which is itself the beginning of such a phrase. -/
def Depth.resume (d : Depth) : (p : Phrase) → p.Tree Span → List Token →
    Except Fault (p.Tree Span × List Token)
  | .expression, e, ts => resumeLeft .additive (joinedLeft .multiplicative d.power) e ts
  | .term, e, ts => resumeLeft .multiplicative d.power e ts
  | .factor, e, ts | .primary, e, ts => .ok (e, ts)
  | .arguments, es, ts => do
    let (all, rest) ← resumeArguments d.expression es.reverse ts
    return (all.reverse, rest)

/-- A phrase is read in as many levels as it goes deep. With fewer, reading stops inside it. -/
def Read (p : Phrase) (us : List Token) (e : p.Tree Span) (n : Nat) : Prop :=
  ∀ levels rest, Stops p.bound rest → ∃ left, find ((Depth.within levels).reader p) (us ++ rest) =
    if n ≤ levels then (Depth.within levels).resume p e rest else .error ⟨.tooDeep, left ++ rest⟩

/-- Where a phrase ends, its reader does not go on. -/
theorem Depth.resume_eq_ok (d : Depth) {p : Phrase} {e : p.Tree Span} {ts : List Token}
    (ends : p.Ends ts) : d.resume p e ts = .ok (e, ts) := by
  cases p with
  | expression => exact resumeLeft_of_none (Stops.atPrecedence?_eq_none ends (by decide))
  | term => exact resumeLeft_of_none (Stops.atPrecedence?_eq_none ends (by decide))
  | factor => rfl
  | primary => rfl
  | arguments =>
    rw [resume, resumeArguments_of_ne ends.2, ok_bind]
    dsimp only
    rw [List.reverse_reverse]
    rfl

namespace Read

variable {us ts rest : List Token} {e f : Located} {n m : Nat}

/-- A whole phrase is read. -/
theorem find_eq {p : Phrase} {e : p.Tree Span} (h : Read p us e n) (levels : Nat)
    (stops : Stops p.bound rest) (ends : p.Ends rest) :
    ∃ left, find ((Depth.within levels).reader p) (us ++ rest) =
      if n ≤ levels then .ok (e, rest) else .error ⟨.tooDeep, left ++ rest⟩ := by
  obtain ⟨left, read⟩ := h levels rest stops
  rw [Depth.resume_eq_ok _ ends] at read
  exact ⟨left, read⟩

/-- A whole expression is read. -/
theorem find_expression (h : Read .expression us e n) (levels : Nat) (stops : Stops 0 rest) :
    ∃ left, find (Depth.within levels).expression (us ++ rest) =
      if n ≤ levels then .ok (e, rest) else .error ⟨.tooDeep, left ++ rest⟩ :=
  h.find_eq levels (stops.mono (by decide)) stops

/-- A lexeme that is a whole primary is read in one level. -/
theorem value {t : Token} {x : Float} (h : Opening.ofLexeme? t.lexeme = some (.value x)) :
    Read .primary [t] (.number x t.span) 1 := by
  intro levels rest _
  cases levels with
  | zero => exact ⟨[t], rfl⟩
  | succ levels =>
    refine ⟨[], ?_⟩
    rw [if_pos (by omega)]
    exact find_nextOperand_value h

/-- A negation is read in one level more than its operand. -/
theorem negate {t : Token} (h : t.lexeme = "-") (he : Read .primary us e n) :
    Read .primary (t :: us) (.negate e (t.span.join e.note)) (1 + n) := by
  intro levels rest stops
  cases levels with
  | zero => exact ⟨t :: us, by rw [if_neg (by omega)]; rfl⟩
  | succ levels =>
    obtain ⟨left, read⟩ := he levels rest stops
    refine ⟨left, ?_⟩
    show find (Depth.within levels).nextOperand (t :: (us ++ rest)) = _
    change find (Depth.within levels).operand (us ++ rest) = _ at read
    rw [find_nextOperand_negation (Opening.ofLexeme?_eq_some_iff.2 h), read]
    by_cases fits : n ≤ levels
    · rw [if_pos fits, if_pos (by omega)]
      rfl
    · rw [if_neg fits, if_neg (by omega)]
      rfl

/-- A group is read in one level more than the expression in it. -/
theorem group {o c : Token} (ho : o.lexeme = "(") (he : Read .expression us e n)
    (hc : c.lexeme = ")") :
    Read .primary (o :: (us ++ [c])) (e.withNote (o.span.join c.span)) (1 + n) := by
  intro levels rest stops
  cases levels with
  | zero => exact ⟨o :: (us ++ [c]), by rw [if_neg (by omega)]; rfl⟩
  | succ levels =>
    have stopsClose : Stops 0 (c :: rest) := stops_close hc
    obtain ⟨left, read⟩ := he.find_expression levels stopsClose
    refine ⟨left ++ [c], ?_⟩
    rw [List.cons_append, List.append_assoc, List.append_assoc, List.singleton_append]
    show find (Depth.within levels).nextOperand (o :: (us ++ c :: rest)) = _
    rw [find_nextOperand_group (Opening.ofLexeme?_eq_some_iff.2 ho), read]
    by_cases fits : n ≤ levels
    · rw [if_pos fits, if_pos (by omega), ok_bind]
      dsimp only
      rw [find_closingBracket hc]
      rfl
    · rw [if_neg fits, if_neg (by omega)]
      rfl

/-- A call is read in one level more than its arguments. -/
theorem call {w o c : Token} {g : Builtin} {es : List Located}
    (hw : Builtin.ofName? w.lexeme = some g) (ho : o.lexeme = "(") (hes : Read .arguments us es n)
    (hc : c.lexeme = ")") :
    Read .primary (w :: o :: (us ++ [c])) (.call w.lexeme w.span es (w.span.join c.span))
      (1 + n) := by
  intro levels rest stops
  cases levels with
  | zero => exact ⟨w :: o :: (us ++ [c]), by rw [if_neg (by omega)]; rfl⟩
  | succ levels =>
    -- The closing bracket ends the arguments, since it is neither an operator nor a comma.
    have noComma : ∀ t ∈ (c :: rest).head?, t.lexeme ≠ "," := by
      intro t ht
      cases ht
      rw [hc]
      decide
    have stopsClose : Stops 0 (c :: rest) := stops_close hc
    obtain ⟨left, read⟩ := hes.find_eq levels stopsClose ⟨stopsClose, noComma⟩
    refine ⟨left ++ [c], ?_⟩
    rw [List.cons_append, List.cons_append, List.append_assoc, List.append_assoc,
      List.singleton_append]
    show find (Depth.within levels).nextOperand (w :: o :: (us ++ c :: rest)) = _
    change find (Calculator.arguments (Depth.within levels).expression) (us ++ c :: rest) = _
      at read
    rw [find_nextOperand_call (Opening.ofLexeme?_eq_some_iff.2 hw), find_callOf ho, read]
    by_cases fits : n ≤ levels
    · rw [if_pos fits, if_pos (by omega), ok_bind]
      dsimp only
      rw [find_closingBracket hc]
      rfl
    · rw [if_neg fits, if_neg (by omega)]
      rfl

/-- An operand is a power where no `^` follows. -/
theorem base (he : Read .primary us e n) (pos : 0 < n) : Read .factor us e n := by
  intro levels rest stops
  cases levels with
  | zero => exact ⟨us, by rw [if_neg (by omega)]; rfl⟩
  | succ levels =>
    obtain ⟨left, read⟩ := he (levels + 1) rest (stops.mono (by decide))
    refine ⟨left, ?_⟩
    show find (Depth.within levels).nextPower (us ++ rest) = _
    change find (Depth.within levels).nextOperand (us ++ rest) = _ at read
    rw [find_nextPower, read]
    by_cases fits : n ≤ levels + 1
    · rw [if_pos fits, if_pos fits]
      exact resumePower_of_ne (stops.ne_circumflex (by decide))
    · rw [if_neg fits, if_neg fits]
      rfl

/-- A power is read in the levels of its operand, and in one more than its exponent. -/
theorem power {k : Token} {vs : List Token} (he : Read .primary us e n) (hk : k.lexeme = "^")
    (hf : Read .factor vs f m) :
    Read .factor (us ++ k :: vs) (.binary .pow e f (e.note.join f.note)) (max n (1 + m)) := by
  intro levels rest stops
  cases levels with
  | zero => exact ⟨us ++ k :: vs, by rw [if_neg (by omega)]; rfl⟩
  | succ levels =>
    -- Nothing that follows can belong to the operand, and `rest` is what follows the exponent.
    have anything : Stops 3 (k :: (vs ++ rest)) :=
      Stops.cons_operator (p := .exponent) (BinaryOp.eq_circumflex_iff.1 hk)
    obtain ⟨left, read⟩ := he (levels + 1) (k :: (vs ++ rest)) anything
    obtain ⟨leftExponent, readExponent⟩ := hf levels rest stops
    rw [List.append_assoc, List.cons_append]
    show ∃ left, find (Depth.within levels).nextPower (us ++ k :: (vs ++ rest)) = _
    change find (Depth.within levels).nextOperand (us ++ k :: (vs ++ rest)) = _ at read
    change find (Depth.within levels).power (vs ++ rest) = _ at readExponent
    rw [find_nextPower, read]
    by_cases fits : n ≤ levels + 1
    · rw [if_pos fits]
      show ∃ left, resumePower (Depth.within levels).power e (k :: (vs ++ rest)) = _
      rw [resumePower_cons hk, readExponent]
      by_cases fitsExponent : m ≤ levels
      · exact ⟨[], by rw [if_pos fitsExponent, if_pos (by omega)]; rfl⟩
      · exact ⟨leftExponent, by rw [if_neg fitsExponent, if_neg (by omega)]; rfl⟩
    · exact ⟨left ++ k :: vs, by rw [if_neg fits, if_neg (by omega), List.append_assoc]; rfl⟩

/-- A power is a term that may go on. -/
theorem factor (he : Read .factor us e n) : Read .term us e n := by
  intro levels rest stops
  obtain ⟨left, read⟩ := he levels rest stops
  refine ⟨left, ?_⟩
  show find (joinedLeft .multiplicative (Depth.within levels).power) (us ++ rest) = _
  change find (Depth.within levels).power (us ++ rest) = _ at read
  rw [find_joinedLeft, read]
  split <;> rfl

/-- A phrase that is read and may go on does go on with an operator and an operand. -/
theorem resumeLeft {p : Precedence} {operand : Reader Located} {levels : Nat} {k : Token}
    {vs left : List Token} {op : BinaryOp} (hk : BinaryOp.atPrecedence? p k.lexeme = some op)
    (hf : ∃ left, find operand (vs ++ rest) =
      if m ≤ levels then .ok (f, rest) else .error ⟨.tooDeep, left ++ rest⟩) :
    ∃ left', (if n ≤ levels then resumeLeft p operand e (k :: (vs ++ rest))
        else .error ⟨.tooDeep, left ++ k :: (vs ++ rest)⟩) =
      if max n m ≤ levels then
        Calculator.resumeLeft p operand (.binary op e f (e.note.join f.note)) rest
      else .error ⟨.tooDeep, left' ++ rest⟩ := by
  -- Too few levels may have shown in what was read before, or show in the operand.
  rcases hf with ⟨leftOperand, readOperand⟩
  by_cases fits : n ≤ levels
  · rw [if_pos fits, resumeLeft_cons hk, readOperand]
    by_cases fitsOperand : m ≤ levels
    · exact ⟨[], by rw [if_pos fitsOperand, if_pos (by omega)]; rfl⟩
    · exact ⟨leftOperand, by rw [if_neg fitsOperand, if_neg (by omega)]; rfl⟩
  · exact ⟨left ++ k :: vs, by rw [if_neg fits, if_neg (by omega), List.append_assoc]; rfl⟩

/-- A term goes on with an operator and a power. -/
theorem product {k : Token} {vs : List Token} {op : BinaryOp} (he : Read .term us e n)
    (hk : BinaryOp.atPrecedence? .multiplicative k.lexeme = some op) (hf : Read .factor vs f m) :
    Read .term (us ++ k :: vs) (.binary op e f (e.note.join f.note)) (max n m) := by
  intro levels rest stops
  obtain ⟨left, read⟩ := he levels (k :: (vs ++ rest)) (Stops.cons_operator hk)
  rw [List.append_assoc, List.cons_append, read]
  exact resumeLeft hk (hf levels rest stops)

/-- A term is an expression that may go on. -/
theorem term (he : Read .term us e n) : Read .expression us e n := by
  intro levels rest stops
  obtain ⟨left, read⟩ := he.find_eq levels (stops.mono (by decide)) stops
  refine ⟨left, ?_⟩
  show find (Depth.within levels).expression (us ++ rest) = _
  change find (joinedLeft .multiplicative (Depth.within levels).power) (us ++ rest) = _ at read
  rw [Depth.expression, find_joinedLeft, read]
  split <;> rfl

/-- An expression goes on with an operator and a term. -/
theorem sum {k : Token} {vs : List Token} {op : BinaryOp} (he : Read .expression us e n)
    (hk : BinaryOp.atPrecedence? .additive k.lexeme = some op) (hf : Read .term vs f m) :
    Read .expression (us ++ k :: vs) (.binary op e f (e.note.join f.note)) (max n m) := by
  intro levels rest stops
  obtain ⟨left, read⟩ := he levels (k :: (vs ++ rest)) (Stops.cons_operator hk)
  rw [List.append_assoc, List.cons_append, read]
  exact resumeLeft hk (hf.find_eq levels (stops.mono (by decide)) stops)

/-- An expression is an argument, and more may follow. -/
theorem argument (he : Read .expression us e n) : Read .arguments us [e] n := by
  intro levels rest stops
  obtain ⟨left, read⟩ := he.find_expression levels stops
  refine ⟨left, ?_⟩
  show find (Calculator.arguments (Depth.within levels).expression) (us ++ rest) = _
  rw [Calculator.find_arguments, read]
  split <;> rfl

/-- Arguments go on with a comma and an expression. -/
theorem comma {k : Token} {vs : List Token} {es : List Located} (hes : Read .arguments us es n)
    (hk : k.lexeme = ",") (he : Read .expression vs e m) :
    Read .arguments (us ++ k :: vs) (es ++ [e]) (max n m) := by
  intro levels rest stops
  obtain ⟨left, read⟩ := hes levels (k :: (vs ++ rest)) (stops_comma hk)
  obtain ⟨leftLast, readLast⟩ := he.find_expression levels stops
  rw [List.append_assoc, List.cons_append, read]
  by_cases fits : n ≤ levels
  · rw [if_pos fits, Depth.resume, resumeArguments_cons hk, readLast, Depth.resume,
      List.reverse_append, List.reverse_singleton, List.singleton_append]
    by_cases fitsLast : m ≤ levels
    · exact ⟨[], by rw [if_pos fitsLast, if_pos (by omega)]; rfl⟩
    · exact ⟨leftLast, by rw [if_neg fitsLast, if_neg (by omega)]; rfl⟩
  · exact ⟨left ++ k :: vs, by rw [if_neg fits, if_neg (by omega), List.append_assoc]; rfl⟩

end Read

namespace Derives

/-- Everything that is derived goes at least one level deep. -/
theorem pos {τ α : Type} {M : Marking τ α} {p : Phrase} {ts : List τ} {e : p.Tree α} {n : Nat}
    (h : Derives M 1 p ts e n) : 0 < n := by
  induction h <;> omega

/-- What is derived is read. -/
theorem read {p : Phrase} {us : List Token} {e : p.Tree Span} {n : Nat}
    (h : Derives .places 1 p us e n) : Read p us e n := by
  induction h with
  | number h => exact .value (Opening.ofLexeme?_eq_some_iff.2 (.inr ⟨h, rfl⟩))
  | constant h => exact .value (Opening.ofLexeme?_eq_some_iff.2 (.inl ⟨_, h, rfl⟩))
  | negate h _ ih => exact ih.negate h
  | group ho _ hc ih => exact ih.group ho hc
  | call hw ho _ hc ih => exact ih.call hw ho hc
  | argument _ ih => exact ih.argument
  | comma _ hk _ ihs ih => exact ihs.comma hk ih
  | base h ih => exact ih.base h.pos
  | power _ hk _ ihe ihf => exact ihe.power hk ihf
  | factor _ ih => exact ih.factor
  | product _ hk _ ihe ihf => exact ihe.product (BinaryOp.mem_productOperators_iff.1 hk) ihf
  | term _ ih => exact ih.term
  | sum _ hk _ ihe ihf => exact ihe.sum (BinaryOp.mem_sumOperators_iff.1 hk) ihf

end Derives

/-! ## Rows of tokens -/

namespace Located

variable {ts : List Token} {e : Located} {n levels : Nat}

/-- What a row of tokens is parsed as is a matter of what is found at its front. -/
theorem parseWithin_eq_find (levels : Nat) (ts : List Token) :
    parseWithin levels ts = match find (Depth.within levels).expression ts with
      | .error f => .error (f.toError ts)
      | .ok (e, []) => .ok e
      | .ok (_, t :: rest) =>
        .error (Fault.toError ts ⟨.unexpectedToken t .continuation, t :: rest⟩) := by
  unfold parseWithin find
  cases (Depth.within levels).expression ts with
  | error f => rfl
  | ok read =>
    rcases read with ⟨e, rest, shorter⟩
    cases rest <;> rfl

/-- All tokens have to be read. -/
theorem parseWithin_eq_ok_iff_find :
    parseWithin levels ts = .ok e ↔ find (Depth.within levels).expression ts = .ok (e, []) := by
  rw [parseWithin_eq_find]
  split <;> rename_i read <;> simp [read]

/-- A row of tokens is parsed as what it derives, if that does not go too deep. -/
theorem parseWithin_of_derives (h : Derives .places 1 .expression ts e n) (fits : n ≤ levels) :
    parseWithin levels ts = .ok e := by
  obtain ⟨left, read⟩ := h.read.find_expression levels Stops.nil
  rw [List.append_nil, if_pos fits] at read
  exact parseWithin_eq_ok_iff_find.2 read

/-- A row of tokens that derives something too deep is refused for that. -/
theorem parseWithin_of_derives_of_lt (h : Derives .places 1 .expression ts e n)
    (deep : levels < n) : ∃ err, parseWithin levels ts = .error err ∧ err.cause = .tooDeep := by
  obtain ⟨left, read⟩ := h.read.find_expression levels Stops.nil
  rw [List.append_nil, if_neg (by omega)] at read
  rw [parseWithin_eq_find, read]
  exact ⟨_, rfl, rfl⟩

/-- The rows of tokens that are parsed, and as what. -/
theorem parseWithin_eq_ok_iff :
    parseWithin levels ts = .ok e ↔ ∃ n ≤ levels, Derives .places 1 .expression ts e n := by
  constructor
  · intro h
    -- What is read is derived from tokens in front, and here none are left behind these.
    have comes := Depth.comes_expression levels ts
    rw [parseWithin_eq_ok_iff_find.1 h] at comes
    rcases comes with ⟨us, n, rfl, hn, derived, -⟩
    rw [List.append_nil]
    exact ⟨n, hn, derived⟩
  · intro h
    rcases h with ⟨n, hn, derived⟩
    exact parseWithin_of_derives derived hn

/-- The tokens that are parsed are, by their lexemes, the expressions of the grammar that go at most
64 levels deep, and the tree is what the grammar says they denote. -/
theorem exists_parse_eq_ok_iff_derives (ts : List Token) (e : Expr Unit) :
    (∃ t, parse ts = .ok t ∧ t.bare = e) ↔
      ∃ n ≤ 64, Derives .bare 1 .expression (ts.map Token.lexeme) e n := by
  constructor
  · intro h
    rcases h with ⟨t, parsed, rfl⟩
    obtain ⟨n, hn, derived⟩ := parseWithin_eq_ok_iff.1 parsed
    exact ⟨n, hn, derived.map Marking.carries_bare⟩
  · intro h
    rcases h with ⟨n, hn, derived⟩
    obtain ⟨t, derivedAt, same⟩ := derived.lift Marking.carries_bare rfl
    exact ⟨t, parseWithin_of_derives derivedAt hn, same⟩

end Located

end Calculator
