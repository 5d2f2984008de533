import Calculator.Proofs.Parsing

/-!
# The first token to blame

A reader that is refused has taken tokens that others can complete to a phrase:
`Refuses.completable`. Unless it was refused for want of levels, it would have been so by the same
token whatever stood behind that, and with any more levels: `Refuses.steady`. And as `Refuses` lists
just the ways in which reading fails (`Refuses.find_eq`), no sentence begins with the tokens up to
the one to blame.
-/

namespace Calculator

open Reader

/-! ## What a refusal says of the tokens in front of it -/

/-- How a cause fits the tokens that were taken and those that are left. -/
def SyntaxCause.Fits : SyntaxCause → (taken left : List Token) → Prop
  | unexpectedToken t _, _, left => left.head? = some t
  | endOfInput, _, left => left = []
  | unterminatedGroup opening, taken, left =>
    (∃ o ∈ taken, o.lexeme = "(" ∧ o.span = opening) ∧ ∀ c ∈ left.head?, c.lexeme ≠ ")"
  | expectedCallBracket w, taken, left =>
    taken.getLast? = some w ∧ (∃ g, Builtin.ofName? w.lexeme = some g) ∧
      ∀ o ∈ left.head?, o.lexeme ≠ "("
  | tooDeep, _, _ => True

/-- More tokens in front make no difference. -/
theorem SyntaxCause.Fits.append_left {c : SyntaxCause} {taken left : List Token}
    (h : c.Fits taken left) (before : List Token) : c.Fits (before ++ taken) left := by
  cases c with
  | unexpectedToken t expected => exact h
  | endOfInput => exact h
  | unterminatedGroup opening =>
    obtain ⟨⟨o, ho, spelled, same⟩, next⟩ := h
    exact ⟨⟨o, List.mem_append_right before ho, spelled, same⟩, next⟩
  | expectedCallBracket w =>
    obtain ⟨last, named, next⟩ := h
    exact ⟨by rw [List.getLast?_append, last, Option.some_or], named, next⟩
  | tooDeep => trivial

/-- A token that can stand anywhere. -/
def Token.unplaced (lexeme : String) : Token :=
  ⟨lexeme, ⟨0, 1⟩⟩

/-- The number one is a primary. -/
theorem derives_one :
    Derives .places 1 .primary [.unplaced "1"] (.number (numberValue "1") ⟨0, 1⟩) 1 :=
  .number (by decide)

/-- The tokens in front of those that are left fit the cause, and others complete them to a phrase. -/
def Completable (p : Phrase) (ts : List Token) (f : Fault) : Prop :=
  ∃ us, ts = us ++ f.rest ∧ f.cause.Fits us f.rest ∧
    ∃ more e n, Derives .places 1 p (us ++ more) e n

/-- More tokens in front are completed with the others. -/
theorem Completable.append_left {p : Phrase} {us more : List Token} {f : Fault} {e : p.Tree Span}
    {n : Nat} (before : List Token) (fits : f.cause.Fits us f.rest)
    (h : Derives .places 1 p (before ++ (us ++ more)) e n) :
    Completable p (before ++ (us ++ f.rest)) f :=
  ⟨before ++ us, (List.append_assoc before us _).symm, fits.append_left before, more, e, n,
    by rwa [List.append_assoc]⟩

/-- Tokens that were taken before a refusal can be completed. -/
theorem Refuses.completable {levels : Nat} {p : Phrase} {ts : List Token} {f : Fault}
    (h : Refuses levels p ts f) : Completable p ts f := by
  -- A one stands for an operand that is missing, and brackets are closed behind what is in them.
  let close : Token := .unplaced ")"
  induction h with
  | deep => exact ⟨[], rfl, trivial, _, _, _, derives_one⟩
  | ended => exact ⟨[], rfl, rfl, _, _, _, derives_one⟩
  | unexpected _ => exact ⟨[], rfl, rfl, _, _, _, derives_one⟩
  | @negate n t ts f ht _ ih =>
    obtain ⟨us, rfl, fits, more, e, n, derived⟩ := ih
    exact .append_left [t] fits (.negate ht derived)
  | @group n t ts f ht _ ih =>
    obtain ⟨us, rfl, fits, more, e, n, derived⟩ := ih
    have whole := Derives.group (c := close) ht derived rfl
    rw [List.append_assoc] at whole
    exact .append_left [t] fits whole
  | @openGroup n t us rest e m ht derived _ _ open_ =>
    exact ⟨t :: us, rfl, ⟨⟨t, List.mem_cons_self, ht, rfl⟩, open_⟩, _, _, _,
      .group (c := close) ht derived rfl⟩
  | @noBracket n w g rest hw next =>
    have one : Derives .places 1 .arguments _ _ 1 := .argument (.term (.factor (.base derives_one)))
    exact ⟨[w], rfl, ⟨rfl, ⟨g, hw⟩, next⟩, _, _, _,
      .call (o := .unplaced "(") (c := close) hw rfl one rfl⟩
  | @call n w g o ts f hw ho _ ih =>
    obtain ⟨us, rfl, fits, more, es, n, derived⟩ := ih
    have whole := Derives.call (c := close) hw ho derived rfl
    rw [List.append_assoc] at whole
    exact .append_left [w, o] fits whole
  | @openCall n w g o us rest es m hw ho derived _ _ open_ =>
    exact ⟨w :: o :: us, rfl, ⟨⟨o, by simp, ho, rfl⟩, open_⟩, _, _, _,
      .call (c := close) hw ho derived rfl⟩
  | argument _ ih =>
    obtain ⟨us, rfl, fits, more, e, n, derived⟩ := ih
    exact ⟨us, rfl, fits, more, _, _, .argument derived⟩
  | @comma n us k ts es m f hes _ hk _ ih =>
    obtain ⟨vs, rfl, fits, more, e, l, derived⟩ := ih
    exact .append_left us (fits.append_left [k]) (.comma hes hk derived)
  | base _ ih =>
    obtain ⟨us, rfl, fits, more, e, n, derived⟩ := ih
    exact ⟨us, rfl, fits, more, _, _, .base derived⟩
  | @exponent n us k ts e m f he _ hk _ ih =>
    obtain ⟨vs, rfl, fits, more, e, l, derived⟩ := ih
    exact .append_left us (fits.append_left [k]) (.power he hk derived)
  | factor _ ih =>
    obtain ⟨us, rfl, fits, more, e, n, derived⟩ := ih
    exact ⟨us, rfl, fits, more, _, _, .factor derived⟩
  | @product n us k op ts e m f he _ hk _ ih =>
    obtain ⟨vs, rfl, fits, more, e, l, derived⟩ := ih
    exact .append_left us (fits.append_left [k]) (.product he hk derived)
  | term _ ih =>
    obtain ⟨us, rfl, fits, more, e, n, derived⟩ := ih
    exact ⟨us, rfl, fits, more, _, _, .term derived⟩
  | @sum n us k op ts e m f he _ hk _ ih =>
    obtain ⟨vs, rfl, fits, more, e, l, derived⟩ := ih
    exact .append_left us (fits.append_left [k]) (.sum he hk derived)

/-! ## What a refusal depends on -/

theorem Phrase.Ends.of_head {p : Phrase} {ts us : List Token} (h : p.Ends ts)
    (same : us.head? = ts.head?) : p.Ends us := by
  cases p <;> simp only [Ends, Stops, same] at h ⊢ <;> exact h

/-- Nothing behind the first token that is left matters for a refusal, and more levels do not help,
unless they are what it is for. -/
theorem Refuses.steady {levels : Nat} {p : Phrase} {ts : List Token} {f : Fault}
    (h : Refuses levels p ts f) (shallow : f.cause ≠ .tooDeep) :
    ∃ us, ts = us ++ f.rest ∧ ∀ more ≥ levels, ∀ rest, rest.head? = f.rest.head? →
      Refuses more p (us ++ rest) ⟨f.cause, rest⟩ := by
  -- Where a level is opened, the levels inside are one fewer also when there are more of them.
  have pred {n more : Nat} (le : more ≥ n + 1) : ∃ m ≥ n, more = m + 1 :=
    ⟨more - 1, by omega, by omega⟩
  induction h with
  | deep => exact absurd rfl shallow
  | ended =>
    refine ⟨[], rfl, fun more le rest same => ?_⟩
    obtain ⟨m, -, rfl⟩ := pred le
    obtain rfl := List.head?_eq_none_iff.1 same
    exact .ended
  | unexpected ht =>
    refine ⟨[], rfl, fun more le rest same => ?_⟩
    obtain ⟨m, -, rfl⟩ := pred le
    obtain ⟨behind, rfl⟩ := List.head?_eq_some_iff.1 same
    exact .unexpected ht
  | @negate n t ts f ht _ ih =>
    obtain ⟨us, rfl, inner⟩ := ih shallow
    refine ⟨t :: us, rfl, fun more le rest same => ?_⟩
    obtain ⟨m, hm, rfl⟩ := pred le
    exact .negate ht (inner m hm rest same)
  | @group n t ts f ht _ ih =>
    obtain ⟨us, rfl, inner⟩ := ih shallow
    refine ⟨t :: us, rfl, fun more le rest same => ?_⟩
    obtain ⟨m, hm, rfl⟩ := pred le
    exact .group ht (inner m hm rest same)
  | @openGroup n t us rest e k ht derived hk ends open_ =>
    refine ⟨t :: us, rfl, fun more le rest' same => ?_⟩
    obtain ⟨m, hm, rfl⟩ := pred le
    exact .openGroup ht derived (Nat.le_trans hk hm) (ends.of_head same) (same ▸ open_)
  | @noBracket n w g rest hw next =>
    refine ⟨[w], rfl, fun more le rest' same => ?_⟩
    obtain ⟨m, -, rfl⟩ := pred le
    exact .noBracket hw (same ▸ next)
  | @call n w g o ts f hw ho _ ih =>
    obtain ⟨us, rfl, inner⟩ := ih shallow
    refine ⟨w :: o :: us, rfl, fun more le rest same => ?_⟩
    obtain ⟨m, hm, rfl⟩ := pred le
    exact .call hw ho (inner m hm rest same)
  | @openCall n w g o us rest es k hw ho derived hk ends open_ =>
    refine ⟨w :: o :: us, rfl, fun more le rest' same => ?_⟩
    obtain ⟨m, hm, rfl⟩ := pred le
    exact .openCall hw ho derived (Nat.le_trans hk hm) (ends.of_head same) (same ▸ open_)
  | argument _ ih =>
    obtain ⟨us, rfl, inner⟩ := ih shallow
    exact ⟨us, rfl, fun more le rest same => .argument (inner more le rest same)⟩
  | @comma n us k ts es m f hes hm hk _ ih =>
    obtain ⟨vs, rfl, inner⟩ := ih shallow
    refine ⟨us ++ k :: vs, by simp, fun more le rest same => ?_⟩
    rw [List.append_assoc]
    exact .comma hes (Nat.le_trans hm le) hk (inner more le rest same)
  | base _ ih =>
    obtain ⟨us, rfl, inner⟩ := ih shallow
    exact ⟨us, rfl, fun more le rest same => .base (inner more le rest same)⟩
  | @exponent n us k ts e m f he hm hk _ ih =>
    obtain ⟨vs, rfl, inner⟩ := ih shallow
    refine ⟨us ++ k :: vs, by simp, fun more le rest same => ?_⟩
    obtain ⟨l, hl, rfl⟩ := pred le
    rw [List.append_assoc]
    exact .exponent he (Nat.le_trans hm le) hk (inner l hl rest same)
  | factor _ ih =>
    obtain ⟨us, rfl, inner⟩ := ih shallow
    exact ⟨us, rfl, fun more le rest same => .factor (inner more le rest same)⟩
  | @product n us k op ts e m f he hm hk _ ih =>
    obtain ⟨vs, rfl, inner⟩ := ih shallow
    refine ⟨us ++ k :: vs, by simp, fun more le rest same => ?_⟩
    rw [List.append_assoc]
    exact .product he (Nat.le_trans hm le) hk (inner more le rest same)
  | term _ ih =>
    obtain ⟨us, rfl, inner⟩ := ih shallow
    exact ⟨us, rfl, fun more le rest same => .term (inner more le rest same)⟩
  | @sum n us k op ts e m f he hm hk _ ih =>
    obtain ⟨vs, rfl, inner⟩ := ih shallow
    refine ⟨us ++ k :: vs, by simp, fun more le rest same => ?_⟩
    rw [List.append_assoc]
    exact .sum he (Nat.le_trans hm le) hk (inner more le rest same)

/-! ## What is refused is not read -/

/-- Where a phrase is refused, its reader stops. -/
theorem Refuses.find_eq {levels : Nat} {p : Phrase} {ts : List Token} {f : Fault}
    (h : Refuses levels p ts f) : find ((Depth.within levels).reader p) ts = .error f := by
  induction h with
  | deep => rfl
  | ended => rfl
  | unexpected ht => exact find_nextOperand_none ht
  | @negate n t ts f ht _ ih =>
    change find (Depth.within n).operand ts = _ at ih
    show find (Depth.within n).nextOperand (t :: ts) = _
    rw [find_nextOperand_negation (Opening.ofLexeme?_eq_some_iff.2 ht), ih]
    rfl
  | @group n t ts f ht _ ih =>
    change find (Depth.within n).expression ts = _ at ih
    show find (Depth.within n).nextOperand (t :: ts) = _
    rw [find_nextOperand_group (Opening.ofLexeme?_eq_some_iff.2 ht), ih]
    rfl
  | @openGroup n t us rest e m ht derived hm ends open_ =>
    obtain ⟨left, read⟩ := derived.read.find_expression n ends
    show find (Depth.within n).nextOperand (t :: (us ++ rest)) = _
    rw [find_nextOperand_group (Opening.ofLexeme?_eq_some_iff.2 ht), read, if_pos hm, ok_bind]
    dsimp only
    rw [find_closingBracket_of_ne open_]
    rfl
  | @noBracket n w g rest hw next =>
    show find (Depth.within n).nextOperand (w :: rest) = _
    rw [find_nextOperand_call (Opening.ofLexeme?_eq_some_iff.2 hw), find_callOf_of_ne next]
  | @call n w g o ts f hw ho _ ih =>
    change find (arguments (Depth.within n).expression) ts = _ at ih
    show find (Depth.within n).nextOperand (w :: o :: ts) = _
    rw [find_nextOperand_call (Opening.ofLexeme?_eq_some_iff.2 hw), find_callOf ho, ih]
    rfl
  | @openCall n w g o us rest es m hw ho derived hm ends open_ =>
    obtain ⟨left, read⟩ := derived.read.find_eq n ends.1 ends
    change find (arguments (Depth.within n).expression) (us ++ rest) = _ at read
    show find (Depth.within n).nextOperand (w :: o :: (us ++ rest)) = _
    rw [find_nextOperand_call (Opening.ofLexeme?_eq_some_iff.2 hw), find_callOf ho, read,
      if_pos hm, ok_bind]
    dsimp only
    rw [find_closingBracket_of_ne open_]
    rfl
  | @argument n ts f _ ih =>
    change find (Depth.within n).expression ts = _ at ih
    show find (arguments (Depth.within n).expression) ts = _
    rw [find_arguments, ih]
    rfl
  | @comma n us k ts es m f hes hm hk _ ih =>
    change find (Depth.within n).expression ts = _ at ih
    obtain ⟨left, read⟩ := hes.read n (k :: ts) (stops_comma hk)
    rw [read, if_pos hm, Depth.resume, resumeArguments_cons hk, ih]
    rfl
  | @base n ts f refused ih =>
    cases n with
    | zero => exact ih
    | succ n =>
      change find (Depth.within n).nextOperand ts = _ at ih
      show find (Depth.within n).nextPower ts = _
      rw [find_nextPower, ih]
      rfl
  | @exponent n us k ts e m f he hm hk _ ih =>
    have stops : Stops 3 (k :: ts) :=
      Stops.cons_operator (p := .exponent) (BinaryOp.eq_circumflex_iff.1 hk)
    obtain ⟨left, read⟩ := he.read (n + 1) (k :: ts) stops
    change find (Depth.within n).nextOperand (us ++ k :: ts) = _ at read
    change find (Depth.within n).power ts = _ at ih
    show find (Depth.within n).nextPower (us ++ k :: ts) = _
    rw [find_nextPower, read, if_pos hm]
    show resumePower (Depth.within n).power e (k :: ts) = _
    rw [resumePower_cons hk, ih]
    rfl
  | @factor n ts f _ ih =>
    change find (Depth.within n).power ts = _ at ih
    show find (joinedLeft .multiplicative (Depth.within n).power) ts = _
    rw [find_joinedLeft, ih]
    rfl
  | @product n us k op ts e m f he hm hk _ ih =>
    change find (Depth.within n).power ts = _ at ih
    have next := BinaryOp.mem_productOperators_iff.1 hk
    obtain ⟨left, read⟩ := he.read n (k :: ts) (Stops.cons_operator next)
    rw [read, if_pos hm, Depth.resume, resumeLeft_cons next, ih]
    rfl
  | @term n ts f _ ih =>
    change find (joinedLeft .multiplicative (Depth.within n).power) ts = _ at ih
    show find (joinedLeft .additive (joinedLeft .multiplicative (Depth.within n).power)) ts = _
    rw [find_joinedLeft, ih]
    rfl
  | @sum n us k op ts e m f he hm hk _ ih =>
    change find (joinedLeft .multiplicative (Depth.within n).power) ts = _ at ih
    have next := BinaryOp.mem_sumOperators_iff.1 hk
    obtain ⟨left, read⟩ := he.read n (k :: ts) (Stops.cons_operator next)
    rw [read, if_pos hm, Depth.resume, resumeLeft_cons next, ih]
    rfl

/-! ## Rows of tokens -/

/-- In `levels` levels, a row of tokens is no expression: either it does not begin with one, or more
tokens follow where one ends. -/
inductive Rejects (levels : Nat) : List Token → Fault → Prop
  | refused {ts f} : Refuses levels .expression ts f → Rejects levels ts f
  | trailing {us t rest e n} : Derives .places 1 .expression us e n → n ≤ levels →
      Stops 0 (t :: rest) →
      Rejects levels (us ++ t :: rest) ⟨.unexpectedToken t .continuation, t :: rest⟩

namespace Rejects

variable {levels : Nat} {ts : List Token} {f : Fault}

/-- Tokens in front of the one to blame can be completed to an expression. -/
theorem completable (h : Rejects levels ts f) : Completable .expression ts f := by
  cases h with
  | refused refused => exact refused.completable
  | @trailing us t rest e n derived _ _ =>
    exact ⟨us, rfl, rfl, [], e, n, by rwa [List.append_nil]⟩

/-- A row of tokens is rejected for the first one to blame, whatever follows. -/
theorem steady (h : Rejects levels ts f) (shallow : f.cause ≠ .tooDeep) :
    ∃ us, ts = us ++ f.rest ∧ ∀ more ≥ levels, ∀ rest, rest.head? = f.rest.head? →
      Rejects more (us ++ rest) ⟨f.cause, rest⟩ := by
  cases h with
  | refused refused =>
    obtain ⟨us, whole, inner⟩ := refused.steady shallow
    exact ⟨us, whole, fun more le rest same => .refused (inner more le rest same)⟩
  | @trailing us t rest e n derived hn stops =>
    refine ⟨us, rfl, fun more le rest' same => ?_⟩
    obtain ⟨behind, rfl⟩ := List.head?_eq_some_iff.1 same
    exact .trailing derived (Nat.le_trans hn le) stops

end Rejects

/-- A row of tokens that is an expression of the grammar, at any depth. -/
def IsSentence (lexemes : List String) : Prop :=
  ∃ e n, Derives .bare 1 .expression lexemes e n

/-- Lexemes that others can complete to an expression of the grammar. -/
def IsBeginning (lexemes : List String) : Prop :=
  ∃ more, IsSentence (lexemes ++ more)

theorem IsBeginning.of_append {ls more : List String} (h : IsBeginning (ls ++ more)) :
    IsBeginning ls := by
  obtain ⟨behind, sentence⟩ := h
  exact ⟨more ++ behind, by rwa [← List.append_assoc]⟩

namespace Located

variable {levels : Nat} {ts us rest : List Token} {err : SyntaxError} {f : Fault}

/-- The rows of tokens that are not parsed, and why. -/
theorem parseWithin_eq_error_iff :
    parseWithin levels ts = .error err ↔ ∃ f, Rejects levels ts f ∧ err = f.toError ts := by
  rw [parseWithin_eq_find]
  constructor
  · intro h
    have comes := Depth.comes_expression levels ts
    split at h
    · rename_i f stopped
      rw [stopped] at comes
      cases h
      exact ⟨f, .refused comes, rfl⟩
    · cases h
    · rename_i e t rest found
      rw [found] at comes
      obtain ⟨us, n, rfl, hn, derived, stops⟩ := comes
      cases h
      exact ⟨_, .trailing derived hn stops, rfl⟩
  · intro h
    obtain ⟨f, rejected, rfl⟩ := h
    cases rejected with
    | refused refused =>
      have stopped := refused.find_eq
      change find (Depth.within levels).expression ts = _ at stopped
      rw [stopped]
    | trailing derived hn stops =>
      obtain ⟨left, read⟩ := derived.read.find_expression levels stops
      rw [read, if_pos hn]

/-- What is rejected with any more levels is no sentence. -/
theorem not_isSentence_of_rejects (h : ∀ more ≥ levels, Rejects more ts f) :
    ¬ IsSentence (ts.map Token.lexeme) := by
  intro sentence
  obtain ⟨e, n, derived⟩ := sentence
  obtain ⟨t, derivedAt, -⟩ := derived.lift Marking.carries_bare rfl
  -- With enough levels for the sentence, the tokens would be both parsed and rejected.
  have parsed := parseWithin_of_derives derivedAt (Nat.le_max_left n levels)
  have refused := parseWithin_eq_error_iff.2 ⟨f, h _ (Nat.le_max_right n levels), rfl⟩
  rw [parsed] at refused
  cases refused

/-- Where a row of tokens is not parsed, those in front of the one to blame fit the cause and begin
a sentence, and with it they begin none. -/
theorem blame_of_parseWithin (h : parseWithin levels ts = .error err)
    (shallow : err.cause ≠ .tooDeep) :
    ∃ us rest, ts = us ++ rest ∧ err.pos = us.length ∧ err.cause.Fits us rest ∧
      IsBeginning (us.map Token.lexeme) ∧ ¬ IsSentence (ts.map Token.lexeme) ∧
      ∀ t ∈ rest.head?, ¬ IsBeginning ((us ++ [t]).map Token.lexeme) := by
  obtain ⟨f, rejected, rfl⟩ := parseWithin_eq_error_iff.1 h
  obtain ⟨us, whole, fits, more, e, n, derived⟩ := rejected.completable
  obtain ⟨us', whole', steady⟩ := rejected.steady shallow
  obtain rfl : us = us' := List.append_cancel_right (whole.symm.trans whole')
  have never (rest : List Token) (same : rest.head? = f.rest.head?) :
      ¬ IsSentence ((us ++ rest).map Token.lexeme) :=
    not_isSentence_of_rejects fun levels le => steady levels le rest same
  refine ⟨us, f.rest, whole, ?_, fits, ?_, ?_, ?_⟩
  · show ts.length - f.rest.length = us.length
    rw [whole, List.length_append, Nat.add_sub_cancel]
  · have bare := derived.map Marking.carries_bare
    rw [List.map_append] at bare
    exact ⟨_, _, _, bare⟩
  · rw [whole]
    exact never f.rest rfl
  · intro t ht beginning
    obtain ⟨ls, sentence⟩ := beginning
    -- The lexemes that complete a sentence can be made tokens.
    have spelled : (ls.map Token.unplaced).map Token.lexeme = ls := by
      rw [List.map_map]
      exact List.map_id ls
    apply never (t :: ls.map Token.unplaced) ht.symm
    rw [List.append_cons, List.map_append, spelled]
    exact sentence

/-- An error is at the first token to blame: those in front of it can be completed to a sentence,
and no sentence begins with them and it. Where there is no such token the end of the tokens is to
blame, and then something is missing there. -/
theorem parse_blame (ts : List Token) :
    (∀ err, parse ts = .error err → err.cause ≠ .tooDeep →
      err.pos ≤ ts.length ∧
      IsBeginning ((ts.take err.pos).map Token.lexeme) ∧
      (err.pos < ts.length → ¬ IsBeginning ((ts.take (err.pos + 1)).map Token.lexeme)) ∧
      (err.pos = ts.length → ¬ IsSentence (ts.map Token.lexeme))) ∧
    (IsBeginning (ts.map Token.lexeme) → ¬ IsSentence (ts.map Token.lexeme) →
      ∃ err, parse ts = .error err ∧ (err.cause ≠ .tooDeep →
        err.pos = ts.length ∧ (err.cause = .endOfInput ∨
          (∃ opening, err.cause = .unterminatedGroup opening) ∨
          ∃ name, err.cause = .expectedCallBracket name))) := by
  constructor
  · intro err h shallow
    obtain ⟨us, rest, rfl, pos, -, beginning, incomplete, never⟩ := blame_of_parseWithin h shallow
    rw [pos, List.take_left]
    refine ⟨by rw [List.length_append]; omega, beginning, ?_, fun _ => incomplete⟩
    intro before
    cases rest with
    | nil => simp at before
    | cons t rest =>
      have next : (us ++ t :: rest).take (us.length + 1) = us ++ [t] := by
        rw [List.append_cons]
        exact List.take_left' List.length_append
      rw [next]
      exact never t rfl
  · intro beginning incomplete
    cases parsed : parse ts with
    | ok e =>
      obtain ⟨n, -, derived⟩ := parseWithin_eq_ok_iff.1 parsed
      exact absurd ⟨_, _, derived.map Marking.carries_bare⟩ incomplete
    | error err =>
      refine ⟨err, rfl, fun shallow => ?_⟩
      obtain ⟨us, rest, rfl, pos, fits, -, -, never⟩ := blame_of_parseWithin parsed shallow
      cases rest with
      | nil =>
        refine ⟨by rw [pos, List.append_nil], ?_⟩
        cases cause : err.cause with
        | unexpectedToken t expected =>
          rw [cause] at fits
          cases fits
        | endOfInput => exact .inl rfl
        | unterminatedGroup opening => exact .inr (.inl ⟨opening, rfl⟩)
        | expectedCallBracket name => exact .inr (.inr ⟨name, rfl⟩)
        | tooDeep => exact absurd cause shallow
      | cons t rest =>
        rw [List.append_cons, List.map_append] at beginning
        exact absurd beginning.of_append (never t rfl)

/-- In `1 ) 2` the bracket is to blame, since it cannot stand behind the one. In `( 1` the end is,
where the bracket is still open. -/
theorem parse_blame_brackets :
    ¬ IsBeginning ["1", ")"] ∧
    ∃ err, parse (["(", "1"].map Token.unplaced) = .error err ∧ err.pos = 2 ∧
      err.cause = .unterminatedGroup ⟨0, 1⟩ := by
  have one : Derives .places 1 .expression [.unplaced "1"] (.number (numberValue "1") ⟨0, 1⟩) 1 :=
    .term (.factor (.base derives_one))
  constructor
  · have trailing : Rejects nestingLimit (["1", ")", "2"].map Token.unplaced)
        ⟨.unexpectedToken (.unplaced ")") .continuation, [")", "2"].map Token.unplaced⟩ :=
      .trailing one (by decide) (stops_close rfl)
    have refused := parseWithin_eq_error_iff.2 ⟨_, trailing, rfl⟩
    exact ((parse_blame _).1 _ refused (by decide)).2.2.1 (by decide)
  · have openGroup : Rejects nestingLimit (["(", "1"].map Token.unplaced)
        ⟨.unterminatedGroup ⟨0, 1⟩, []⟩ :=
      .refused (.term (.factor (.base (.openGroup rfl one (by decide) .nil (by simp)))))
    have refused := parseWithin_eq_error_iff.2 ⟨_, openGroup, rfl⟩
    have found := (parse_blame _).1 _ refused (by decide)
    obtain ⟨err, again, missing⟩ := (parse_blame _).2 found.2.1 (found.2.2.2 rfl)
    obtain rfl := Except.error.inj (refused.symm.trans again)
    exact ⟨_, refused, (missing (by decide)).1, rfl⟩

end Located

end Calculator
