import Calculator.Proofs.Parsing
import Mathlib.Order.Bounds.Basic

/-!
# How deep expressions may be nested

Groups, calls, minus signs and the right sides of `^` open one level each. `Derives` with leaf zero
counts just these, and `Opens` says where in a row of lexemes an operand begins and how many levels
are open there. A reader takes one level more for the number or constant at the bottom, so with 64
levels for the reader an expression may open 63, and reading stops at the first place with 64 open.
-/

namespace Calculator

open Reader

namespace Derives

variable {τ α : Type} {M : Marking τ α} {leaf : Nat} {p : Phrase} {ts : List τ} {e : p.Tree α}
  {n : Nat}

/-- Every derivation goes down to a number or a constant, so counting more for these counts as much
more for all. -/
theorem add_leaf (h : Derives M leaf p ts e n) (k : Nat) : Derives M (leaf + k) p ts e (n + k) := by
  induction h with
  | number h => exact .number h
  | constant h => exact .constant h
  | negate h _ ih => exact Nat.add_assoc 1 _ k ▸ .negate h ih
  | group ho _ hc ih => exact Nat.add_assoc 1 _ k ▸ .group ho ih hc
  | call hw ho _ hc ih => exact Nat.add_assoc 1 _ k ▸ .call hw ho ih hc
  | argument _ ih => exact .argument ih
  | comma _ hk _ ihs ih => exact Nat.add_max_add_right _ _ k ▸ .comma ihs hk ih
  | base _ ih => exact .base ih
  | power _ hk _ ihe ihf =>
    rw [← Nat.add_max_add_right, Nat.add_assoc]
    exact .power ihe hk ihf
  | factor _ ih => exact .factor ih
  | product _ hk _ ihe ihf => exact Nat.add_max_add_right _ _ k ▸ .product ihe hk ihf
  | term _ ih => exact .term ih
  | sum _ hk _ ihe ihf => exact Nat.add_max_add_right _ _ k ▸ .sum ihe hk ihf

/-- Counting nothing for numbers and constants counts one less for all. -/
theorem of_leaf_one (h : Derives M 1 p ts e n) : ∃ m, n = m + 1 ∧ Derives M 0 p ts e m := by
  induction h with
  | number h => exact ⟨0, rfl, .number h⟩
  | constant h => exact ⟨0, rfl, .constant h⟩
  | negate h _ ih =>
    rcases ih with ⟨m, rfl, he⟩
    exact ⟨1 + m, rfl, .negate h he⟩
  | group ho _ hc ih =>
    rcases ih with ⟨m, rfl, he⟩
    exact ⟨1 + m, rfl, .group ho he hc⟩
  | call hw ho _ hc ih =>
    rcases ih with ⟨m, rfl, hes⟩
    exact ⟨1 + m, rfl, .call hw ho hes hc⟩
  | argument _ ih =>
    rcases ih with ⟨m, rfl, he⟩
    exact ⟨m, rfl, .argument he⟩
  | comma _ hk _ ihs ih =>
    rcases ihs with ⟨m, rfl, hes⟩
    rcases ih with ⟨l, rfl, he⟩
    exact ⟨max m l, Nat.add_max_add_right m l 1, .comma hes hk he⟩
  | base _ ih =>
    rcases ih with ⟨m, rfl, he⟩
    exact ⟨m, rfl, .base he⟩
  | power _ hk _ ihe ihf =>
    rcases ihe with ⟨m, rfl, he⟩
    rcases ihf with ⟨l, rfl, hf⟩
    exact ⟨max m (1 + l), by omega, .power he hk hf⟩
  | factor _ ih =>
    rcases ih with ⟨m, rfl, he⟩
    exact ⟨m, rfl, .factor he⟩
  | product _ hk _ ihe ihf =>
    rcases ihe with ⟨m, rfl, he⟩
    rcases ihf with ⟨l, rfl, hf⟩
    exact ⟨max m l, Nat.add_max_add_right m l 1, .product he hk hf⟩
  | term _ ih =>
    rcases ih with ⟨m, rfl, he⟩
    exact ⟨m, rfl, .term he⟩
  | sum _ hk _ ihe ihf =>
    rcases ihe with ⟨m, rfl, he⟩
    rcases ihf with ⟨l, rfl, hf⟩
    exact ⟨max m l, Nat.add_max_add_right m l 1, .sum he hk hf⟩

end Derives

/-! ## Open levels -/

/-- The lexemes begin a phrase of which an operand has to follow, and `k` levels are open there. -/
inductive Opens : Phrase → List String → (k : Nat) → Prop
  | here : Opens .primary [] 0
  | negate {ls k} : Opens .primary ls k → Opens .primary ("-" :: ls) (k + 1)
  | group {ls k} : Opens .expression ls k → Opens .primary ("(" :: ls) (k + 1)
  | call {w g ls k} : Builtin.ofName? w = some g → Opens .arguments ls k →
      Opens .primary (w :: "(" :: ls) (k + 1)
  | argument {ls k} : Opens .expression ls k → Opens .arguments ls k
  | comma {ls es n ms k} : Derives .bare 0 .arguments ls es n → Opens .expression ms k →
      Opens .arguments (ls ++ "," :: ms) k
  | base {ls k} : Opens .primary ls k → Opens .factor ls k
  | exponent {ls e n ms k} : Derives .bare 0 .primary ls e n → Opens .factor ms k →
      Opens .factor (ls ++ "^" :: ms) (k + 1)
  | factor {ls k} : Opens .factor ls k → Opens .term ls k
  | product {ls e n l op ms k} : Derives .bare 0 .term ls e n → (l, op) ∈ productOperators →
      Opens .factor ms k → Opens .term (ls ++ l :: ms) k
  | term {ls k} : Opens .term ls k → Opens .expression ls k
  | sum {ls e n l op ms k} : Derives .bare 0 .expression ls e n → (l, op) ∈ sumOperators →
      Opens .term ms k → Opens .expression (ls ++ l :: ms) k

/-- Every open level takes a lexeme. -/
theorem Opens.le_length {p : Phrase} {ls : List String} {k : Nat} (h : Opens p ls k) :
    k ≤ ls.length := by
  induction h <;> grind

/-- What a reader has taken counts as completed. -/
theorem Derives.completed {p : Phrase} {us : List Token} {e : p.Tree Span} {n : Nat}
    (h : Derives .places 1 p us e n) :
    ∃ m, Derives .bare 0 p (us.map Token.lexeme) (p.mapTree (fun _ => ()) e) m := by
  obtain ⟨m, -, bare⟩ := (h.map Marking.carries_bare).of_leaf_one
  exact ⟨m, bare⟩

/-- Where reading stops for want of levels, as many levels are open as there were. -/
theorem Refuses.opens {levels : Nat} {p : Phrase} {ts : List Token} {f : Fault}
    (h : Refuses levels p ts f) (deep : f.cause = .tooDeep) :
    ∃ us, ts = us ++ f.rest ∧ Opens p (us.map Token.lexeme) levels := by
  -- Of the ways to be refused, only those matter in which a part is refused for want of levels.
  induction h with
  | deep => exact ⟨[], rfl, .here⟩
  | ended => cases deep
  | unexpected _ => cases deep
  | openGroup _ _ _ _ _ => cases deep
  | noBracket _ _ => cases deep
  | openCall _ _ _ _ _ _ => cases deep
  | negate ht _ ih =>
    obtain ⟨us, rfl, opens⟩ := ih deep
    refine ⟨_ :: us, rfl, ?_⟩
    rw [List.map_cons, ht]
    exact .negate opens
  | group ht _ ih =>
    obtain ⟨us, rfl, opens⟩ := ih deep
    refine ⟨_ :: us, rfl, ?_⟩
    rw [List.map_cons, ht]
    exact .group opens
  | call hw ho _ ih =>
    obtain ⟨us, rfl, opens⟩ := ih deep
    refine ⟨_ :: _ :: us, rfl, ?_⟩
    rw [List.map_cons, List.map_cons, ho]
    exact .call hw opens
  | argument _ ih =>
    obtain ⟨us, rfl, opens⟩ := ih deep
    exact ⟨us, rfl, .argument opens⟩
  | comma hes _ hk _ ih =>
    obtain ⟨us, rfl, opens⟩ := ih deep
    obtain ⟨m, bare⟩ := hes.completed
    refine ⟨_ ++ _ :: us, (List.append_assoc _ (_ :: us) _).symm, ?_⟩
    rw [List.map_append, List.map_cons, hk]
    exact .comma bare opens
  | base _ ih =>
    obtain ⟨us, rfl, opens⟩ := ih deep
    exact ⟨us, rfl, .base opens⟩
  | exponent he _ hk _ ih =>
    obtain ⟨us, rfl, opens⟩ := ih deep
    obtain ⟨m, bare⟩ := he.completed
    refine ⟨_ ++ _ :: us, (List.append_assoc _ (_ :: us) _).symm, ?_⟩
    rw [List.map_append, List.map_cons, hk]
    exact .exponent bare opens
  | factor _ ih =>
    obtain ⟨us, rfl, opens⟩ := ih deep
    exact ⟨us, rfl, .factor opens⟩
  | product he _ hk _ ih =>
    obtain ⟨us, rfl, opens⟩ := ih deep
    obtain ⟨m, bare⟩ := he.completed
    refine ⟨_ ++ _ :: us, (List.append_assoc _ (_ :: us) _).symm, ?_⟩
    rw [List.map_append, List.map_cons]
    exact .product bare hk opens
  | term _ ih =>
    obtain ⟨us, rfl, opens⟩ := ih deep
    exact ⟨us, rfl, .term opens⟩
  | sum he _ hk _ ih =>
    obtain ⟨us, rfl, opens⟩ := ih deep
    obtain ⟨m, bare⟩ := he.completed
    refine ⟨_ ++ _ :: us, (List.append_assoc _ (_ :: us) _).symm, ?_⟩
    rw [List.map_append, List.map_cons]
    exact .sum bare hk opens

/-- Tokens with completed lexemes are read. -/
theorem Derives.exists_read {p : Phrase} {ls : List String} {e : p.Tree Unit} {n : Nat}
    (h : Derives .bare 0 p ls e n) {us : List Token} (hus : us.map Token.lexeme = ls) :
    ∃ e' : p.Tree Span, Read p us e' (n + 1) := by
  obtain ⟨e', derived, -⟩ := (h.add_leaf 1).lift Marking.carries_bare hus
  exact ⟨e', derived.read⟩

/-! ## Too few levels -/

/-- In `k` levels or fewer, reading does not get past the tokens `us`. -/
def Overruns (p : Phrase) (us : List Token) (k : Nat) : Prop :=
  ∀ levels ≤ k, ∀ rest, ∃ left, find ((Depth.within levels).reader p) (us ++ rest) =
    .error ⟨.tooDeep, left ++ rest⟩

namespace Overruns

variable {us vs : List Token} {k : Nat}

/-- In no level, no operand is begun. -/
theorem here : Overruns .primary [] 0 := by
  intro levels le rest
  obtain rfl : levels = 0 := by omega
  exact ⟨[], rfl⟩

theorem negate {t : Token} (ht : t.lexeme = "-") (h : Overruns .primary us k) :
    Overruns .primary (t :: us) (k + 1) := by
  intro levels le rest
  cases levels with
  | zero => exact ⟨t :: us, rfl⟩
  | succ levels =>
    obtain ⟨left, read⟩ := h levels (Nat.le_of_succ_le_succ le) rest
    refine ⟨left, ?_⟩
    show find (Depth.within levels).nextOperand (t :: (us ++ rest)) = _
    change find (Depth.within levels).operand (us ++ rest) = _ at read
    rw [find_nextOperand_negation (Opening.ofLexeme?_eq_some_iff.2 ht), read]
    rfl

theorem group {o : Token} (ho : o.lexeme = "(") (h : Overruns .expression us k) :
    Overruns .primary (o :: us) (k + 1) := by
  intro levels le rest
  cases levels with
  | zero => exact ⟨o :: us, rfl⟩
  | succ levels =>
    obtain ⟨left, read⟩ := h levels (Nat.le_of_succ_le_succ le) rest
    refine ⟨left, ?_⟩
    show find (Depth.within levels).nextOperand (o :: (us ++ rest)) = _
    change find (Depth.within levels).expression (us ++ rest) = _ at read
    rw [find_nextOperand_group (Opening.ofLexeme?_eq_some_iff.2 ho), read]
    rfl

theorem call {w o : Token} {g : Builtin} (hw : Builtin.ofName? w.lexeme = some g)
    (ho : o.lexeme = "(") (h : Overruns .arguments us k) :
    Overruns .primary (w :: o :: us) (k + 1) := by
  intro levels le rest
  cases levels with
  | zero => exact ⟨w :: o :: us, rfl⟩
  | succ levels =>
    obtain ⟨left, read⟩ := h levels (Nat.le_of_succ_le_succ le) rest
    refine ⟨left, ?_⟩
    show find (Depth.within levels).nextOperand (w :: o :: (us ++ rest)) = _
    change find (Calculator.arguments (Depth.within levels).expression) (us ++ rest) = _ at read
    rw [find_nextOperand_call (Opening.ofLexeme?_eq_some_iff.2 hw), find_callOf ho, read]
    rfl

theorem argument (h : Overruns .expression us k) : Overruns .arguments us k := by
  intro levels le rest
  obtain ⟨left, read⟩ := h levels le rest
  refine ⟨left, ?_⟩
  show find (Calculator.arguments (Depth.within levels).expression) (us ++ rest) = _
  change find (Depth.within levels).expression (us ++ rest) = _ at read
  rw [find_arguments, read]
  rfl

/-- What is read in front may itself have needed too many levels. -/
theorem comma {c : Token} {es : List Located} {n : Nat} (hes : Read .arguments us es n)
    (hc : c.lexeme = ",") (h : Overruns .expression vs k) :
    Overruns .arguments (us ++ c :: vs) k := by
  intro levels le rest
  obtain ⟨left, read⟩ := hes levels (c :: (vs ++ rest)) (stops_comma hc)
  obtain ⟨leftLast, readLast⟩ := h levels le rest
  change find (Depth.within levels).expression (vs ++ rest) = _ at readLast
  rw [List.append_assoc, List.cons_append, read]
  split
  · rw [Depth.resume, resumeArguments_cons hc, readLast]
    exact ⟨leftLast, rfl⟩
  · exact ⟨left ++ c :: vs, by rw [List.append_assoc]; rfl⟩

theorem base (h : Overruns .primary us k) : Overruns .factor us k := by
  intro levels le rest
  cases levels with
  | zero => exact ⟨us, rfl⟩
  | succ levels =>
    obtain ⟨left, read⟩ := h (levels + 1) le rest
    refine ⟨left, ?_⟩
    show find (Depth.within levels).nextPower (us ++ rest) = _
    change find (Depth.within levels).nextOperand (us ++ rest) = _ at read
    rw [find_nextPower, read]
    rfl

theorem exponent {c : Token} {e : Located} {n : Nat} (he : Read .primary us e n)
    (hc : c.lexeme = "^") (h : Overruns .factor vs k) :
    Overruns .factor (us ++ c :: vs) (k + 1) := by
  intro levels le rest
  cases levels with
  | zero => exact ⟨us ++ c :: vs, rfl⟩
  | succ levels =>
    have stops : Stops 3 (c :: (vs ++ rest)) :=
      Stops.cons_operator (p := .exponent) (BinaryOp.eq_circumflex_iff.1 hc)
    obtain ⟨left, read⟩ := he (levels + 1) (c :: (vs ++ rest)) stops
    obtain ⟨leftLast, readLast⟩ := h levels (Nat.le_of_succ_le_succ le) rest
    change find (Depth.within levels).power (vs ++ rest) = _ at readLast
    change find (Depth.within levels).nextOperand (us ++ c :: (vs ++ rest)) = _ at read
    rw [List.append_assoc, List.cons_append]
    show ∃ left, find (Depth.within levels).nextPower (us ++ c :: (vs ++ rest)) = _
    rw [find_nextPower, read]
    split
    · show ∃ left, resumePower (Depth.within levels).power e (c :: (vs ++ rest)) = _
      rw [resumePower_cons hc, readLast]
      exact ⟨leftLast, rfl⟩
    · exact ⟨left ++ c :: vs, by rw [List.append_assoc]; rfl⟩

theorem factor (h : Overruns .factor us k) : Overruns .term us k := by
  intro levels le rest
  obtain ⟨left, read⟩ := h levels le rest
  refine ⟨left, ?_⟩
  show find (joinedLeft .multiplicative (Depth.within levels).power) (us ++ rest) = _
  change find (Depth.within levels).power (us ++ rest) = _ at read
  rw [find_joinedLeft, read]
  rfl

/-- A loop over operators stops with its operand. -/
theorem resumeLeft {p : Precedence} {operand : Reader Located} {levels n : Nat} {e : Located}
    {c : Token} {op : BinaryOp} {left leftLast rest : List Token}
    (hc : BinaryOp.atPrecedence? p c.lexeme = some op)
    (last : find operand (vs ++ rest) = .error ⟨.tooDeep, leftLast ++ rest⟩) :
    ∃ left', (if n ≤ levels then Calculator.resumeLeft p operand e (c :: (vs ++ rest))
        else .error ⟨.tooDeep, left ++ c :: (vs ++ rest)⟩) =
      .error ⟨.tooDeep, left' ++ rest⟩ := by
  split
  · rw [resumeLeft_cons hc, last]
    exact ⟨leftLast, rfl⟩
  · exact ⟨left ++ c :: vs, by rw [List.append_assoc]; rfl⟩

theorem product {c : Token} {op : BinaryOp} {e : Located} {n : Nat} (he : Read .term us e n)
    (hc : BinaryOp.atPrecedence? .multiplicative c.lexeme = some op) (h : Overruns .factor vs k) :
    Overruns .term (us ++ c :: vs) k := by
  intro levels le rest
  obtain ⟨left, read⟩ := he levels (c :: (vs ++ rest)) (Stops.cons_operator hc)
  obtain ⟨leftLast, readLast⟩ := h levels le rest
  rw [List.append_assoc, List.cons_append, read]
  exact resumeLeft hc readLast

theorem term (h : Overruns .term us k) : Overruns .expression us k := by
  intro levels le rest
  obtain ⟨left, read⟩ := h levels le rest
  refine ⟨left, ?_⟩
  show find (Depth.within levels).expression (us ++ rest) = _
  change find (joinedLeft .multiplicative (Depth.within levels).power) (us ++ rest) = _ at read
  rw [Depth.expression, find_joinedLeft, read]
  rfl

theorem sum {c : Token} {op : BinaryOp} {e : Located} {n : Nat} (he : Read .expression us e n)
    (hc : BinaryOp.atPrecedence? .additive c.lexeme = some op) (h : Overruns .term vs k) :
    Overruns .expression (us ++ c :: vs) k := by
  intro levels le rest
  obtain ⟨left, read⟩ := he levels (c :: (vs ++ rest)) (Stops.cons_operator hc)
  obtain ⟨leftLast, readLast⟩ := h levels le rest
  rw [List.append_assoc, List.cons_append, read]
  exact resumeLeft hc readLast

end Overruns

/-- Where `k` levels are open, no reader that has as many or fewer gets past. -/
theorem Opens.overruns {p : Phrase} {ls : List String} {k : Nat} (h : Opens p ls k)
    {us : List Token} (hus : us.map Token.lexeme = ls) : Overruns p us k := by
  induction h generalizing us with
  | here =>
    obtain rfl := List.map_eq_nil_iff.1 hus
    exact .here
  | negate _ ih =>
    obtain ⟨t, us, rfl, ht, hus⟩ := List.map_eq_cons_iff.1 hus
    exact .negate ht (ih hus)
  | group _ ih =>
    obtain ⟨o, us, rfl, ho, hus⟩ := List.map_eq_cons_iff.1 hus
    exact .group ho (ih hus)
  | call hw _ ih =>
    obtain ⟨w, ts, rfl, rfl, hts⟩ := List.map_eq_cons_iff.1 hus
    obtain ⟨o, us, rfl, ho, hus⟩ := List.map_eq_cons_iff.1 hts
    exact .call hw ho (ih hus)
  | argument _ ih => exact .argument (ih hus)
  | comma hes _ ih =>
    obtain ⟨us, c, vs, rfl, front, hc, back⟩ := Derives.exists_of_map_eq hus
    obtain ⟨es, completed⟩ := hes.exists_read front
    exact .comma completed hc (ih back)
  | base _ ih => exact .base (ih hus)
  | exponent he _ ih =>
    obtain ⟨us, c, vs, rfl, front, hc, back⟩ := Derives.exists_of_map_eq hus
    obtain ⟨e, completed⟩ := he.exists_read front
    exact .exponent completed hc (ih back)
  | factor _ ih => exact .factor (ih hus)
  | product he hk _ ih =>
    obtain ⟨us, c, vs, rfl, front, rfl, back⟩ := Derives.exists_of_map_eq hus
    obtain ⟨e, completed⟩ := he.exists_read front
    exact .product completed (BinaryOp.mem_productOperators_iff.1 hk) (ih back)
  | term _ ih => exact .term (ih hus)
  | sum he hk _ ih =>
    obtain ⟨us, c, vs, rfl, front, rfl, back⟩ := Derives.exists_of_map_eq hus
    obtain ⟨e, completed⟩ := he.exists_read front
    exact .sum completed (BinaryOp.mem_sumOperators_iff.1 hk) (ih back)

/-! ## Rows of tokens -/

namespace Located

variable {ts : List Token}

/-- What is read with the levels for numbers and constants left out is parsed if it leaves one level
for these, and is too deep if not. -/
theorem parseWithin_succ_of_derives {levels n : Nat} {e : Expr Unit}
    (h : Derives .bare 0 .expression (ts.map Token.lexeme) e n) :
    if n ≤ levels then ∃ t, parseWithin (levels + 1) ts = .ok t ∧ t.bare = e
    else ∃ err, parseWithin (levels + 1) ts = .error err ∧ err.cause = .tooDeep := by
  obtain ⟨t, derived, same⟩ := (h.add_leaf 1).lift Marking.carries_bare rfl
  by_cases fits : n ≤ levels
  · rw [if_pos fits]
    exact ⟨t, parseWithin_of_derives derived (Nat.succ_le_succ fits), same⟩
  · rw [if_neg fits]
    exact parseWithin_of_derives_of_lt derived (by omega)

/-- Reading is too deep where as many levels are open as it has. -/
theorem exists_opens_of_parseWithin {levels : Nat} {err : SyntaxError}
    (h : parseWithin levels ts = .error err) (deep : err.cause = .tooDeep) :
    err.pos ≤ ts.length ∧ Opens .expression ((ts.take err.pos).map Token.lexeme) levels := by
  have comes := Depth.comes_expression levels ts
  rw [parseWithin_eq_find] at h
  split at h
  · rename_i fault read
    rw [read] at comes
    cases h
    obtain ⟨us, taken, opens⟩ := Refuses.opens comes deep
    -- The error counts the tokens in front of those that are left.
    have pos : (fault.toError ts).pos = us.length := by
      show ts.length - fault.rest.length = us.length
      rw [taken, List.length_append]
      omega
    rw [pos, taken, List.take_left]
    exact ⟨by rw [List.length_append]; omega, opens⟩
  · cases h
  -- Tokens that are left over are another fault.
  · cases h
    cases deep

/-- Where as many levels are open as there are, reading has stopped. -/
theorem parseWithin_of_opens {levels p : Nat}
    (h : Opens .expression ((ts.take p).map Token.lexeme) levels) :
    ∃ err, parseWithin levels ts = .error err ∧ err.cause = .tooDeep ∧ err.pos ≤ p := by
  obtain ⟨left, read⟩ := h.overruns rfl levels (Nat.le_refl levels) (ts.drop p)
  rw [List.take_append_drop] at read
  change find (Depth.within levels).expression ts = _ at read
  rw [parseWithin_eq_find, read]
  refine ⟨_, rfl, rfl, ?_⟩
  show ts.length - (left ++ ts.drop p).length ≤ p
  rw [List.length_append, List.length_drop]
  omega

/-- A sentence of the grammar is parsed if it opens at most 63 levels, and is too deep if it opens
more. A row of tokens is too deep at `p` exactly when `p` is the first place in it where an operand
has to begin with 64 levels open. -/
theorem parse_nesting (ts : List Token) :
    (∀ e n, Derives .bare 0 .expression (ts.map Token.lexeme) e n →
      if n ≤ 63 then ∃ t, parse ts = .ok t ∧ t.bare = e
      else ∃ err, parse ts = .error err ∧ err.cause = .tooDeep) ∧
    ∀ p, (∃ err, parse ts = .error err ∧ err.cause = .tooDeep ∧ err.pos = p) ↔
      IsLeast {q | q ≤ ts.length ∧ Opens .expression ((ts.take q).map Token.lexeme) 64} p := by
  refine ⟨fun e n h => parseWithin_succ_of_derives h, ?_⟩
  intro p
  constructor
  · intro h
    rcases h with ⟨err, refused, deep, rfl⟩
    refine ⟨exists_opens_of_parseWithin refused deep, ?_⟩
    intro q hq
    obtain ⟨err', refused', -, le⟩ := parseWithin_of_opens hq.2
    obtain rfl : err = err' := Except.error.inj (refused.symm.trans refused')
    exact le
  · intro h
    rcases h with ⟨⟨-, opens⟩, first⟩
    obtain ⟨err, refused, deep, le⟩ := parseWithin_of_opens opens
    -- Reading cannot have stopped earlier, because 64 levels are open where it stops.
    have least : p ≤ err.pos := first (exists_opens_of_parseWithin refused deep)
    exact ⟨err, refused, deep, Nat.le_antisymm le least⟩

/-- A one in `k` pairs of brackets. -/
def bracketedOne (k : Nat) : List String :=
  List.replicate k "(" ++ "1" :: List.replicate k ")"

/-- Each pair of brackets is a level. -/
theorem derives_bracketedOne (k : Nat) :
    Derives .bare 0 .expression (bracketedOne k) (.number (numberValue "1") ()) k := by
  induction k with
  | zero => exact .term (.factor (.base (.number (by decide))))
  | succ k ih =>
    have group : Derives .bare 0 .primary ("(" :: (bracketedOne k ++ [")"]))
        (.number (numberValue "1") ()) (1 + k) := .group rfl ih rfl
    -- The new pair of brackets is the outermost one.
    have same : bracketedOne (k + 1) = "(" :: (bracketedOne k ++ [")"]) := by
      unfold bracketedOne
      rw [List.replicate_succ, List.replicate_succ', List.cons_append, List.append_assoc,
        List.cons_append]
    rw [same, Nat.add_comm k 1]
    exact .term (.factor (.base group))

/-- The brackets alone open all their levels. -/
theorem opens_brackets (k : Nat) : Opens .expression (List.replicate k "(") k := by
  induction k with
  | zero => exact .term (.factor (.base .here))
  | succ k ih =>
    rw [List.replicate_succ]
    exact .term (.factor (.base (.group ih)))

/-- With 63 pairs of brackets the one is parsed, with 64 it is too deep, and it is to blame. -/
theorem parse_nesting_bracketedOne :
    (∃ t, parse ((bracketedOne 63).map (⟨·, ⟨0, 1⟩⟩)) = .ok t ∧
      t.bare = .number (numberValue "1") ()) ∧
    ∃ err, parse ((bracketedOne 64).map (⟨·, ⟨0, 1⟩⟩)) = .error err ∧ err.cause = .tooDeep ∧
      err.pos = 64 := by
  have lexemes (k : Nat) :
      ((bracketedOne k).map (⟨·, ⟨0, 1⟩⟩)).map Token.lexeme = bracketedOne k := by
    rw [List.map_map]
    exact List.map_id _
  constructor
  · exact (parse_nesting _).1 _ 63 ((lexemes 63).symm ▸ derives_bracketedOne 63)
  · refine ((parse_nesting _).2 64).2 ⟨⟨?_, ?_⟩, ?_⟩
    · simp [bracketedOne]
    · rw [List.map_take, lexemes]
      exact opens_brackets 64
    · intro q hq
      have le := hq.2.le_length
      rw [List.length_map, List.length_take] at le
      omega

end Located

end Calculator
