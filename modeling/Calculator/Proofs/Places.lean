import Calculator.Proofs.Composition
import Calculator.Proofs.Lookahead

/-!
# Where tokens stand

Reading goes by lexemes. The spans of tokens are copied into trees and errors, and nothing is made
of them: rows of tokens with the same lexemes are read alike, one expression after the other,
whatever their spans are, and what is read is worth the same. So lines with the same lexemes have the
same value, or fail alike: `read_places`.
-/

namespace Calculator

open Reader

/-! ## Alike but for places -/

/-- Both outcomes are values that `R` relates, or both are errors that `S` relates. -/
inductive Agree {ε α : Type} (S : ε → ε → Prop) (R : α → α → Prop) :
    Except ε α → Except ε α → Prop
  | ok {a b} : R a b → Agree S R (.ok a) (.ok b)
  | error {e e'} : S e e' → Agree S R (.error e) (.error e')

/-- Causes of the same kind that name the same lexemes. -/
inductive SyntaxCause.Alike : SyntaxCause → SyntaxCause → Prop
  | unexpectedToken {t u x} : t.lexeme = u.lexeme →
      Alike (.unexpectedToken t x) (.unexpectedToken u x)
  | endOfInput : Alike .endOfInput .endOfInput
  | unterminatedGroup {a b} : Alike (.unterminatedGroup a) (.unterminatedGroup b)
  | expectedCallBracket {t u} : t.lexeme = u.lexeme →
      Alike (.expectedCallBracket t) (.expectedCallBracket u)
  | tooDeep : Alike .tooDeep .tooDeep

/-- Faults for like causes, with the same lexemes left. -/
structure Fault.Alike (f g : Fault) : Prop where
  cause : f.cause.Alike g.cause
  rest : f.rest.map Token.lexeme = g.rest.map Token.lexeme

/-- Errors for like causes at the same index. -/
structure SyntaxError.Alike (e e' : SyntaxError) : Prop where
  cause : e.cause.Alike e'.cause
  pos : e.pos = e'.pos

/-- Expressions that differ in their notes only. -/
def Expr.Alike {α : Type} (e d : Expr α) : Prop :=
  e.bare = d.bare

/-- Errors that differ in their notes only. -/
def EvaluationError.Alike {α : Type} (e e' : EvaluationError α) : Prop :=
  e.bare = e'.bare

/-- Like errors of lines that fall into tokens. -/
inductive LineError.Alike : LineError → LineError → Prop
  | grammatical {e e'} : e.Alike e' → Alike (.grammatical e) (.grammatical e')
  | evaluation {e e'} : e.Alike e' → Alike (.evaluation e) (.evaluation e')

/-! ## Phrases and refusals -/

section Rows

variable {ts us : List Token}

/-- What is said of the lexeme of the next token is said of that at another place. -/
theorem forall_mem_head?_of_lexemes (P : String → Prop)
    (same : us.map Token.lexeme = ts.map Token.lexeme) (h : ∀ t ∈ ts.head?, P t.lexeme) :
    ∀ u ∈ us.head?, P u.lexeme := by
  intro u hu
  obtain ⟨rest, rfl⟩ := List.head?_eq_some_iff.1 hu
  obtain ⟨t, behind, rfl, here, -⟩ := List.map_eq_cons_iff.1 same.symm
  rw [← here]
  exact h t rfl

/-- Phrases end by lexemes. -/
theorem Phrase.Ends.of_lexemes {p : Phrase} (h : p.Ends ts)
    (same : us.map Token.lexeme = ts.map Token.lexeme) : p.Ends us := by
  have stops {bound : Nat} (h : Stops bound ts) : Stops bound us :=
    forall_mem_head?_of_lexemes
      (fun l => ∀ op : BinaryOp, l = op.symbol → op.precedence.rank ≤ bound) same h
  cases p with
  | expression => exact stops h
  | term => exact stops h
  | factor => exact stops h
  | primary => trivial
  | arguments => exact ⟨stops h.1, forall_mem_head?_of_lexemes (· ≠ ",") same h.2⟩

/-- A phrase is one at other places, with a tree that has other notes only. -/
theorem Derives.relocate {leaf : Nat} {p : Phrase} {e : p.Tree Span} {n : Nat}
    (h : Derives .places leaf p ts e n) (same : us.map Token.lexeme = ts.map Token.lexeme) :
    ∃ d : p.Tree Span, Derives .places leaf p us d n ∧
      p.mapTree (fun _ => ()) d = p.mapTree (fun _ => ()) e :=
  (h.map Marking.carries_bare).lift Marking.carries_bare same

/-- Tokens at other places are refused for a like cause. -/
theorem Refuses.relocate {levels : Nat} {p : Phrase} {f : Fault} (h : Refuses levels p ts f)
    (same : us.map Token.lexeme = ts.map Token.lexeme) :
    ∃ g, Refuses levels p us g ∧ g.Alike f := by
  -- Each refusal cuts the tokens up, and the others are cut up in the same places.
  induction h generalizing us with
  | deep => exact ⟨_, .deep, .tooDeep, same⟩
  | ended =>
    obtain rfl := List.map_eq_nil_iff.1 same
    exact ⟨_, .ended, .endOfInput, rfl⟩
  | unexpected ht =>
    obtain ⟨u, us, rfl, here, -⟩ := List.map_eq_cons_iff.1 same
    rw [← here] at ht
    exact ⟨_, .unexpected ht, .unexpectedToken here, same⟩
  | negate ht _ ih =>
    obtain ⟨u, us, rfl, here, later⟩ := List.map_eq_cons_iff.1 same
    obtain ⟨g, refused, alike⟩ := ih later
    exact ⟨g, .negate (here.trans ht) refused, alike⟩
  | group ht _ ih =>
    obtain ⟨u, us, rfl, here, later⟩ := List.map_eq_cons_iff.1 same
    obtain ⟨g, refused, alike⟩ := ih later
    exact ⟨g, .group (here.trans ht) refused, alike⟩
  | openGroup ht derived fits ends open_ =>
    obtain ⟨u, us, rfl, here, later⟩ := List.map_eq_cons_iff.1 same
    rw [List.map_append] at later
    obtain ⟨inside, rest, rfl, front, left⟩ := List.map_eq_append_iff.1 later
    obtain ⟨d, derived', -⟩ := derived.relocate front
    exact ⟨_, .openGroup (here.trans ht) derived' fits (ends.of_lexemes left)
      (forall_mem_head?_of_lexemes (· ≠ ")") left open_), .unterminatedGroup, left⟩
  | noBracket hw next =>
    obtain ⟨w, rest, rfl, here, left⟩ := List.map_eq_cons_iff.1 same
    rw [← here] at hw
    exact ⟨_, .noBracket hw (forall_mem_head?_of_lexemes (· ≠ "(") left next),
      .expectedCallBracket here, left⟩
  | call hw ho _ ih =>
    obtain ⟨w, us, rfl, here, later⟩ := List.map_eq_cons_iff.1 same
    obtain ⟨o, us, rfl, opens, later⟩ := List.map_eq_cons_iff.1 later
    obtain ⟨g, refused, alike⟩ := ih later
    rw [← here] at hw
    exact ⟨g, .call hw (opens.trans ho) refused, alike⟩
  | openCall hw ho derived fits ends open_ =>
    obtain ⟨w, us, rfl, here, later⟩ := List.map_eq_cons_iff.1 same
    obtain ⟨o, us, rfl, opens, later⟩ := List.map_eq_cons_iff.1 later
    rw [List.map_append] at later
    obtain ⟨inside, rest, rfl, front, left⟩ := List.map_eq_append_iff.1 later
    obtain ⟨d, derived', -⟩ := derived.relocate front
    rw [← here] at hw
    exact ⟨_, .openCall hw (opens.trans ho) derived' fits (ends.of_lexemes left)
      (forall_mem_head?_of_lexemes (· ≠ ")") left open_), .unterminatedGroup, left⟩
  | argument _ ih =>
    obtain ⟨g, refused, alike⟩ := ih same
    exact ⟨g, .argument refused, alike⟩
  | comma derived fits hk _ ih =>
    rw [List.map_append, List.map_cons] at same
    obtain ⟨vs, k, us, rfl, front, here, later⟩ := Derives.exists_of_map_eq same
    obtain ⟨d, derived', -⟩ := derived.relocate front
    obtain ⟨g, refused, alike⟩ := ih later
    exact ⟨g, .comma derived' fits (here.trans hk) refused, alike⟩
  | base _ ih =>
    obtain ⟨g, refused, alike⟩ := ih same
    exact ⟨g, .base refused, alike⟩
  | exponent derived fits hk _ ih =>
    rw [List.map_append, List.map_cons] at same
    obtain ⟨vs, k, us, rfl, front, here, later⟩ := Derives.exists_of_map_eq same
    obtain ⟨d, derived', -⟩ := derived.relocate front
    obtain ⟨g, refused, alike⟩ := ih later
    exact ⟨g, .exponent derived' fits (here.trans hk) refused, alike⟩
  | factor _ ih =>
    obtain ⟨g, refused, alike⟩ := ih same
    exact ⟨g, .factor refused, alike⟩
  | product derived fits hk _ ih =>
    rw [List.map_append, List.map_cons] at same
    obtain ⟨vs, k, us, rfl, front, here, later⟩ := Derives.exists_of_map_eq same
    obtain ⟨d, derived', -⟩ := derived.relocate front
    obtain ⟨g, refused, alike⟩ := ih later
    rw [← here] at hk
    exact ⟨g, .product derived' fits hk refused, alike⟩
  | term _ ih =>
    obtain ⟨g, refused, alike⟩ := ih same
    exact ⟨g, .term refused, alike⟩
  | sum derived fits hk _ ih =>
    rw [List.map_append, List.map_cons] at same
    obtain ⟨vs, k, us, rfl, front, here, later⟩ := Derives.exists_of_map_eq same
    obtain ⟨d, derived', -⟩ := derived.relocate front
    obtain ⟨g, refused, alike⟩ := ih later
    rw [← here] at hk
    exact ⟨g, .sum derived' fits hk refused, alike⟩

/-! ## What is read -/

/-- At other places a like expression is found, with the same lexemes left, or a like fault. -/
theorem alike_find (levels : Nat) (same : us.map Token.lexeme = ts.map Token.lexeme) :
    Agree Fault.Alike
      (fun found found' => found.1.Alike found'.1 ∧
        found.2.map Token.lexeme = found'.2.map Token.lexeme)
      (find (Depth.within levels).expression us) (find (Depth.within levels).expression ts) := by
  have comes := Depth.comes_expression levels ts
  cases found : find (Depth.within levels).expression ts with
  | error f =>
    rw [found] at comes
    obtain ⟨g, refused, alike⟩ := Refuses.relocate comes same
    have stopped : find (Depth.within levels).expression us = .error g := refused.find_eq
    rw [stopped]
    exact .error alike
  | ok read =>
    rw [found] at comes
    obtain ⟨vs, n, rfl, fits, derived, stops⟩ := comes
    rw [List.map_append] at same
    obtain ⟨front, rest, rfl, taken, left⟩ := List.map_eq_append_iff.1 same
    obtain ⟨d, derived', alike⟩ := derived.relocate taken
    have ends : Stops 0 rest := Phrase.Ends.of_lexemes (p := .expression) stops left
    obtain ⟨inside, whole⟩ := derived'.read.find_expression levels ends
    rw [whole, if_pos fits]
    exact .ok ⟨alike, left⟩

/-- Like faults of rows of the same length are like errors. -/
theorem Fault.Alike.toError {f g : Fault} (h : f.Alike g) (same : us.length = ts.length) :
    (f.toError us).Alike (g.toError ts) := by
  refine ⟨h.cause, ?_⟩
  have left := congrArg List.length h.rest
  rw [List.length_map, List.length_map] at left
  show us.length - f.rest.length = ts.length - g.rest.length
  rw [same, left]

/-- Like errors stop in the same place. -/
theorem SyntaxError.Alike.cursorAfter {e e' : SyntaxError} (h : e.Alike e') :
    e.cursorAfter = e'.cursorAfter := by
  obtain ⟨cause, pos, span⟩ := e
  obtain ⟨cause', pos', span'⟩ := e'
  obtain ⟨alike, same⟩ := h
  dsimp only at alike same
  rw [same]
  cases alike <;> rfl

/-- Tokens at other places are parsed as a like expression, or fail to be for a like cause at the
same index. -/
theorem Located.alike_parse (same : us.map Token.lexeme = ts.map Token.lexeme) :
    Agree SyntaxError.Alike Expr.Alike (parse us) (parse ts) := by
  have length : us.length = ts.length := by simpa using congrArg List.length same
  have found := alike_find nestingLimit same
  rw [parse, parse, parseWithin_eq_find, parseWithin_eq_find]
  generalize find (Depth.within nestingLimit).expression us = x,
    find (Depth.within nestingLimit).expression ts = y at found ⊢
  cases found with
  | error alike => exact .error (alike.toError length)
  | @ok read read' alike =>
    obtain ⟨e, rest⟩ := read
    obtain ⟨d, rest'⟩ := read'
    obtain ⟨trees, left⟩ := alike
    cases rest with
    | nil =>
      obtain rfl := List.map_eq_nil_iff.1 left.symm
      exact .ok trees
    | cons u rest =>
      obtain ⟨t, behind, rfl, here, -⟩ := List.map_eq_cons_iff.1 left.symm
      have faults : Fault.Alike ⟨.unexpectedToken u .continuation, u :: rest⟩
          ⟨.unexpectedToken t .continuation, t :: behind⟩ := ⟨.unexpectedToken here.symm, left⟩
      exact .error (faults.toError length)

/-! ## One expression after the other -/

/-- What a cursor reads in so many readings, and where it stops after each of them. -/
def Cursor.readings (c : Cursor) : Nat → List (Except SyntaxError Located × Nat)
  | 0 => []
  | n + 1 => (c.read.1, c.read.2.index) :: c.read.2.readings n

/-- A reading of like outcome that stops at the same index. -/
structure AlikeReading (r r' : Except SyntaxError Located × Nat) : Prop where
  outcome : Agree SyntaxError.Alike Expr.Alike r.1 r'.1
  stop : r.2 = r'.2

/-- A cursor goes over the same tokens all the time. -/
theorem Cursor.tokens_read (c : Cursor) : c.read.2.tokens = c.tokens := by
  rw [read, readWithin_eq_find]
  split <;> rfl

/-- At other places a cursor reads alike and stops at the same index. -/
theorem Cursor.alikeReading {c c' : Cursor}
    (same : c.tokens.map Token.lexeme = c'.tokens.map Token.lexeme) (index : c.index = c'.index) :
    AlikeReading (c.read.1, c.read.2.index) (c'.read.1, c'.read.2.index) := by
  have length : c.tokens.length = c'.tokens.length := by simpa using congrArg List.length same
  have behind : (c.tokens.drop c.index).map Token.lexeme
      = (c'.tokens.drop c'.index).map Token.lexeme := by
    rw [List.map_drop, List.map_drop, same, index]
  have found := alike_find nestingLimit behind
  rw [read, read, readWithin_eq_find, readWithin_eq_find]
  generalize find (Depth.within nestingLimit).expression (c.tokens.drop c.index) = x,
    find (Depth.within nestingLimit).expression (c'.tokens.drop c'.index) = y at found ⊢
  cases found with
  | error alike => exact ⟨.error (alike.toError length), (alike.toError length).cursorAfter⟩
  | @ok read read' alike =>
    obtain ⟨trees, left⟩ := alike
    refine ⟨.ok trees, ?_⟩
    have rest := congrArg List.length left
    rw [List.length_map, List.length_map] at rest
    show c.tokens.length - read.2.length = c'.tokens.length - read'.2.length
    rw [length, rest]

/-- So it does however often it goes on. -/
theorem Cursor.alike_readings {c c' : Cursor}
    (same : c.tokens.map Token.lexeme = c'.tokens.map Token.lexeme) (index : c.index = c'.index)
    (n : Nat) : List.Forall₂ AlikeReading (c.readings n) (c'.readings n) := by
  induction n generalizing c c' with
  | zero => exact .nil
  | succ n ih =>
    have first := alikeReading same index
    refine .cons first (ih ?_ first.stop)
    rw [tokens_read, tokens_read, same]

end Rows

/-! ## What is worth the same -/

/-- Expressions that differ in their notes only have the same value, or errors that do. -/
theorem Expr.Alike.value {α : Type} {e d : Expr α} (h : e.Alike d) :
    Agree EvaluationError.Alike Eq e.value d.value := by
  have same : e.value.mapError EvaluationError.bare = d.value.mapError EvaluationError.bare :=
    (e.value_map fun _ => ()).symm.trans ((congrArg Expr.value h).trans (d.value_map fun _ => ()))
  cases left : e.value with
  | ok x =>
    rw [left] at same
    rw [mapError_eq_ok_iff.1 same.symm]
    exact .ok rfl
  | error err =>
    rw [left] at same
    obtain ⟨err', right, bare⟩ := mapError_eq_error_iff.1 same.symm
    rw [right]
    exact .error bare.symm

/-- Rows of tokens with the same lexemes are parsed as expressions that differ in their notes only,
or fail to be for like causes at the same index. Cursors read alike from them, from any index on and
however often, and stop at the same indices. Expressions that differ in their notes only have the
same value, or errors that differ so. Hence lines that fall into such tokens have the same value, or
fail alike. -/
theorem read_places {ts us : List Token} (same : ts.map Token.lexeme = us.map Token.lexeme) :
    Agree SyntaxError.Alike Expr.Alike (Located.parse ts) (Located.parse us) ∧
    (∀ index n, List.Forall₂ AlikeReading
      ((⟨ts, index⟩ : Cursor).readings n) ((⟨us, index⟩ : Cursor).readings n)) ∧
    (∀ e d : Located, e.Alike d → Agree EvaluationError.Alike Eq e.value d.value) ∧
    ∀ a b, tokenize a = .ok ts → tokenize b = .ok us →
      Agree LineError.Alike Eq (evalLine a) (evalLine b) := by
  refine ⟨Located.alike_parse same, fun index n => ?_,
    fun e d alike => alike.value, fun a b ha hb => ?_⟩
  · exact @Cursor.alike_readings ⟨ts, index⟩ ⟨us, index⟩ same rfl n
  have line {text : String} {rows : List Token} (h : tokenize text = .ok rows) :
      evalLine text = (do
        let e ← (Located.parse rows).mapError .grammatical
        e.value.mapError .evaluation) := by
    unfold evalLine parseLine tokensOfLine
    rw [h]
    rfl
  rw [line ha, line hb]
  have parsed := Located.alike_parse same
  generalize Located.parse ts = x, Located.parse us = y at parsed ⊢
  cases parsed with
  | error alike => exact .error (.grammatical alike)
  | @ok e d alike =>
    have worth := Expr.Alike.value alike
    show Agree _ _ (e.value.mapError LineError.evaluation) (d.value.mapError LineError.evaluation)
    generalize e.value = x, d.value = y at worth ⊢
    cases worth with
    | error alike => exact .error (.evaluation alike)
    | ok alike => exact .ok alike

/-- With white space in it, `abs(pi,tau)` has no value for the same reason. -/
theorem read_places_abs :
    ∃ place, evalLine "abs ( pi , tau )" =
      .error (.evaluation (.argumentCount place "abs" .one 2)) := by
  have near : tokenize "abs(pi,tau)" = .ok [⟨"abs", ⟨0, 3⟩⟩, ⟨"(", ⟨3, 4⟩⟩, ⟨"pi", ⟨4, 6⟩⟩,
      ⟨",", ⟨6, 7⟩⟩, ⟨"tau", ⟨7, 10⟩⟩, ⟨")", ⟨10, 11⟩⟩] := by cbv
  have apart : tokenize "abs ( pi , tau )" = .ok [⟨"abs", ⟨0, 3⟩⟩, ⟨"(", ⟨4, 5⟩⟩, ⟨"pi", ⟨6, 8⟩⟩,
      ⟨",", ⟨9, 10⟩⟩, ⟨"tau", ⟨11, 14⟩⟩, ⟨")", ⟨15, 16⟩⟩] := by cbv
  have leaf (k : Constant) {t : Token} (named : Constant.ofName? t.lexeme = some k) :
      Derives .places 1 .expression [t] (.number k.value t.span) 1 :=
    .term (.factor (.base (.constant named)))
  have call : Derives .places 1 .expression [⟨"abs", ⟨0, 3⟩⟩, ⟨"(", ⟨3, 4⟩⟩, ⟨"pi", ⟨4, 6⟩⟩,
      ⟨",", ⟨6, 7⟩⟩, ⟨"tau", ⟨7, 10⟩⟩, ⟨")", ⟨10, 11⟩⟩] _ _ :=
    .term (.factor (.base (.call (Builtin.ofName?_name .abs) rfl
      (.comma (.argument (leaf .pi (by decide))) rfl (leaf .tau (by decide))) rfl)))
  have worthless : evalLine "abs(pi,tau)" =
      .error (.evaluation (.argumentCount ⟨0, 11⟩ "abs" .one 2)) := by
    unfold evalLine
    rw [parseLine_of_derives call near (by decide)]
    rfl
  have alike := (read_places (by rfl)).2.2.2 _ _ near apart
  rw [worthless] at alike
  generalize evalLine "abs ( pi , tau )" = outcome at alike ⊢
  cases alike with
  | error alike =>
    cases alike with
    | @evaluation e e' alike =>
      cases e' <;> cases alike
      exact ⟨_, rfl⟩

end Calculator
