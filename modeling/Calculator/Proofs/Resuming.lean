import Calculator.Proofs.Blame
import Calculator.Proofs.Machine
import Calculator.Proofs.Nesting

/-!
# Reading one expression after the other

A machine that has read an expression, or has failed to, can go on from where it is. It keeps
nothing of what went before but its index: all levels are closed again, every reading uses up some
token while there are any, and it comes to what a machine comes to that has only the tokens left.
This holds after any number of readings, whatever came of them: `Machine.exists_read_of_reaches`.
That a machine and a cursor read the same does not depend on how many levels may be open:
`Machine.exists_run_readWithin`.
-/

namespace Calculator

/-! ## What a reader leaves -/

/-- Reading stops among the tokens that it was to read. If it has come to none behind the first,
then the first is one that it did not expect. -/
theorem Refuses.progress {levels : Nat} {p : Phrase} {ts : List Token} {f : Fault}
    (h : Refuses levels p ts f) (room : 0 < levels) :
    f.rest <:+ ts ∧ (∀ t x, f.cause = .unexpectedToken t x → f.rest ≠ []) ∧
      (f.rest.length = ts.length → ts = [] ∨ ∃ t x, f.cause = .unexpectedToken t x) := by
  obtain ⟨us, taken, fits, -⟩ := h.completable
  refine ⟨⟨us, taken.symm⟩, ?_, ?_⟩
  · intro t x cause absent
    rw [cause, absent] at fits
    cases fits
  · intro same
    have nothing : us = [] := by
      have length := congrArg List.length taken
      rw [List.length_append] at length
      exact List.length_eq_zero_iff.1 (by omega)
    cases cause : f.cause with
    | unexpectedToken t x => exact .inr ⟨t, x, rfl⟩
    | endOfInput =>
      rw [cause] at fits
      rw [nothing, show f.rest = [] from fits] at taken
      exact .inl taken
    | unterminatedGroup opening =>
      rw [cause, nothing] at fits
      obtain ⟨⟨o, ho, -⟩, -⟩ := fits
      cases ho
    | expectedCallBracket w =>
      rw [cause, nothing] at fits
      cases fits.1
    | tooDeep =>
      -- Each level that is open takes a token.
      obtain ⟨vs, taken', opens⟩ := h.opens cause
      have open_ := opens.le_length
      have length := congrArg List.length taken'
      rw [List.length_map] at open_
      rw [List.length_append] at length
      omega

/-- Where no expression is found, reading stops among the tokens, and not at the first one unless
that was not expected. -/
theorem progress_of_find {ts : List Token} {f : Fault}
    (h : Reader.find (Depth.within nestingLimit).expression ts = .error f) :
    f.rest <:+ ts ∧ (∀ t x, f.cause = .unexpectedToken t x → f.rest ≠ []) ∧
      (f.rest.length = ts.length → ts = [] ∨ ∃ t x, f.cause = .unexpectedToken t x) := by
  have comes := Depth.comes_expression nestingLimit ts
  rw [h] at comes
  exact Refuses.progress comes (by decide)

/-- A reader uses up at least one token. -/
theorem Reader.length_lt_of_find {α : Type} {r : Reader α} {ts rest : List Token} {a : α}
    (h : find r ts = .ok (a, rest)) : rest.length < ts.length := by
  unfold find at h
  cases read : r ts with
  | error f =>
    rw [read] at h
    cases h
  | ok parsed =>
    rw [read] at h
    cases h
    exact parsed.shorter

/-! ## Errors -/

/-- The same error, `k` tokens further behind. -/
def SyntaxError.raise (k : Nat) (e : SyntaxError) : SyntaxError :=
  { e with pos := k + e.pos }

theorem SyntaxError.cursorAfter_of_eq {e : SyntaxError} {t : Token} {x : Expectation}
    (h : e.cause = .unexpectedToken t x) : e.cursorAfter = e.pos + 1 := by
  unfold cursorAfter
  rw [h]

theorem SyntaxError.cursorAfter_of_ne {e : SyntaxError}
    (h : ∀ t x, e.cause ≠ .unexpectedToken t x) : e.cursorAfter = e.pos := by
  unfold cursorAfter
  split
  · rename_i cause
    exact absurd cause (h _ _)
  · rfl

theorem SyntaxError.cursorAfter_raise (k : Nat) (e : SyntaxError) :
    (e.raise k).cursorAfter = k + e.cursorAfter := by
  unfold raise cursorAfter
  cases e.cause <;> rfl

/-- Tokens in front of where reading began only move the error. -/
theorem Fault.toError_drop {ts : List Token} {index : Nat} {f : Fault} (lt : index < ts.length)
    (suffix : f.rest <:+ ts.drop index) :
    f.toError ts = (f.toError (ts.drop index)).raise index := by
  have le := suffix.length_le
  rw [List.length_drop] at le
  have pos : ts.length - f.rest.length = index + ((ts.drop index).length - f.rest.length) := by
    rw [List.length_drop]
    omega
  have last : endSpan (ts.drop index) = endSpan ts := by
    unfold endSpan
    rw [List.getLast?_drop, if_neg (by omega)]
  have head : headSpan ts f.rest = headSpan (ts.drop index) f.rest := by
    unfold headSpan
    rw [last]
  unfold toError SyntaxError.raise
  rw [pos, head]

namespace Machine

/-! ## Reading one expression -/

variable {α : Type} {ts : List Token}

/-- The value of an outcome, or its error. -/
def Outcome.result : Outcome α → Except SyntaxError α
  | .error (e, _) => .error e
  | .ok (a, _) => .ok a

/-- The machine of an outcome. -/
def Outcome.machine : Outcome α → Machine
  | .error (_, m) => m
  | .ok (_, m) => m

/-- A cursor moves on as the machine does. -/
theorem readWithin_eq_settle (levels : Nat) (ts : List Token) (index : Nat) :
    (⟨ts, index⟩ : Cursor).readWithin levels =
      let outcome := settle ts 0
        (Reader.find (Depth.within levels).expression (ts.drop index))
      (outcome.result, ⟨ts, outcome.machine.index⟩) := by
  unfold Cursor.readWithin Reader.find
  cases (Depth.within levels).expression (ts.drop index) <;> rfl

/-- Whatever the limit is, a machine with no levels open comes to an end, with what a cursor reads
in as many levels, and closes the levels that it opens. -/
theorem exists_run_readWithin (levels : Nat) {index : Nat} (le : index ≤ ts.length) :
    ∃ outcome : Outcome Located,
      ((⟨ts, index, 0⟩ : Machine).expressionWithin levels).run = some outcome ∧
      (⟨ts, index⟩ : Cursor).readWithin levels = (outcome.result, ⟨ts, outcome.machine.index⟩) ∧
      outcome.machine.tokens = ts ∧ outcome.machine.depth = 0 := by
  refine ⟨_, expressionWithin_run levels le, readWithin_eq_settle levels ts index, ?_⟩
  cases Reader.find (Depth.within levels).expression (ts.drop index) <;> exact ⟨rfl, rfl⟩

/-- What reading an expression does to a machine over `ts` whose next token had this index. -/
structure MovesOn (ts : List Token) (index : Nat) (outcome : Outcome Located) : Prop where
  tokens : outcome.machine.tokens = ts
  /-- All levels are closed. -/
  closed : outcome.machine.depth = 0
  forward : index ≤ outcome.machine.index
  within : outcome.machine.index ≤ ts.length
  /-- Where there are tokens, at least one is used up. -/
  progress : index < ts.length → index < outcome.machine.index
  /-- A token that was not expected is used up. -/
  behind {e t x} : outcome.result = .error e → e.cause = .unexpectedToken t x →
    outcome.machine.index = e.pos + 1
  /-- All other tokens that are to blame are not. -/
  before {e} : outcome.result = .error e → (∀ t x, e.cause ≠ .unexpectedToken t x) →
    outcome.machine.index = e.pos

/-- Where no expression is found behind an index, reading stops behind it and in the row. -/
theorem cursorAfter_of_find {index : Nat} {f : Fault} (le : index ≤ ts.length)
    (found : Reader.find (Depth.within nestingLimit).expression (ts.drop index) = .error f) :
    index ≤ (f.toError ts).cursorAfter ∧ (f.toError ts).cursorAfter ≤ ts.length ∧
      (index < ts.length → index < (f.toError ts).cursorAfter) := by
  obtain ⟨suffix, left, progress⟩ := progress_of_find found
  have shorter := suffix.length_le
  rw [List.length_drop] at shorter progress
  have pos : (f.toError ts).pos = ts.length - f.rest.length := rfl
  by_cases unexpected : ∃ t x, f.cause = .unexpectedToken t x
  · obtain ⟨t, x, cause⟩ := unexpected
    have nonempty := List.length_pos_iff.2 (left t x cause)
    have after : (f.toError ts).cursorAfter = (f.toError ts).pos + 1 :=
      SyntaxError.cursorAfter_of_eq cause
    omega
  · have after : (f.toError ts).cursorAfter = (f.toError ts).pos :=
      SyntaxError.cursorAfter_of_ne fun t x cause => unexpected ⟨t, x, cause⟩
    refine ⟨by omega, by omega, fun lt => ?_⟩
    have moved : f.rest.length ≠ ts.length - index := by
      intro same
      rcases progress same with ended | cause
      · have := List.drop_eq_nil_iff.1 ended
        omega
      · exact unexpected cause
    omega

/-- What a machine comes to that has no levels open. -/
theorem movesOn {index : Nat} (le : index ≤ ts.length) :
    MovesOn ts index (settle ts 0
      (Reader.find (Depth.within nestingLimit).expression (ts.drop index))) := by
  cases found : Reader.find (Depth.within nestingLimit).expression (ts.drop index) with
  | ok read =>
    have shorter := Reader.length_lt_of_find found
    rw [List.length_drop] at shorter
    have place : (settle ts 0 (.ok read)).machine.index = ts.length - read.2.length := rfl
    refine ⟨rfl, rfl, by omega, by omega, fun _ => by omega, ?_, ?_⟩
    · intro e t x failed
      cases failed
    · intro e failed
      cases failed
  | error f =>
    obtain ⟨forward, within, progress⟩ := cursorAfter_of_find le found
    refine ⟨rfl, rfl, forward, within, progress, ?_, ?_⟩
    · intro e t x failed cause
      cases failed
      exact SyntaxError.cursorAfter_of_eq cause
    · intro e failed other
      cases failed
      exact SyntaxError.cursorAfter_of_ne other

/-- A machine comes to what one does that never had the tokens in front of its index. -/
theorem settle_drop {index : Nat} (lt : index < ts.length)
    {found : Except Fault (Located × List Token)}
    (same : Reader.find (Depth.within nestingLimit).expression (ts.drop index) = found) :
    (settle ts 0 found).result
        = (settle (ts.drop index) 0 found).result.mapError (SyntaxError.raise index) ∧
      (settle ts 0 found).machine.index
        = index + (settle (ts.drop index) 0 found).machine.index := by
  cases found with
  | ok read =>
    have shorter := Reader.length_lt_of_find same
    rw [List.length_drop] at shorter
    refine ⟨rfl, ?_⟩
    show ts.length - read.2.length = index + ((ts.drop index).length - read.2.length)
    rw [List.length_drop]
    omega
  | error f =>
    have raised := Fault.toError_drop lt (progress_of_find same).1
    refine ⟨congrArg Except.error raised, ?_⟩
    show (f.toError ts).cursorAfter = index + (f.toError (ts.drop index)).cursorAfter
    rw [raised, SyntaxError.cursorAfter_raise]

/-! ## Reading one expression after the other -/

/-- What a machine over `ts` becomes by reading one expression after the other, whether or not there
is one. -/
inductive Reaches (ts : List Token) : Machine → Prop
  | start : Reaches ts (.start ts)
  | read {m : Machine} {outcome : Outcome Located} :
      Reaches ts m → m.expression.run = some outcome → Reaches ts outcome.machine

/-- Between expressions no levels are open, and the index is one of the row or behind it. -/
theorem Reaches.eq {m : Machine} (h : Reaches ts m) :
    ∃ index ≤ ts.length, m = ⟨ts, index, 0⟩ := by
  induction h with
  | start => exact ⟨0, Nat.zero_le _, rfl⟩
  | @read m outcome _ ran ih =>
    obtain ⟨index, le, rfl⟩ := ih
    rw [expression, expressionWithin_run nestingLimit le] at ran
    have moves := movesOn le
    rw [Option.some.inj ran] at moves
    refine ⟨outcome.machine.index, moves.within, ?_⟩
    rw [← moves.tokens, ← moves.closed]

/-- However many expressions were read from `ts` before, and whatever came of them: no levels are
open and the index is in the row. Reading the next one comes to an end, with what a cursor at this
index reads. It closes the levels that it opens and moves on, behind what stopped it if that was not
expected and else in front of it. And unless no tokens are left, it is as if there were only these
and the machine had just been started. -/
theorem exists_read_of_reaches {m : Machine} (h : Reaches ts m) :
    m.tokens = ts ∧ m.depth = 0 ∧ m.index ≤ ts.length ∧
    ∃ outcome : Outcome Located, m.expression.run = some outcome ∧
      (⟨ts, m.index⟩ : Cursor).read = (outcome.result, ⟨ts, outcome.machine.index⟩) ∧
      MovesOn ts m.index outcome ∧
      (m.index < ts.length → ∃ fresh : Outcome Located,
        (start (ts.drop m.index)).expression.run = some fresh ∧
        outcome.result = fresh.result.mapError (SyntaxError.raise m.index) ∧
        outcome.machine.index = m.index + fresh.machine.index) := by
  obtain ⟨index, le, rfl⟩ := h.eq
  refine ⟨rfl, rfl, le, _, expressionWithin_run nestingLimit le,
    readWithin_eq_settle nestingLimit ts index, movesOn le, fun lt => ?_⟩
  refine ⟨_, expressionWithin_run nestingLimit (Nat.zero_le _), ?_⟩
  rw [List.drop_zero]
  exact settle_drop lt rfl

/-- A closing bracket is used up by the first reading, and the constant behind it by the second. -/
theorem exists_read_of_reaches_close :
    ∃ first second : Outcome Located,
      (start [⟨")", ⟨0, 1⟩⟩, ⟨"pi", ⟨2, 4⟩⟩]).expression.run = some first ∧
      first.result = .error ⟨.unexpectedToken ⟨")", ⟨0, 1⟩⟩ .operand, 0, ⟨0, 1⟩⟩ ∧
      first.machine = ⟨[⟨")", ⟨0, 1⟩⟩, ⟨"pi", ⟨2, 4⟩⟩], 1, 0⟩ ∧
      first.machine.expression.run = some second ∧
      second.machine = ⟨[⟨")", ⟨0, 1⟩⟩, ⟨"pi", ⟨2, 4⟩⟩], 2, 0⟩ := by
  generalize whole : ([⟨")", ⟨0, 1⟩⟩, ⟨"pi", ⟨2, 4⟩⟩] : List Token) = tokens
  have unknown : Opening.ofLexeme? ")" = none := by rfl
  have refuses : Refuses nestingLimit .expression tokens
      ⟨.unexpectedToken ⟨")", ⟨0, 1⟩⟩ .operand, tokens⟩ := by
    rw [← whole]
    exact .term (.factor (.base (.unexpected unknown)))
  have refused : Reader.find (Depth.within nestingLimit).expression tokens = .error _ :=
    refuses.find_eq
  have read : (⟨tokens, 0⟩ : Cursor).read
      = (.error ⟨.unexpectedToken ⟨")", ⟨0, 1⟩⟩ .operand, 0, ⟨0, 1⟩⟩, ⟨tokens, 1⟩) := by
    rw [Cursor.read, readWithin_eq_settle, List.drop_zero, refused, ← whole]
    rfl
  have started : Reaches tokens (start tokens) := .start
  obtain ⟨-, -, -, first, ran, cursor, moves, -⟩ := exists_read_of_reaches started
  obtain ⟨result, stop⟩ := Prod.mk.inj (cursor.symm.trans read)
  have here : first.machine = ⟨tokens, 1, 0⟩ := by
    rw [← moves.tokens, ← moves.closed, ← (Cursor.mk.inj stop).2]
  obtain ⟨-, -, -, second, ranAgain, -, movesAgain, -⟩ := exists_read_of_reaches (started.read ran)
  have length : tokens.length = 2 := by rw [← whole]; rfl
  have progress := movesAgain.progress
  have within := movesAgain.within
  rw [here, length] at progress
  rw [length] at within
  have last : second.machine.index = 2 := Nat.le_antisymm within (progress Nat.one_lt_two)
  refine ⟨first, second, ran, result, here, ranAgain, ?_⟩
  rw [← last, ← movesAgain.closed, ← movesAgain.tokens]

end Machine

end Calculator
