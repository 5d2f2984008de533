import Calculator.Proofs.Blame
import Calculator.Proofs.Nesting

/-!
# What a reading depends on

What is read at the front of a row of tokens is settled by the tokens that are taken and the one
behind them. Whatever follows is not looked at, so an expression is the longest one that these
tokens begin with: `Cursor.read_longest`. Nor does the limit on nesting have any say but to refuse:
unless a reading runs out of levels, it comes to the same with any more of them, and it runs out of
levels only behind as many tokens (`Cursor.readWithin_of_le`).
-/

namespace Calculator

open Reader

/-! ## What is found -/

section Find

variable {levels more : Nat} {ts rest : List Token} {e : Located} {f : Fault}

/-- The tokens of an expression make the same expression with any more levels, and in front of all
tokens that end it. -/
theorem exists_find_of_eq_ok (h : find (Depth.within levels).expression ts = .ok (e, rest)) :
    ∃ us, ts = us ++ rest ∧ Stops 0 rest ∧ ∀ more ≥ levels, ∀ behind, Stops 0 behind →
      find (Depth.within more).expression (us ++ behind) = .ok (e, behind) := by
  have comes := Depth.comes_expression levels ts
  rw [h] at comes
  obtain ⟨us, n, whole, fits, derived, stops⟩ := comes
  refine ⟨us, whole, stops, fun more le behind ends => ?_⟩
  obtain ⟨left, read⟩ := derived.read.find_expression more ends
  rw [read, if_pos (Nat.le_trans fits le)]

/-- More levels only help where reading ran out of them. -/
theorem find_expression_of_le (le : levels ≤ more)
    (shallow : ∀ f, find (Depth.within levels).expression ts = .error f → f.cause ≠ .tooDeep) :
    find (Depth.within more).expression ts = find (Depth.within levels).expression ts := by
  cases found : find (Depth.within levels).expression ts with
  | ok read =>
    obtain ⟨us, rfl, stops, again⟩ := exists_find_of_eq_ok found
    exact again more le read.2 stops
  | error f =>
    have comes := Depth.comes_expression levels ts
    rw [found] at comes
    have refused : Refuses levels .expression ts f := comes
    obtain ⟨us, rfl, steady⟩ := refused.steady (shallow f found)
    exact (steady more le f.rest rfl).find_eq

/-- Each level that reading ran out of has taken a token. -/
theorem length_le_of_find_eq_error (h : find (Depth.within levels).expression ts = .error f)
    (deep : f.cause = .tooDeep) : levels + f.rest.length ≤ ts.length := by
  have comes := Depth.comes_expression levels ts
  rw [h] at comes
  have refused : Refuses levels .expression ts f := comes
  obtain ⟨us, rfl, opens⟩ := refused.opens deep
  have le := opens.le_length
  rw [List.length_map] at le
  rw [List.length_append]
  omega

end Find

/-! ## Rows of tokens -/

/-- Reading ran out of levels. -/
def IsTooDeep {α : Type} (x : Except SyntaxError α) : Prop :=
  ∃ err, x = .error err ∧ err.cause = .tooDeep

namespace Located

variable {levels more : Nat} {ts us rest : List Token} {e : Located} {t : Token}

theorem parseWithin_of_le (le : levels ≤ more) (shallow : ¬ IsTooDeep (parseWithin levels ts)) :
    parseWithin more ts = parseWithin levels ts := by
  rw [parseWithin_eq_find] at shallow
  rw [parseWithin_eq_find, parseWithin_eq_find, find_expression_of_le le]
  intro f found deep
  rw [found] at shallow
  exact shallow ⟨_, rfl, deep⟩

theorem le_pos_of_parseWithin {err : SyntaxError} (h : parseWithin levels ts = .error err)
    (deep : err.cause = .tooDeep) : levels ≤ err.pos ∧ err.pos ≤ ts.length := by
  obtain ⟨le, opens⟩ := exists_opens_of_parseWithin h deep
  have open_ := opens.le_length
  rw [List.length_map, List.length_take, Nat.min_eq_left le] at open_
  exact ⟨open_, le⟩

/-- Where tokens are left behind an expression, the first of these is to blame. -/
theorem parseWithin_of_find
    (h : find (Depth.within levels).expression (us ++ t :: rest) = .ok (e, t :: rest)) :
    parseWithin levels (us ++ t :: rest) =
      .error ⟨.unexpectedToken t .continuation, us.length, t.span⟩ := by
  have pos : (us ++ t :: rest).length - (t :: rest).length = us.length := by
    rw [List.length_append, Nat.add_sub_cancel]
  rw [parseWithin_eq_find, h]
  dsimp only [Fault.toError, headSpan]
  rw [pos]

end Located

namespace Cursor

/-- What a cursor reads and where it stops is a matter of what is found behind it. -/
theorem readWithin_eq_find (levels : Nat) (c : Cursor) :
    c.readWithin levels =
      match find (Depth.within levels).expression (c.tokens.drop c.index) with
      | .error f => (.error (f.toError c.tokens), ⟨c.tokens, (f.toError c.tokens).cursorAfter⟩)
      | .ok (e, rest) => (.ok e, ⟨c.tokens, c.tokens.length - rest.length⟩) := by
  unfold readWithin find
  cases (Depth.within levels).expression (c.tokens.drop c.index) <;> rfl

theorem exists_find_of_readWithin {levels : Nat} {c : Cursor}
    (h : IsTooDeep (c.readWithin levels).1) : ∃ f, f.cause = .tooDeep ∧
      find (Depth.within levels).expression (c.tokens.drop c.index) = .error f := by
  obtain ⟨err, failed, deep⟩ := h
  rw [readWithin_eq_find] at failed
  cases found : find (Depth.within levels).expression (c.tokens.drop c.index) with
  | ok read =>
    rw [found] at failed
    cases failed
  | error f =>
    rw [found] at failed
    cases failed
    exact ⟨f, deep, rfl⟩

/-! ## The limit on nesting -/

/-- With more levels a cursor reads the same and stops in the same place, and a whole row is parsed
as the same, unless reading ran out of levels. It does so only behind as many tokens as it had
levels, counted from where it began, and hence never with more levels than there are tokens. -/
theorem readWithin_of_le (c : Cursor) (inside : c.index ≤ c.tokens.length) {levels more : Nat}
    (le : levels ≤ more) :
    (¬ IsTooDeep (c.readWithin levels).1 → c.readWithin more = c.readWithin levels) ∧
    (¬ IsTooDeep (Located.parseWithin levels c.tokens) →
      Located.parseWithin more c.tokens = Located.parseWithin levels c.tokens) ∧
    (∀ err, (c.readWithin levels).1 = .error err → err.cause = .tooDeep →
      c.index + levels ≤ err.pos) ∧
    (∀ err, Located.parseWithin levels c.tokens = .error err → err.cause = .tooDeep →
      levels ≤ err.pos) ∧
    (c.tokens.length < more →
      ¬ IsTooDeep (c.readWithin more).1 ∧ ¬ IsTooDeep (Located.parseWithin more c.tokens)) := by
  refine ⟨fun shallow => ?_, Located.parseWithin_of_le le, fun err failed deep => ?_,
    fun err failed deep => (Located.le_pos_of_parseWithin failed deep).1, fun few => ⟨?_, ?_⟩⟩
  · rw [readWithin_eq_find, readWithin_eq_find, find_expression_of_le le]
    intro f found deep
    rw [readWithin_eq_find, found] at shallow
    exact shallow ⟨_, rfl, deep⟩
  · obtain ⟨f, cause, found⟩ := exists_find_of_readWithin ⟨err, failed, deep⟩
    have taken := length_le_of_find_eq_error found cause
    rw [readWithin_eq_find, found] at failed
    cases failed
    rw [List.length_drop] at taken
    show c.index + levels ≤ c.tokens.length - f.rest.length
    omega
  · intro deep
    obtain ⟨f, cause, found⟩ := exists_find_of_readWithin deep
    have taken := length_le_of_find_eq_error found cause
    rw [List.length_drop] at taken
    omega
  · intro deep
    obtain ⟨err, failed, cause⟩ := deep
    have := Located.le_pos_of_parseWithin failed cause
    omega

/-- A one in 64 pairs of brackets is too deep for 64 levels, behind 64 of its tokens, and for none
above 129. -/
theorem readWithin_of_le_bracketedOne :
    (∃ err, Located.parse ((Located.bracketedOne 64).map .unplaced) = .error err ∧
      err.cause = .tooDeep ∧ 64 ≤ err.pos) ∧
    ¬ IsTooDeep ((start ((Located.bracketedOne 64).map .unplaced)).readWithin 130).1 := by
  generalize whole : (Located.bracketedOne 64).map Token.unplaced = ts
  have lexemes : ts.map Token.lexeme = Located.bracketedOne 64 := by
    rw [← whole, List.map_map]
    exact List.map_id _
  have length : ts.length = 129 := by
    rw [← whole]
    rfl
  have derived := Located.derives_bracketedOne 64
  rw [← lexemes] at derived
  obtain ⟨err, failed, deep⟩ := @Located.parseWithin_succ_of_derives _ 63 _ _ derived
  have limits := readWithin_of_le (start ts) (Nat.zero_le _) (show 64 ≤ 130 by decide)
  exact ⟨⟨err, failed, deep, limits.2.2.2.1 err failed deep⟩,
    (limits.2.2.2.2 (by rw [start, length]; decide)).1⟩

/-! ## One token of lookahead -/

section Lookahead

variable {ts us behind : List Token} {e : Located} {stop : Nat} {t : Token}

/-- The tokens in front of where a cursor stops are found to be what it has read, in front of all
tokens that end an expression. -/
theorem exists_find_of_read (h : (start ts).read = (.ok e, ⟨ts, stop⟩)) :
    ∃ us rest, ts = us ++ rest ∧ us.length = stop ∧ Stops 0 rest ∧ ∀ behind, Stops 0 behind →
      find (Depth.within nestingLimit).expression (us ++ behind) = .ok (e, behind) := by
  rw [read, readWithin_eq_find] at h
  cases found : find (Depth.within nestingLimit).expression ts with
  | error f =>
    rw [start, List.drop_zero, found] at h
    cases h
  | ok read =>
    obtain ⟨us, whole, stops, again⟩ := exists_find_of_eq_ok found
    rw [start, List.drop_zero, found] at h
    cases h
    refine ⟨us, read.2, whole, ?_, stops, again nestingLimit (Nat.le_refl _)⟩
    rw [whole, List.length_append, Nat.add_sub_cancel]

/-- A cursor stops behind what is found. -/
theorem read_of_find
    (h : find (Depth.within nestingLimit).expression (us ++ behind) = .ok (e, behind)) :
    (start (us ++ behind)).read = (.ok e, ⟨us ++ behind, us.length⟩) := by
  rw [read, readWithin_eq_find, start, List.drop_zero, h]
  dsimp only
  rw [List.length_append, Nat.add_sub_cancel]

/-- A cursor in front of all tokens reads the longest expression that they begin with. The tokens up
to where it stops are that expression, with the same places, and no more of them are one: the next
token is to blame, as it is in the whole row. What the cursor reads and where it stops is the same
for all rows that have these tokens and then either nothing or the same next one. -/
theorem read_longest (h : (start ts).read = (.ok e, ⟨ts, stop⟩)) :
    stop ≤ ts.length ∧ Located.parse (ts.take stop) = .ok e ∧
    (∀ n ≤ ts.length, stop < n → ∃ t, ts[stop]? = some t ∧
      Located.parse (ts.take n) = .error ⟨.unexpectedToken t .continuation, stop, t.span⟩) ∧
    (∀ us, us = ts.take stop ∨ (stop < ts.length ∧ ts.take (stop + 1) <+: us) →
      (start us).read = (.ok e, ⟨us, stop⟩)) ∧
    Located.parse ts = match ts[stop]? with
      | none => .ok e
      | some t => .error ⟨.unexpectedToken t .continuation, stop, t.span⟩ := by
  obtain ⟨us, rest, rfl, rfl, stops, found⟩ := exists_find_of_read h
  have alone : Located.parse us = .ok e := by
    have read := found [] .nil
    rw [List.append_nil] at read
    exact Located.parseWithin_eq_ok_iff_find.2 read
  rw [List.take_left]
  refine ⟨by rw [List.length_append]; omega, alone, ?_, ?_, ?_⟩
  · intro n le lt
    cases rest with
    | nil => exact absurd le (by rw [List.append_nil]; omega)
    | cons t rest =>
      obtain ⟨k, rfl⟩ : ∃ k, n = us.length + (k + 1) := ⟨n - us.length - 1, by omega⟩
      rw [List.take_length_add_append, List.take_succ_cons]
      exact ⟨t, by simp, Located.parseWithin_of_find (found (t :: rest.take k) stops)⟩
  · rintro vs (rfl | ⟨lt, behind, rfl⟩)
    · have read := read_of_find (found [] .nil)
      rwa [List.append_nil] at read
    · cases rest with
      | nil => exact absurd lt (by rw [List.append_nil]; omega)
      | cons t rest =>
        rw [List.take_length_add_append, List.append_assoc]
        exact read_of_find (found (t :: behind) stops)
  · cases rest with
    | nil => rw [List.append_nil, List.getElem?_eq_none (Nat.le_refl _), alone]
    | cons t rest =>
      rw [List.getElem?_append_right (Nat.le_refl _), Nat.sub_self]
      exact Located.parseWithin_of_find (found (t :: rest) stops)

/-- In `1 + 2 )` the sum is read whatever follows the bracket, and the bracket is to blame for the
whole row. -/
theorem read_longest_close :
    ∃ e, (start (["1", "+", "2", ")"].map Token.unplaced)).read
        = (.ok e, ⟨["1", "+", "2", ")"].map Token.unplaced, 3⟩) ∧
      Located.parse (["1", "+", "2"].map Token.unplaced) = .ok e ∧
      Located.parse (["1", "+", "2", ")"].map Token.unplaced)
        = .error ⟨.unexpectedToken (.unplaced ")") .continuation, 3, ⟨0, 1⟩⟩ ∧
      (start (["1", "+", "2", ")", "*"].map Token.unplaced)).read
        = (.ok e, ⟨["1", "+", "2", ")", "*"].map Token.unplaced, 3⟩) := by
  have two : Derives .places 1 .primary [.unplaced "2"] (.number (numberValue "2") ⟨0, 1⟩) 1 :=
    .number (by decide)
  have sum : Derives .places 1 .expression [.unplaced "1", .unplaced "+", .unplaced "2"] _ _ :=
    .sum (.term (.factor (.base derives_one))) (by decide : ("+", BinaryOp.add) ∈ sumOperators)
      (.factor (.base two))
  have closes : Stops 0 [Token.unplaced ")"] := stops_close rfl
  obtain ⟨left, found⟩ := sum.read.find_expression nestingLimit closes
  rw [if_pos (by decide)] at found
  have here := read_of_find found
  obtain ⟨-, alone, -, again, whole⟩ := read_longest here
  exact ⟨_, here, alone, whole, again _ (.inr ⟨by decide, ["*"].map Token.unplaced, rfl⟩)⟩

end Lookahead

end Cursor

end Calculator
