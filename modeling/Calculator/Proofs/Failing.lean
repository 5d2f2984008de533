import Calculator.Proofs.Joining

/-!
# Lines that do not fall into tokens

A line that does not fall into tokens has a first place where none begins and no white space is:
`Fails` says what stands there, and `tokensFrom_eq_error_iff` that all in front of it is scanned as
if nothing were wrong. So neither the text in front of the failure nor the text behind it has a part
in it, except that a row of digits and points has to end where it does: `tokenize_failure`.
-/

namespace Calculator

/-! ## What is to blame -/

/-- What a failure says of the text that is to blame. -/
inductive LexicalError.Blames : LexicalError → (text : List Char) → Prop
  | malformedNumber {span text} : text ≠ [] → (∀ c ∈ text, isNumeralMark c) →
      Number.isNumeral text = false → Blames (.malformedNumber span (String.ofList text)) text
  | foreignCharacter {place c} : isNumeralMark c = false → isBlank c = false → isMark c = false →
      isWordStart c = false → Blames (.foreignCharacter place c) [c]

/-- A character that is no white space and occurs in no lexeme. -/
def IsForeign (c : Char) : Prop :=
  isBlank c = false ∧ c.isAlphanum = false ∧
    c ∉ ['_', '+', '-', '*', '/', '^', '(', ')', ',', '.']

/-- A row of digits and points that is neither a row of digits nor two with a point between
them. -/
structure IsMalformed (text : List Char) : Prop where
  some : text ≠ []
  marks : ∀ c ∈ text, c.isDigit ∨ c = '.'
  form : ¬ ∃ whole, whole ≠ [] ∧ (∀ c ∈ whole, c.isDigit) ∧
    (text = whole ∨ ∃ places, text = whole ++ '.' :: places ∧ places ≠ [] ∧
      ∀ c ∈ places, c.isDigit)

/-- What is behind the text to blame does not go on with it: there is no digit or point behind a
malformed number. -/
def LexicalError.EndsBefore : LexicalError → (behind : List Char) → Prop
  | malformedNumber _ _, behind => ∀ d ∈ behind.head?, isNumeralMark d = false
  | foreignCharacter _ _, _ => True

/-- At byte `place` stands neither a token nor white space, but the text that is to blame. -/
structure Fails (place : Nat) (text behind : List Char) (e : LexicalError) : Prop where
  blames : e.Blames text
  span : e.span = ⟨place, place + byteCount text⟩
  ends : e.EndsBefore behind

/-! ## Where scanning stops -/

namespace Piece

variable {c : Char} {cs text : List Char}

/-- Digits and points are taken together, also when they are no numeral. -/
theorem first_eq_malformed_iff : first c cs = .malformed text ↔
    isNumeralMark c ∧ text = c :: cs.takeWhile isNumeralMark ∧ Number.isNumeral text = false := by
  unfold first
  grind

/-- A character is foreign if no token begins with it. -/
theorem first_eq_foreign_iff : first c cs = .foreign ↔
    isNumeralMark c = false ∧ isBlank c = false ∧ isMark c = false ∧ isWordStart c = false := by
  constructor
  · intro h
    unfold first at h
    grind
  · rintro ⟨numeral, blank, mark, word⟩
    have noName := functionAtHead?_of_isWordStart_eq_false word cs
    unfold first
    simp [numeral, blank, mark, word, noName]

end Piece

namespace LexicalError

variable {e : LexicalError} {text behind more : List Char}

/-- Which characters are foreign. -/
theorem Blames.isForeign {place : Nat} {c : Char}
    (h : (LexicalError.foreignCharacter place c).Blames text) :
    text = [c] ∧ IsForeign c := by
  cases h with
  | foreignCharacter numeral blank mark word =>
    refine ⟨rfl, blank, ?_, ?_⟩
    · simp_all [isNumeralMark, isWordStart, Char.isAlphanum]
    · simp_all [isNumeralMark, isMark, isWordStart]

/-- Which numbers are malformed. -/
theorem Blames.isMalformed {span : Span} {s : String}
    (h : (LexicalError.malformedNumber span s).Blames text) :
    text = s.toList ∧ IsMalformed text := by
  cases h with
  | malformedNumber some marks form =>
    refine ⟨String.toList_ofList.symm, some, by simpa [isNumeralMark] using marks, fun whole => ?_⟩
    rw [Number.isNumeral, (Number.isNumeralOver_iff (by decide)).2 whole] at form
    cases form

theorem Blames.ne_nil (h : e.Blames text) : text ≠ [] := by
  cases h with
  | malformedNumber some _ _ => exact some
  | foreignCharacter _ _ _ _ => exact List.cons_ne_nil _ _

/-- More text behind changes nothing, unless there was none. -/
theorem EndsBefore.append (h : e.EndsBefore behind) (apart : ∀ d ∈ more.head?, isApart d) :
    e.EndsBefore (behind ++ more) := by
  cases e with
  | malformedNumber span text =>
    cases behind with
    | nil => exact fun d hd => (isApart_iff.1 (apart d hd)).1
    | cons d behind => exact h
  | foreignCharacter place c => trivial

end LexicalError

/-- Where a text fails, scanning stops. -/
theorem Fails.tokensFrom_eq {place : Nat} {text behind : List Char} {e : LexicalError}
    (h : Fails place text behind e) : tokensFrom place (text ++ behind) = .error e := by
  obtain ⟨blames, span, ends⟩ := h
  cases blames with
  | @malformedNumber span' text some marks form =>
    cases text with
    | nil => exact absurd rfl some
    | cons c cs =>
      obtain ⟨mark, marks⟩ := List.forall_mem_cons.1 marks
      have run : (cs ++ behind).takeWhile isNumeralMark = cs :=
        takeWhile_append_of_head (List.takeWhile_eq_self_iff.2 marks) ends
      obtain rfl : span' = _ := span
      rw [List.cons_append, tokensFrom, Piece.first_eq_malformed_iff.2 ⟨mark, by rw [run], form⟩]
  | @foreignCharacter place' c numeral blank mark word =>
    obtain rfl : place' = place := (Span.mk.inj span).1
    rw [List.singleton_append, tokensFrom,
      Piece.first_eq_foreign_iff.2 ⟨numeral, blank, mark, word⟩]

/-! ## The first failure -/

/-- A text does not fall into tokens where one part of it does, also in front of the rest, and there
it fails. -/
theorem tokensFrom_eq_error_iff {place : Nat} {cs : List Char} {e : LexicalError} :
    tokensFrom place cs = .error e ↔ ∃ before text behind ts, cs = before ++ (text ++ behind) ∧
      ScansBefore (text ++ behind) place before ts ∧
      Fails (place + byteCount before) text behind e := by
  constructor
  · intro h
    fun_induction tokensFrom place cs with
    | case1 => cases h
    | case2 place c cs found ih =>
      obtain ⟨numeral, blank⟩ := Piece.first_eq_blank_iff.1 found
      obtain ⟨before, text, behind, ts, rfl, front, fails⟩ := ih h
      rw [Nat.add_assoc, ← byteCount_cons] at fails
      exact ⟨c :: before, text, behind, ts, rfl, .blank numeral blank front, fails⟩
    | case3 place c cs lexeme found stop ih =>
      have leads := Piece.first_eq_lexeme_iff.1 found
      obtain ⟨ne, rest, whole⟩ := leads.exists_append
      rw [drop_length_sub_one whole ne] at h ih
      cases scanned : tokensFrom stop rest with
      | ok ts =>
        rw [scanned] at h
        cases h
      | error e' =>
        rw [scanned] at h
        cases h
        obtain ⟨before, text, behind, ts, rfl, front, fails⟩ := ih scanned
        cases lexeme with
        | nil => exact absurd rfl ne
        | cons d as =>
          obtain ⟨rfl, rfl⟩ : c = d ∧ cs = as ++ (before ++ (text ++ behind)) :=
            List.cons.inj whole
          rw [Nat.add_assoc, ← byteCount_append] at fails
          exact ⟨c :: as ++ before, text, behind, _, (List.append_assoc (c :: as) _ _).symm,
            .lexeme leads front, fails⟩
    | case4 place c cs text found =>
      cases h
      obtain ⟨mark, rfl, form⟩ := Piece.first_eq_malformed_iff.1 found
      have marks : ∀ d ∈ c :: cs.takeWhile isNumeralMark, isNumeralMark d :=
        List.forall_mem_cons.2 ⟨mark, fun d hd => List.mem_takeWhile_imp hd⟩
      refine ⟨[], c :: cs.takeWhile isNumeralMark, cs.dropWhile isNumeralMark, [], ?_, .nil,
        .malformedNumber (List.cons_ne_nil _ _) marks form, rfl,
        fun d hd => eq_false_of_mem_head?_dropWhile hd⟩
      rw [List.nil_append, List.cons_append, List.takeWhile_append_dropWhile]
    | case5 place c cs found =>
      cases h
      obtain ⟨numeral, blank, mark, word⟩ := Piece.first_eq_foreign_iff.1 found
      exact ⟨[], [c], cs, [], rfl, .nil, .foreignCharacter numeral blank mark word, rfl, trivial⟩
  · rintro ⟨before, text, behind, ts, rfl, front, fails⟩
    rw [front.tokensFrom_append, fails.tokensFrom_eq]
    rfl

/-- A failure with all that is in front of the text to blame, and with anything behind it that does
not go on with it. -/
theorem exists_of_tokensFrom_eq_error {place : Nat} {cs : List Char} {e : LexicalError}
    (h : tokensFrom place cs = .error e) :
    ∃ before text behind ts, cs = before ++ text ++ behind ∧
      place + byteCount before = e.span.start ∧ e.span.start + byteCount text = e.span.stop ∧
      e.Blames text ∧ e.EndsBefore behind ∧ Scans place before ts ∧
      ∀ more, e.EndsBefore more → tokensFrom place (before ++ text ++ more) = .error e := by
  obtain ⟨before, text, behind, ts, rfl, front, blames, span, ends⟩ :=
    tokensFrom_eq_error_iff.1 h
  refine ⟨before, text, behind, ts, (List.append_assoc _ _ _).symm, by rw [span], by rw [span],
    blames, ends, front.alone, fun more ends => ?_⟩
  -- What is in front is scanned as before, since the same character stands behind it.
  have same : (text ++ more).head? = (text ++ behind).head? := by
    rw [List.head?_append_of_ne_nil _ blames.ne_nil, List.head?_append_of_ne_nil _ blames.ne_nil]
  rw [List.append_assoc]
  exact tokensFrom_eq_error_iff.2 ⟨before, text, more, ts, rfl, front.of_head same, blames, span,
    ends⟩

/-! ## Lines -/

/-- A line that does not fall into tokens fails at the first text that is to blame: all in front of
it falls into tokens, and what is behind it does not matter, except that no digit or point may stand
behind a malformed number. -/
theorem tokenize_failure {line : String} {e : LexicalError} (h : tokenize line = .error e) :
    ∃ before text behind, line.toList = before ++ text ++ behind ∧
      byteCount before = e.span.start ∧ e.span.start + byteCount text = e.span.stop ∧
      (∃ ts, tokenize (String.ofList before) = .ok ts) ∧
      match e with
      | .foreignCharacter _ c => text = [c] ∧ IsForeign c ∧
        ∀ more : String, tokenize (String.ofList (before ++ text) ++ more) = .error e
      | .malformedNumber _ s => text = s.toList ∧ IsMalformed text ∧
        (∀ d ∈ behind.head?, ¬ (d.isDigit ∨ d = '.')) ∧
        ∀ more : String, (∀ d ∈ more.toList.head?, ¬ (d.isDigit ∨ d = '.')) →
          tokenize (String.ofList (before ++ text) ++ more) = .error e := by
  obtain ⟨before, text, behind, ts, whole, start, stop, blames, ends, front, again⟩ :=
    exists_of_tokensFrom_eq_error h
  rw [Nat.zero_add] at start
  have again (more : String) (ends : e.EndsBefore more.toList) :
      tokenize (String.ofList (before ++ text) ++ more) = .error e := by
    rw [tokenize, String.toList_append, String.toList_ofList]
    exact again more.toList ends
  refine ⟨before, text, behind, whole, start, stop, ⟨ts, ?_⟩, ?_⟩
  · rw [tokenize, String.toList_ofList, tokensFrom_eq_ok_iff]
    exact front
  · cases e with
    | foreignCharacter place c =>
      obtain ⟨spelled, foreign⟩ := blames.isForeign
      exact ⟨spelled, foreign, fun more => again more trivial⟩
    | malformedNumber span s =>
      obtain ⟨spelled, malformed⟩ := blames.isMalformed
      refine ⟨spelled, malformed, ?_, fun more ends => again more ?_⟩
      · simpa [LexicalError.EndsBefore, isNumeralMark] using ends
      · simpa [LexicalError.EndsBefore, isNumeralMark] using ends

/-- Of two failures the first one counts, and the same with other text behind it. -/
theorem tokenize_failure_malformed :
    ∃ before behind, "abs1.2.3$".toList = before ++ "1.2.3".toList ++ behind ∧
      byteCount before = 3 ∧ (∃ ts, tokenize (String.ofList before) = .ok ts) ∧
      IsMalformed "1.2.3".toList ∧
      tokenize (String.ofList (before ++ "1.2.3".toList) ++ "x4.5.") =
        .error (.malformedNumber ⟨3, 8⟩ "1.2.3") := by
  have failed : tokenize "abs1.2.3$" = .error (.malformedNumber ⟨3, 8⟩ "1.2.3") := by cbv
  obtain ⟨before, text, behind, whole, start, -, front, rfl, malformed, -, again⟩ :=
    tokenize_failure failed
  exact ⟨before, behind, whole, start, front, malformed, again "x4.5." (by simp)⟩

end Calculator
