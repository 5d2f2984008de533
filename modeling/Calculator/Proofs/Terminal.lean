import Calculator.Proofs.Grammar
import Mathlib.Data.List.TakeWhile

/-!
# Terminals

A lexeme is a number of the grammar exactly where `Number.ofText?` gives it a value, and
`Opening.ofLexeme?` tells the terminals with which a primary can begin apart: no lexeme is two of
them. The operator tables of the grammar are the precedences.
-/

namespace Calculator

/-! ## Numerals -/

namespace Number

/-- A numeral is a row of digits, or two rows with a point between them. -/
theorem isNumeralOver_iff {isDigit : Char → Bool} (point : isDigit '.' = false) {cs : List Char} :
    isNumeralOver isDigit cs ↔ ∃ whole, whole ≠ [] ∧ (∀ c ∈ whole, isDigit c) ∧
      (cs = whole ∨
        ∃ places, cs = whole ++ '.' :: places ∧ places ≠ [] ∧ ∀ c ∈ places, isDigit c) := by
  constructor
  · intro h
    -- The first run of digits is the whole part.
    have split := List.takeWhile_append_dropWhile (p := isDigit) (l := cs)
    have digits := List.all_takeWhile (p := isDigit) (l := cs)
    unfold isNumeralOver at h
    cases rest : cs.dropWhile isDigit with
    | nil =>
      simp only [rest, List.append_nil, Bool.and_true, Bool.not_eq_true', List.isEmpty_eq_false_iff,
        List.all_eq_true] at h split digits
      exact ⟨_, h, digits, .inl split.symm⟩
    | cons c places =>
      simp only [rest, Bool.and_eq_true, Bool.not_eq_true', List.isEmpty_eq_false_iff, beq_iff_eq,
        List.all_eq_true] at h split digits
      rcases h with ⟨whole, ⟨rfl, some⟩, all⟩
      exact ⟨_, whole, digits, .inr ⟨places, split.symm, some, all⟩⟩
  · intro h
    rcases h with ⟨whole, nonempty, digits, rfl | ⟨places, rfl, nonemptyPlaces, digitsMore⟩⟩
    · simp [isNumeralOver, List.takeWhile_eq_self_iff.2 digits, List.dropWhile_eq_nil_iff.2 digits,
        nonempty]
    · simp [isNumeralOver, List.takeWhile_append_of_pos digits, List.dropWhile_append_of_pos digits,
        point, nonempty, nonemptyPlaces]
      exact digitsMore

/-- There is nothing else in a numeral than digits and a point. -/
theorem isDigit_or_eq_point {cs : List Char} (h : isNumeral cs) {c : Char} (mem : c ∈ cs) :
    c.isDigit ∨ c = '.' := by
  obtain ⟨whole, -, digits, rfl | ⟨places, rfl, -, digitsMore⟩⟩ :=
    (isNumeralOver_iff (by decide)).1 h
  · exact .inl (digits c mem)
  · rcases List.mem_append.1 mem with before | behind
    · exact .inl (digits c before)
    · rcases List.mem_cons.1 behind with point | behind
      · exact .inr point
      · exact .inl (digitsMore c behind)

/-- On ASCII characters the decimal digits are those from `0` to `9`. -/
theorem isDecimalDigit_iff_isDigit {c : Char} (ascii : c.toNat < 128) :
    isDecimalDigit c ↔ c.isDigit := by
  constructor
  · intro h
    obtain ⟨first, listed, inRow⟩ := List.any_eq_true.1 h
    -- Only one script has its digits among the ASCII characters.
    have zeros : ∀ n ∈ scriptZeros, n = 48 ∨ 128 ≤ n := by decide
    have := zeros first listed
    simp only [Bool.and_eq_true, decide_eq_true_eq] at inRow
    have : 48 ≤ c.toNat ∧ c.toNat ≤ 57 := by omega
    simp only [Char.isDigit, Bool.and_eq_true, decide_eq_true_eq]
    exact this
  · exact isDecimalDigit_of_isDigit

/-- The digits from `0` to `9` are ASCII characters. -/
theorem toNat_lt_of_isDigit {c : Char} (h : c.isDigit) : c.toNat < 128 := by
  simp only [Char.isDigit, Bool.and_eq_true, decide_eq_true_eq] at h
  have : c.toNat ≤ 57 := h.2
  omega

/-- A numeral is what has the form of one and consists of ASCII characters. -/
theorem isNumeral_iff {cs : List Char} :
    isNumeral cs ↔ isNumeralOver isDecimalDigit cs ∧ ∀ c ∈ cs, c.toNat < 128 := by
  unfold isNumeral
  rw [isNumeralOver_iff (by decide), isNumeralOver_iff (by decide)]
  constructor
  · intro h
    rcases h with ⟨whole, nonempty, digits, rfl | ⟨places, rfl, nonemptyPlaces, digitsMore⟩⟩
    · exact ⟨⟨cs, nonempty, fun c hc => isDecimalDigit_of_isDigit (digits c hc), .inl rfl⟩,
        fun c hc => toNat_lt_of_isDigit (digits c hc)⟩
    · refine ⟨⟨whole, nonempty, fun c hc => isDecimalDigit_of_isDigit (digits c hc), .inr
        ⟨places, rfl, nonemptyPlaces, fun c hc => isDecimalDigit_of_isDigit (digitsMore c hc)⟩⟩, ?_⟩
      intro c hc
      simp only [List.mem_append, List.mem_cons] at hc
      rcases hc with hc | rfl | hc
      · exact toNat_lt_of_isDigit (digits c hc)
      · decide
      · exact toNat_lt_of_isDigit (digitsMore c hc)
  · intro h
    rcases h with
      ⟨⟨whole, nonempty, digits, rfl | ⟨places, rfl, nonemptyPlaces, digitsMore⟩⟩, ascii⟩
    · exact ⟨cs, nonempty, fun c hc => (isDecimalDigit_iff_isDigit (ascii c hc)).1 (digits c hc),
        .inl rfl⟩
    · simp only [List.mem_append, List.mem_cons] at ascii
      refine ⟨whole, nonempty, ?_, .inr ⟨places, rfl, nonemptyPlaces, ?_⟩⟩
      · exact fun c hc => (isDecimalDigit_iff_isDigit (ascii c (.inl hc))).1 (digits c hc)
      · intro c hc
        exact (isDecimalDigit_iff_isDigit (ascii c (.inr (.inr hc)))).1 (digitsMore c hc)

/-- Taking a minus sign away leaves ASCII characters exactly where there were only such. -/
theorem ascii_splitSign {cs : List Char} :
    (∀ c ∈ (splitSign cs).2, c.toNat < 128) ↔ ∀ c ∈ cs, c.toNat < 128 := by
  unfold splitSign
  split
  · simp only [List.mem_cons, forall_eq_or_imp]
    exact (and_iff_right (by decide)).symm
  · rfl

end Number

/-- A number has a value. -/
theorem ofText?_eq_some_iff {lexeme : String} {x : Float} :
    Number.ofText? lexeme.toList = some x ↔ IsNumber lexeme ∧ numberValue lexeme = x := by
  have number : IsNumber lexeme ↔ Number.isNumeral (Number.splitSign lexeme.toList).2 := by
    rw [Number.isNumeral_iff, Number.ascii_splitSign]
    rfl
  rw [number, numberValue]
  unfold Number.ofText?
  split
  rename_i negative numeral split
  simp only [split]
  by_cases h : Number.isNumeral numeral
  · simp [h]
  · simp [h]

/-! ## What a primary begins with -/

/-- A number begins with a digit or a minus sign. -/
theorem IsNumber.exists_cons {lexeme : String} (h : IsNumber lexeme) :
    ∃ c cs, lexeme.toList = c :: cs ∧ (c = '-' ∨ c.isDigit) := by
  rcases h with ⟨form, ascii⟩
  unfold Number.hasNumberForm Number.splitSign at form
  split at form
  · rename_i cs spelled
    exact ⟨'-', cs, spelled, .inl rfl⟩
  · dsimp only at form
    obtain ⟨whole, nonempty, digits, spelled⟩ := (Number.isNumeralOver_iff (by decide)).1 form
    obtain ⟨c, whole, rfl⟩ := List.exists_cons_of_ne_nil nonempty
    have digit : isDecimalDigit c := digits c List.mem_cons_self
    rcases spelled with spelled | ⟨places, spelled, -⟩
    all_goals
      rw [spelled] at ascii
      exact ⟨c, _, spelled, .inr ((Number.isDecimalDigit_iff_isDigit (ascii c (by simp))).1 digit)⟩

/-- Digits stay as they are when letters become capitals. -/
theorem Constant.capital_of_isDigit {c : Char} (h : c.isDigit) : capital c = c := by
  have range : 48 ≤ c.toNat ∧ c.toNat ≤ 57 := by
    simp only [Char.isDigit, Bool.and_eq_true, decide_eq_true_eq] at h
    exact h
  -- There are ten of them to try.
  have digits : ∀ n ≤ 57, 48 ≤ n → capital (Char.ofNat n) = Char.ofNat n := by decide
  have := digits c.toNat range.2 range.1
  rwa [Char.ofNat_toNat] at this

/-- No number is the name of a constant. -/
theorem IsNumber.not_constant {lexeme : String} (h : IsNumber lexeme) :
    Constant.ofName? lexeme = none := by
  obtain ⟨c, cs, spelled, first⟩ := h.exists_cons
  -- Both names begin with a letter, and a number with none.
  have noLetter : Constant.capital c ≠ 'P' ∧ Constant.capital c ≠ 'T' := by
    rcases first with rfl | digit
    · decide
    · rw [Constant.capital_of_isDigit digit]
      constructor
      · intro hc
        simp [hc] at digit
      · intro hc
        simp [hc] at digit
  cases named : Constant.ofName? lexeme with
  | none => rfl
  | some k =>
    have spelling := List.find?_some named
    rw [spelled, List.map_cons, beq_iff_eq] at spelling
    cases k
    · exact absurd (List.cons.inj spelling).1.symm noLetter.1
    · exact absurd (List.cons.inj spelling).1.symm noLetter.2

/-- The name of a constant is nothing else that begins a primary. -/
theorem Constant.eq_none_of_ofName? {lexeme : String} {k : Constant}
    (named : ofName? lexeme = some k) :
    lexeme ≠ "-" ∧ lexeme ≠ "(" ∧ Builtin.ofName? lexeme = none := by
  refine ⟨?_, ?_, ?_⟩
  · intro h
    rw [h] at named
    exact absurd (named.symm.trans (by decide : ofName? "-" = none)) (by simp)
  · intro h
    rw [h] at named
    exact absurd (named.symm.trans (by decide : ofName? "(" = none)) (by simp)
  · cases h : Builtin.ofName? lexeme with
    | none => rfl
    | some f =>
      have none : ofName? f.name = none := by cases f <;> decide
      rw [Builtin.ofName?_eq_some_iff.1 h, named] at none
      simp at none

/-- A number is nothing else that begins a primary. -/
theorem IsNumber.not_opening {lexeme : String} (h : IsNumber lexeme) :
    lexeme ≠ "-" ∧ lexeme ≠ "(" ∧ Builtin.ofName? lexeme = none := by
  refine ⟨?_, ?_, ?_⟩
  · intro eq
    exact absurd (eq ▸ h) (by decide : ¬ IsNumber "-")
  · intro eq
    exact absurd (eq ▸ h) (by decide : ¬ IsNumber "(")
  · cases named : Builtin.ofName? lexeme with
    | none => rfl
    | some f =>
      have : ¬ IsNumber f.name := by cases f <;> decide
      rw [Builtin.ofName?_eq_some_iff.1 named] at this
      exact absurd h this

namespace Opening

/-- How an opening is spelled in the grammar. -/
def Spelled : Opening → String → Prop
  | negation, lexeme => lexeme = "-"
  | group, lexeme => lexeme = "("
  | call f, lexeme => Builtin.ofName? lexeme = some f
  | value x, lexeme =>
    (∃ k, Constant.ofName? lexeme = some k ∧ k.value = x) ∨
      IsNumber lexeme ∧ numberValue lexeme = x

/-- A lexeme opens what the grammar says it does. -/
theorem ofLexeme?_eq_some_iff {lexeme : String} {o : Opening} :
    ofLexeme? lexeme = some o ↔ o.Spelled lexeme := by
  constructor
  · intro h
    -- The tests are made in order, so each case only knows that its own test held.
    unfold ofLexeme? at h
    split at h
    · rename_i spelled
      cases h
      exact spelled
    split at h
    · rename_i spelled
      cases h
      exact spelled
    split at h
    · rename_i f named
      cases h
      exact named
    split at h
    · rename_i k named
      cases h
      exact .inl ⟨k, named, rfl⟩
    · obtain ⟨x, worth, rfl⟩ := Option.map_eq_some_iff.1 h
      exact .inr (ofText?_eq_some_iff.1 worth)
  · intro h
    cases o with
    | negation => rw [show lexeme = "-" from h]; rfl
    | group => rw [show lexeme = "(" from h]; rfl
    | call f => rw [← Builtin.ofName?_eq_some_iff.1 h]; cases f <;> rfl
    | value x =>
      -- A value is tried last, so the tests before it have to fail.
      unfold ofLexeme? Lexicon.minus Lexicon.openBracket
      rcases h with ⟨k, named, rfl⟩ | ⟨number, worth⟩
      · obtain ⟨noMinus, noBracket, noFunction⟩ := Constant.eq_none_of_ofName? named
        simp only [noMinus, noBracket, noFunction, named, if_false]
      · obtain ⟨noMinus, noBracket, noFunction⟩ := number.not_opening
        simp only [noMinus, noBracket, noFunction, number.not_constant, if_false,
          ofText?_eq_some_iff.2 ⟨number, worth⟩, Option.map_some]

end Opening

/-! ## Operators -/

namespace BinaryOp

/-- The operators of a precedence. -/
theorem atPrecedence?_eq_some_iff {p : Precedence} {lexeme : String} {op : BinaryOp} :
    atPrecedence? p lexeme = some op ↔ lexeme = op.symbol ∧ op.precedence = p := by
  rw [atPrecedence?, Option.filter_eq_some_iff, ofSymbol?_eq_some_iff, beq_iff_eq, eq_comm]

theorem mem_sumOperators_iff {lexeme : String} {op : BinaryOp} :
    (lexeme, op) ∈ sumOperators ↔ atPrecedence? .additive lexeme = some op := by
  rw [atPrecedence?_eq_some_iff]
  cases op <;> simp [sumOperators, symbol, precedence]

theorem mem_productOperators_iff {lexeme : String} {op : BinaryOp} :
    (lexeme, op) ∈ productOperators ↔ atPrecedence? .multiplicative lexeme = some op := by
  rw [atPrecedence?_eq_some_iff]
  cases op <;> simp [productOperators, symbol, precedence]

theorem eq_circumflex_iff {lexeme : String} :
    lexeme = "^" ↔ atPrecedence? .exponent lexeme = some .pow := by
  rw [atPrecedence?_eq_some_iff]
  simp [symbol, precedence]

/-- No other operator binds like a power. -/
theorem eq_pow_of_atPrecedence? {lexeme : String} {op : BinaryOp}
    (h : atPrecedence? .exponent lexeme = some op) : op = .pow := by
  have := (atPrecedence?_eq_some_iff.1 h).2
  cases op <;> first | rfl | simp [precedence] at this

end BinaryOp

end Calculator
