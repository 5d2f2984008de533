import Calculator.Proofs.Pattern
import Calculator.Proofs.Rounding
import Calculator.Proofs.Terminal

/-!
# The text of a number

What is printed of a finite number that is not negative is a numeral, and the number that it writes
is the one that was printed.
-/

namespace Calculator.Number

/-! ## Digits -/

theorem digitsValue_append (as bs : List Char) :
    digitsValue (as ++ bs) = 10 ^ bs.length * digitsValue as + digitsValue bs := by
  show Nat.ofDigitChars 10 (as ++ bs) 0 = _
  rw [Nat.ofDigitChars_append, Nat.ofDigitChars_eq_ofDigitChars_zero]
  rfl

theorem digitsValue_replicate_zero (n : Nat) : digitsValue (List.replicate n '0') = 0 := by
  show Nat.ofDigitChars 10 (List.replicate n '0') 0 = 0
  rw [Nat.ofDigitChars_replicate_zero, Nat.mul_zero]

theorem digitsValue_toDigits (n : Nat) : digitsValue (Nat.toDigits 10 n) = n :=
  Nat.ofDigitChars_ten_toDigits

/-- The zeros at the end of a text, and what is in front of them. -/
theorem exists_zeros (cs : List Char) :
    ∃ n, cs = (cs.reverse.dropWhile (· == '0')).reverse ++ List.replicate n '0' := by
  have split := List.takeWhile_append_dropWhile (p := (· == '0')) (l := cs.reverse)
  have zeros : cs.reverse.takeWhile (· == '0')
      = List.replicate (cs.reverse.takeWhile (· == '0')).length '0' := by
    refine List.eq_replicate_of_mem ?_
    intro c hc
    simpa using List.mem_takeWhile_imp hc
  refine ⟨(cs.reverse.takeWhile (· == '0')).length, ?_⟩
  rw [zeros] at split
  rw [← List.reverse_replicate, ← List.reverse_append, split, List.reverse_reverse]

/-! ## Numerals -/

section Numerals

variable {whole places : List Char}

theorem fractionOf_whole (digits : ∀ c ∈ whole, c.isDigit) :
    fractionOf whole = (digitsValue whole, 1) := by
  unfold fractionOf
  dsimp only
  rw [List.takeWhile_eq_self_iff.2 digits, List.dropWhile_eq_nil_iff.2 digits, List.drop_nil,
    List.append_nil]
  rfl

theorem fractionOf_point (digits : ∀ c ∈ whole, c.isDigit) :
    fractionOf (whole ++ '.' :: places)
      = (digitsValue (whole ++ places), 10 ^ places.length) := by
  have run : (whole ++ '.' :: places).takeWhile Char.isDigit = whole := by
    rw [List.takeWhile_append_of_pos digits]
    show whole ++ [] = whole
    exact List.append_nil whole
  have rest : (whole ++ '.' :: places).dropWhile Char.isDigit = '.' :: places := by
    rw [List.dropWhile_append_of_pos digits]
    rfl
  unfold fractionOf
  dsimp only
  rw [run, rest]
  rfl

end Numerals

/-! ## Decimals -/

namespace Decimal

/-- All digits of a decimal, with zeros in front where the point would stand before the first. -/
def padded (d : Decimal) : List Char :=
  let digits := Nat.toDigits 10 d.fraction.1
  List.replicate (stepPlaces - d.place + 1 - digits.length) '0' ++ digits

theorem isDigit_of_mem_padded {d : Decimal} {c : Char} (h : c ∈ d.padded) : c.isDigit := by
  rcases List.mem_append.1 h with zero | digit
  · rw [(List.mem_replicate.1 zero).2]
    rfl
  · exact Nat.isDigit_of_mem_toDigits (by decide) (by decide) digit

theorem digitsValue_padded (d : Decimal) : digitsValue d.padded = d.fraction.1 := by
  unfold padded
  dsimp only
  rw [digitsValue_append, digitsValue_replicate_zero, Nat.mul_zero, Nat.zero_add,
    digitsValue_toDigits]

theorem lt_length_padded (d : Decimal) : stepPlaces - d.place < d.padded.length := by
  unfold padded
  dsimp only
  rw [List.length_append, List.length_replicate]
  omega

/-- The text of a decimal is made of its digits, cut in two at the point, without the zeros at the
end. -/
theorem exists_text (d : Decimal) : ∃ whole kept zeros,
    d.text = (if kept = [] then whole else whole ++ '.' :: kept) ∧ whole ≠ [] ∧
      d.padded = whole ++ (kept ++ List.replicate zeros '0') ∧
      kept.length + zeros = stepPlaces - d.place := by
  have longer := d.lt_length_padded
  -- The digits are cut where as many are left as there are decimal places.
  let whole := d.padded.take (d.padded.length - (stepPlaces - d.place))
  let behind := d.padded.drop (d.padded.length - (stepPlaces - d.place))
  have wholeLength : whole.length = d.padded.length - (stepPlaces - d.place) :=
    List.length_take_of_le (by omega)
  have behindLength : behind.length = stepPlaces - d.place := by
    rw [List.length_drop]
    omega
  obtain ⟨zeros, cut⟩ := exists_zeros behind
  refine ⟨whole, (behind.reverse.dropWhile (· == '0')).reverse, zeros, ?_, ?_, ?_, ?_⟩
  · rw [text]
    split
    · rename_i nothing
      exact (if_pos (List.reverse_eq_nil_iff.2 nothing)).symm
    · rename_i some
      exact (if_neg fun nothing => some (List.reverse_eq_nil_iff.1 nothing)).symm
  · intro none
    rw [none, List.length_nil] at wholeLength
    omega
  · rw [← cut]
    exact (List.take_append_drop _ _).symm
  · have lengths := congrArg List.length cut
    rw [List.length_append, List.length_replicate] at lengths
    omega

/-- The text of a decimal is a numeral for it. -/
theorem isNumeral_text (d : Decimal) : isNumeral d.text := by
  obtain ⟨whole, kept, zeros, spelled, nonempty, cut, -⟩ := d.exists_text
  have digits : ∀ c ∈ whole ++ (kept ++ List.replicate zeros '0'), c.isDigit := by
    rw [← cut]
    exact fun c hc => isDigit_of_mem_padded hc
  refine (isNumeralOver_iff (by decide)).2 ⟨whole, nonempty, ?_, ?_⟩
  · exact fun c hc => digits c (List.mem_append_left _ hc)
  · by_cases none : kept = []
    · rw [if_pos none] at spelled
      exact .inl spelled
    · rw [if_neg none] at spelled
      exact .inr ⟨kept, spelled, none, fun c hc => digits c (by simp [hc])⟩

/-- The text of a decimal writes its value. -/
theorem fractionOf_text (d : Decimal) :
    (fractionOf d.text).1 * d.fraction.2 = d.fraction.1 * (fractionOf d.text).2 := by
  obtain ⟨whole, kept, zeros, spelled, nonempty, cut, length⟩ := d.exists_text
  have value := d.digitsValue_padded
  have fraction : fractionOf d.text = (digitsValue (whole ++ kept), 10 ^ kept.length) := by
    have digits : ∀ c ∈ whole, c.isDigit :=
      fun c hc => isDigit_of_mem_padded (cut ▸ List.mem_append_left _ hc)
    rw [spelled]
    by_cases none : kept = []
    · rw [if_pos none, none, List.append_nil, fractionOf_whole digits]
      rfl
    · rw [if_neg none, fractionOf_point digits]
  rw [cut, ← List.append_assoc, digitsValue_append, digitsValue_replicate_zero, Nat.add_zero,
    List.length_replicate] at value
  rw [fraction, ← value]
  -- Both sides have the dropped zeros once, in the numerator or in the denominator.
  show digitsValue (whole ++ kept) * 10 ^ (stepPlaces - d.place) = _
  rw [← length, Nat.pow_add]
  ring

end Decimal

/-! ## Numbers -/

/-- A numeral has no minus sign in front. -/
theorem ofText?_of_isNumeral {cs : List Char} (h : isNumeral cs) :
    ofText? cs = some (ofNumeral cs) := by
  have unsigned : splitSign cs = (false, cs) := by
    unfold splitSign
    split
    · -- A minus sign is no digit.
      unfold isNumeral isNumeralOver at h
      simp at h
    · rfl
  unfold ofText?
  rw [unsigned]
  simp [h]

/-- What a decimal rounds to is what its text is read as. -/
theorem ofNumeral_text (d : Decimal) :
    ofNumeral d.text = ofPattern (nearestPattern d.fraction.1 d.fraction.2) := by
  have pos : 0 < d.fraction.2 := Nat.pow_pos (by decide)
  have posText : 0 < (fractionOf d.text).2 := Nat.pow_pos (by decide)
  unfold ofNumeral
  dsimp only
  rw [nearestPattern_congr posText pos d.fractionOf_text]

/-- A finite number that is not negative is printed as a numeral, which is read as the number. -/
theorem text_eq {x : Float} (finite : x.isFinite) (sign : isNegative x = false) :
    isNumeral (text x).toList ∧ ofText? (text x).toList = some x := by
  have below := (isFinite_iff x).1 finite
  have printed : (text x).toList = (shortest (magnitude x)).text := by
    unfold text magnitudeText
    rw [isNaN_eq_false finite, sign, if_neg (by decide), if_neg (by decide),
      if_neg (Nat.ne_of_lt below), String.toList_ofList]
  have numeral := (shortest (magnitude x)).isNumeral_text
  rw [printed]
  refine ⟨numeral, ?_⟩
  rw [ofText?_of_isNumeral numeral, ofNumeral_text, nearestPattern_shortest below,
    ofPattern_magnitude sign]

/-- The text of a number has digits in it, a point, and the letters and the sign of `NaN` and
`-inf`. -/
theorem not_mem_text {c : Char} (digit : c.isDigit = false)
    (other : c ∉ ['N', 'a', '-', 'i', 'n', 'f', '.']) (x : Float) : c ∉ (text x).toList := by
  simp only [List.mem_cons, List.not_mem_nil, or_false, not_or] at other
  obtain ⟨ne_N, ne_a, ne_sign, ne_i, ne_n, ne_f, ne_point⟩ := other
  have magnitude (pattern : Nat) : c ∉ magnitudeText pattern := by
    rw [magnitudeText]
    split
    · simp [ne_i, ne_n, ne_f]
    · intro mem
      rcases isDigit_or_eq_point (Decimal.isNumeral_text _) mem with h | h
      · rw [digit] at h
        cases h
      · exact ne_point h
  rw [text]
  split
  · show c ∉ ['N', 'a', 'N']
    simp [ne_N, ne_a]
  split
  · rw [String.toList_ofList, List.mem_cons, not_or]
    exact ⟨ne_sign, magnitude _⟩
  · rw [String.toList_ofList]
    exact magnitude _

end Calculator.Number
