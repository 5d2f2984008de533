import Calculator.Number.Shortest
import Mathlib.Tactic.Ring

/-!
# Rounding back

What `nearestPattern` answers depends on the value of a fraction only, and a finite number is
rounded to itself. The search for the shortest decimal takes only what rounds back, and at its end
the number itself, so what it finds rounds back too.
-/

namespace Calculator.Number

/-! ## Fractions -/

theorem roundHalfEven_mul (num den : Nat) {k : Nat} (pos : 0 < k) :
    roundHalfEven (num * k) (den * k) = roundHalfEven num den := by
  have twice : 2 * (num * k % (den * k)) = 2 * (num % den) * k := by
    rw [Nat.mul_mod_mul_right, Nat.mul_assoc]
  unfold roundHalfEven
  dsimp only
  rw [twice, Nat.mul_div_mul_right _ _ pos]
  simp only [Nat.mul_lt_mul_right pos]

/-- A whole number is rounded to itself. -/
theorem roundHalfEven_mul_self (n : Nat) {den : Nat} (pos : 0 < den) :
    roundHalfEven (n * den) den = n := by
  unfold roundHalfEven
  dsimp only
  rw [Nat.mul_mod_left, Nat.mul_div_cancel _ pos, if_pos (by omega)]

/-- A fraction may be expanded. -/
theorem nearestPattern_mul (num den : Nat) {k : Nat} (pos : 0 < k) :
    nearestPattern (num * k) (den * k) = nearestPattern num den := by
  have scaled : num * k * unitsPerOne = num * unitsPerOne * k := Nat.mul_right_comm num k _
  have dens (shift : Nat) : den * k * 2 ^ shift = den * 2 ^ shift * k := Nat.mul_right_comm den k _
  unfold nearestPattern
  dsimp only
  rw [scaled, Nat.mul_div_mul_right _ _ pos, dens, roundHalfEven_mul _ _ pos]

/-- Equal fractions are rounded to the same number. -/
theorem nearestPattern_congr {a b c d : Nat} (hb : 0 < b) (hd : 0 < d) (h : a * d = c * b) :
    nearestPattern a b = nearestPattern c d := by
  rw [← nearestPattern_mul a b hd, ← nearestPattern_mul c d hb, h, Nat.mul_comm b d]

/-! ## Finite numbers -/

/-- A significand of 53 bits, shifted, has as many bits more as it is shifted by. -/
theorem log2_mul_two_pow {m : Nat} (low : 2 ^ 52 ≤ m) (high : m < 2 ^ 53) (k : Nat) :
    (m * 2 ^ k).log2 = 52 + k := by
  have pos := Nat.two_pow_pos k
  have nonzero : m * 2 ^ k ≠ 0 := Nat.mul_ne_zero (by omega) (by omega)
  rw [Nat.log2_eq_iff nonzero]
  constructor
  · rw [Nat.pow_add]
    exact Nat.mul_le_mul_right _ low
  · rw [Nat.add_right_comm, Nat.pow_add]
    exact Nat.mul_lt_mul_of_pos_right high pos

/-- A number is rounded to itself, over any denominator. -/
theorem nearestPattern_of_eq_unitsOf {num den pattern : Nat} (pos : 0 < den)
    (h : num * unitsPerOne = unitsOf pattern * den) (finite : pattern < infinityPattern) :
    nearestPattern num den = pattern := by
  unfold nearestPattern
  dsimp only
  rw [h, Nat.mul_div_cancel _ pos]
  by_cases subnormal : pattern < 2 ^ 52
  · have units : unitsOf pattern = pattern := if_pos subnormal
    have shift : pattern.log2 - 52 = 0 := by
      by_cases zero : pattern = 0
      · rw [zero]
        rfl
      · have := (Nat.log2_lt zero).2 subnormal
        omega
    rw [units, shift, Nat.pow_zero, Nat.mul_one, Nat.zero_mul, Nat.add_zero,
      roundHalfEven_mul_self _ pos]
    exact Nat.min_eq_left (Nat.le_of_lt finite)
  · -- Above the subnormal numbers, just the bits that a shift has added are cut off.
    have units : unitsOf pattern
        = (2 ^ 52 + pattern % 2 ^ 52) * 2 ^ (pattern / 2 ^ 52 - 1) := if_neg subnormal
    have shift : (unitsOf pattern).log2 - 52 = pattern / 2 ^ 52 - 1 := by
      rw [units, log2_mul_two_pow (by omega) (by omega)]
      omega
    have expanded : unitsOf pattern * den
        = (2 ^ 52 + pattern % 2 ^ 52) * (den * 2 ^ (pattern / 2 ^ 52 - 1)) := by
      rw [units]
      ring
    rw [shift, expanded, roundHalfEven_mul_self _ (Nat.mul_pos pos (Nat.two_pow_pos _))]
    have whole : 2 ^ 52 + pattern % 2 ^ 52 + (pattern / 2 ^ 52 - 1) * 2 ^ 52 = pattern := by omega
    rw [whole]
    exact Nat.min_eq_left (Nat.le_of_lt finite)

/-! ## The shortest decimal -/

theorem stepsOf_mul_unitsPerOne (pattern : Nat) :
    stepsOf pattern * unitsPerOne = unitsOf pattern * 10 ^ stepPlaces := by
  unfold stepsOf unitsPerOne stepPlaces
  -- A closed power of this size would be evaluated.
  generalize 1074 = places
  rw [Nat.mul_assoc, ← Nat.mul_pow]

/-- The number itself, in steps, is rounded to itself. -/
theorem roundsTo_steps {pattern : Nat} (finite : pattern < infinityPattern) :
    (⟨stepsOf pattern, 0⟩ : Decimal).roundsTo pattern := by
  unfold Decimal.roundsTo Decimal.fraction
  rw [beq_iff_eq]
  dsimp only
  rw [Nat.zero_sub, Nat.pow_zero, Nat.mul_one, Nat.sub_zero]
  exact nearestPattern_of_eq_unitsOf (Nat.pow_pos (by decide)) (stepsOf_mul_unitsPerOne _) finite

/-- A hit on a grid rounds back. -/
theorem roundsTo_of_onGrid? {pattern steps place : Nat} {d : Decimal}
    (h : onGrid? pattern steps place = some d) : d.roundsTo pattern := by
  unfold onGrid? at h
  dsimp only at h
  split at h
  · rename_i down
    cases h
    simp only [Bool.and_eq_true] at down
    exact down.1
  · split at h
    · rename_i up
      cases h
      exact up
    · cases h

/-- The search ends with a hit if the last grid has one. -/
theorem roundsTo_shortestFrom {pattern steps : Nat} (last : (⟨steps, 0⟩ : Decimal).roundsTo pattern)
    (place : Nat) : (shortestFrom pattern steps place).roundsTo pattern := by
  induction place with
  | zero => exact last
  | succ place ih =>
    rw [shortestFrom]
    -- Whatever a grid offers was tried before.
    cases hit : onGrid? pattern steps (place + 1) with
    | some d => exact roundsTo_of_onGrid? hit
    | none => exact ih

/-- The decimal that is printed rounds back to its number. -/
theorem nearestPattern_shortest {pattern : Nat} (finite : pattern < infinityPattern) :
    nearestPattern (shortest pattern).fraction.1 (shortest pattern).fraction.2 = pattern := by
  have back : (shortest pattern).roundsTo pattern := by
    unfold shortest
    exact roundsTo_shortestFrom (roundsTo_steps finite) _
  unfold Decimal.roundsTo at back
  exact beq_iff_eq.1 back

end Calculator.Number
