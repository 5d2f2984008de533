import Calculator.Number.Nearest
import Mathlib

/-!
# Numbers and their bit patterns

A binary64 number is its bit pattern, and its sign, its exponent and its fraction are digits of that
pattern. The finite numbers are those whose pattern, without the sign, is below that of infinity.
-/

namespace Calculator.Number

open Float.Model UnpackedFloat

/-! ## Packed numbers -/

section Packed

variable (b : BitVec Format.binary64.numBits)

theorem toNat_unpackExponent : (unpackExponent b).toNat = b.toNat / 2 ^ 52 % 2 ^ 11 := by
  simp [unpackExponent, Nat.shiftRight_eq_div_pow]

theorem toBitVec_ofBitVec (s : BitVec 1) : (Sign.ofBitVec s).toBitVec = s := by
  unfold Sign.ofBitVec
  split
  · rename_i zero
    exact zero.symm
  · rename_i other
    show 1#1 = s
    apply BitVec.eq_of_toNat_eq
    have := s.isLt
    have : s.toNat ≠ 0 := fun zero => other (BitVec.eq_of_toNat_eq zero)
    show 1 = s.toNat
    omega

theorem toNat_unpackMantissa : (unpackMantissa b).toNat = b.toNat % 2 ^ 52 := by
  simp [unpackMantissa]

/-- A pattern consists of its sign, its exponent and its fraction. -/
theorem eq_packComponents :
    b = packComponents Format.binary64 (Sign.ofBitVec (unpackSign b)) (unpackExponent b)
      (unpackMantissa b) := by
  unfold packComponents
  rw [toBitVec_ofBitVec]
  apply BitVec.eq_of_getLsbD_eq
  intro i hi
  simp [unpackSign, unpackExponent, unpackMantissa]
  grind

/-- A number below exponent field one is packed with its fraction as it is. -/
theorem pack_subnormal (s : Sign) {m : Nat} (pos : 0 < m) (lt : m < 2 ^ 52) :
    UnpackedFloat.pack Format.binary64 (.finite s m (-1074) pos)
      = packComponents Format.binary64 s 0 (BitVec.ofNat 52 m) := by
  have short : ¬ m.log2 + 1 = 53 := by
    have := (Nat.log2_lt (Nat.pos_iff_ne_zero.1 pos)).2 lt
    omega
  unfold UnpackedFloat.pack
  exact if_neg short

/-- From exponent field one on, the first bit of the significand is left out. -/
theorem pack_normal (s : Sign) {e m : Nat} (pos : 0 < 2 ^ 52 + m) (lt : m < 2 ^ 52)
    (he : e < 2047) :
    UnpackedFloat.pack Format.binary64 (.finite s (2 ^ 52 + m) (e - 1075) pos)
      = packComponents Format.binary64 s (BitVec.ofNat 11 e) (BitVec.ofNat 52 m) := by
  -- With the hidden bit, the significand has 53 bits.
  have long : (2 ^ 52 + m).log2 = 52 := by
    rw [Nat.log2_eq_iff (by omega)]
    omega
  have field : ((e : Int) - 1075 + Format.binary64.exponentBias
      + Format.binary64.mantissaBitsWithoutImplicit).toNat = e := by
    show ((e : Int) - 1075 + 1023 + 52).toNat = e
    omega
  have fraction : BitVec.ofNat 52 (2 ^ 52 + m) = BitVec.ofNat 52 m := by
    apply BitVec.eq_of_toNat_eq
    rw [BitVec.toNat_ofNat, BitVec.toNat_ofNat, Nat.add_mod_left]
  unfold UnpackedFloat.pack
  dsimp only
  rw [field, long, if_neg (by show ¬ 2 ^ 11 ≤ e + 1; omega), fraction]
  rfl

/-- Nothing is lost when a pattern is unpacked, but for the spelling of what is not a number. -/
theorem pack_unpack (valid : Format.binary64.Valid b) :
    UnpackedFloat.pack Format.binary64 (UnpackedFloat.unpack Format.binary64 b) = b := by
  have self := eq_packComponents b
  unfold UnpackedFloat.unpack
  dsimp only
  by_cases top : unpackExponent b = -1#11
  · rw [if_pos top]
    by_cases whole : unpackMantissa b = 0#52
    · rw [if_pos whole]
      rw [top, whole] at self
      exact self.symm
    · rw [if_neg whole]
      exact (valid.eq_packedNaN top whole).symm
  rw [if_neg top]
  by_cases bottom : unpackExponent b = 0#11
  · rw [if_pos bottom]
    split
    · rename_i zero
      rw [bottom, zero] at self
      exact self.symm
    -- Subnormal numbers have the exponent of field one.
    · have least : ((unpackExponent b).toNat : Int) - (Format.binary64.exponentBias
          + Format.binary64.mantissaBitsWithoutImplicit) + 1 = -1074 := by
        rw [bottom]
        rfl
      simp only [least]
      rw [pack_subnormal _ _ (unpackMantissa b).isLt, BitVec.ofNat_toNat, BitVec.setWidth_eq]
      rw [bottom] at self
      exact self.symm
  · rw [if_neg bottom]
    have bias : ((Format.binary64.exponentBias : Int)
        + Format.binary64.mantissaBitsWithoutImplicit) = 1075 := rfl
    -- All other exponents are fields from 1 to 2046.
    have notTop : (unpackExponent b).toNat < 2047 := by
      have : (unpackExponent b).toNat < 2048 := (unpackExponent b).isLt
      have : (unpackExponent b).toNat ≠ 2047 := fun all => top (BitVec.eq_of_toNat_eq all)
      omega
    have significand : (1#1 ++ unpackMantissa b).toNat = 2 ^ 52 + (unpackMantissa b).toNat := by
      rw [BitVec.toNat_append, ← Nat.shiftLeft_add_eq_or_of_lt (unpackMantissa b).isLt]
      rfl
    simp only [bias, significand]
    rw [pack_normal _ _ (unpackMantissa b).isLt notTop, BitVec.ofNat_toNat, BitVec.ofNat_toNat,
      BitVec.setWidth_eq, BitVec.setWidth_eq]
    exact self.symm

end Packed

/-! ## Numbers -/

/-- A number is what its bits say. -/
theorem ofBits_toBits (x : Float) : Float.ofBits x.toBits = x := by
  rcases x with ⟨bits, valid⟩
  show Float.ofModel (.ofBits bits) = _
  rw [Float.ofModel.injEq, Float.Model.mk.injEq]
  show UInt64.ofBitVec (UnpackedFloat.pack Format.binary64
    (UnpackedFloat.unpack Format.binary64 bits.toBitVec)) = bits
  rw [pack_unpack _ valid]

/-- The exponent of a finite number is not the highest. -/
theorem isFinite_unpack (b : BitVec Format.binary64.numBits) :
    (UnpackedFloat.unpack Format.binary64 b).isFinite = true ↔ unpackExponent b ≠ -1#11 := by
  unfold UnpackedFloat.unpack
  dsimp only
  by_cases top : unpackExponent b = -1#11
  · rw [if_pos top]
    constructor
    · intro h
      split at h <;> cases h
    · intro h
      exact absurd top h
  · rw [if_neg top]
    refine ⟨fun _ => top, fun _ => ?_⟩
    split
    · split <;> rfl
    · rfl

/-- The finite numbers have the patterns below that of infinity. -/
theorem isFinite_iff (x : Float) : x.isFinite ↔ magnitude x < infinityPattern := by
  show (UnpackedFloat.unpack Format.binary64 x.toBits.toBitVec).isFinite = true ↔ _
  rw [isFinite_unpack, Ne, ← BitVec.toNat_inj, toNat_unpackExponent]
  have := x.toBits.toNat_lt
  show x.toBits.toNat / 2 ^ 52 % 2 ^ 11 ≠ 2047 ↔ x.toBits.toNat % 2 ^ 63 < 2047 * 2 ^ 52
  omega

/-- A finite number is one. -/
theorem isNaN_eq_false {x : Float} (h : x.isFinite) : x.isNaN = false := by
  change (UnpackedFloat.unpack Format.binary64 x.toBits.toBitVec).isFinite = true at h
  show (UnpackedFloat.unpack Format.binary64 x.toBits.toBitVec).isNaN = false
  cases unpacked : UnpackedFloat.unpack Format.binary64 x.toBits.toBitVec with
  | notANumber =>
    rw [unpacked] at h
    cases h
  | infinity s => rfl
  | zero s => rfl
  | finite s m e pos => rfl

/-- A number without a minus sign is found at its pattern. -/
theorem ofPattern_magnitude {x : Float} (h : isNegative x = false) :
    ofPattern (magnitude x) = x := by
  have lt : x.toBits.toNat < 2 ^ 63 := by
    unfold isNegative at h
    simpa using h
  unfold ofPattern magnitude
  rw [Nat.mod_eq_of_lt lt, UInt64.ofNat_toNat, ofBits_toBits]

/-! ## Patterns without a minus sign -/

/-- Up to infinity, no pattern spells what is not a number. -/
theorem unpackMantissa_eq_zero {b : BitVec Format.binary64.numBits}
    (le : b.toNat ≤ infinityPattern) (top : unpackExponent b = -1#11) :
    unpackMantissa b = 0#52 := by
  rw [← BitVec.toNat_inj, toNat_unpackExponent] at top
  rw [← BitVec.toNat_inj, toNat_unpackMantissa]
  -- The only pattern left with the highest exponent is that of infinity.
  change b.toNat / 2 ^ 52 % 2 ^ 11 = 2047 at top
  change b.toNat % 2 ^ 52 = 0
  unfold infinityPattern at le
  omega

section NotNegative

variable {pattern : Nat}

theorem toNat_ofNat_pattern (le : pattern ≤ infinityPattern) :
    (UInt64.ofNat pattern).toNat = pattern := by
  unfold infinityPattern at le
  rw [UInt64.toNat_ofNat']
  omega

/-- Up to infinity, a number has the bits of the pattern that it was made of. -/
theorem toBits_ofPattern (le : pattern ≤ infinityPattern) :
    (ofPattern pattern).toBits = UInt64.ofNat pattern := by
  have bits : (UInt64.ofNat pattern).toBitVec.toNat ≤ infinityPattern := by
    rw [UInt64.toNat_toBitVec, toNat_ofNat_pattern le]
    exact le
  have valid : Format.binary64.Valid (UInt64.ofNat pattern).toBitVec :=
    ⟨fun top fraction => absurd (unpackMantissa_eq_zero bits top) fraction⟩
  show UInt64.ofBitVec (UnpackedFloat.pack Format.binary64
    (UnpackedFloat.unpack Format.binary64 (UInt64.ofNat pattern).toBitVec)) = _
  rw [pack_unpack _ valid]

/-- What is made of a pattern has no minus sign. -/
theorem isNegative_ofPattern (le : pattern ≤ infinityPattern) :
    isNegative (ofPattern pattern) = false := by
  unfold isNegative
  rw [toBits_ofPattern le, toNat_ofNat_pattern le]
  unfold infinityPattern at le
  simp only [decide_eq_false_iff_not]
  omega

/-- What is made of a pattern is a number. -/
theorem isNaN_ofPattern (le : pattern ≤ infinityPattern) : (ofPattern pattern).isNaN = false := by
  have bits : (ofPattern pattern).toBits.toBitVec.toNat ≤ infinityPattern := by
    rw [toBits_ofPattern le, UInt64.toNat_toBitVec, toNat_ofNat_pattern le]
    exact le
  show (UnpackedFloat.unpack Format.binary64 (ofPattern pattern).toBits.toBitVec).isNaN = false
  unfold UnpackedFloat.unpack
  dsimp only
  split
  · rename_i top
    rw [if_pos (unpackMantissa_eq_zero bits top)]
    rfl
  · split
    · split <;> rfl
    · rfl

end NotNegative

end Calculator.Number
