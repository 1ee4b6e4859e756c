import BeatShield.Proofs.Number.Bounds

/-! # Whole — the integer part of a double

    Integer parts are taken from the bits (`Binary.truncate`).  The bits
    are read there as they are unpacked for arithmetic (`ofFloat_eq`), so
    every finite double has an integer part, and it is that of the rational
    number which the double stands for (`truncate_value`).  The integer
    part of a number that is not negative is the greatest whole number up
    to it, and the sign of a number is left as it is. -/

namespace BeatShield

/-! ## Integer parts of rationals -/

namespace Scalar

variable {x : ℚ}

/-- What is not negative is truncated to the greatest whole number up to
    it. -/
theorem truncate_exact (h : 0 ≤ x) : Scalar.truncate x = .ok (⌊x⌋₊ : ℤ) := by
  show Except.ok (x.num.tdiv x.den) = _
  rw [Int.tdiv_eq_ediv_of_nonneg (Rat.num_nonneg.mpr h), ← Rat.floor_def',
    Int.natCast_floor_eq_floor h]

/-- Below zero the fraction is cut off towards zero. -/
theorem truncate_neg_exact (h : 0 ≤ x) : Scalar.truncate (-x) = .ok (-(⌊x⌋₊ : ℤ)) := by
  have hpos := Except.ok.inj (truncate_exact h)
  show Except.ok ((-x).num.tdiv (-x).den) = _
  rw [Rat.num_neg_eq_neg_num, Rat.den_neg_eq_den, Int.neg_tdiv, hpos]

/-- Nothing is left of an integer part that is negative. -/
theorem toNat_of_truncate {n : ℤ} (h : Scalar.truncate x = .ok n) : n.toNat = ⌊x⌋₊ := by
  rcases le_total 0 x with hx | hx
  · rw [truncate_exact hx] at h
    rw [← Except.ok.inj h, Int.toNat_natCast]
  · have hneg := truncate_neg_exact (neg_nonneg.mpr hx)
    rw [neg_neg, h] at hneg
    rw [Except.ok.inj hneg, Nat.floor_of_nonpos hx]
    exact Int.toNat_neg_natCast _

end Scalar

end BeatShield

namespace BeatShield.Double

open Float.Model (Format UnpackedFloat)
open Float.Model.UnpackedFloat

/-- What the unpacked form says that a double stands for. -/
def reading : UnpackedFloat → Binary
  | .notANumber => .nan
  | .infinity s => .infinite (s == .negative)
  | .zero s => .finite (s == .negative) 0 (-1074)
  | .finite s m e _ => .finite (s == .negative) m e

section Bits

variable (b : BitVec Format.binary64.numBits)

/-- The exponent field as a part of the 64 bits. -/
theorem toNat_unpackExponent : (unpackExponent b).toNat = b.toNat / 2 ^ 52 % 2 ^ 11 := by
  simp [unpackExponent, Nat.shiftRight_eq_div_pow]

theorem toNat_unpackMantissa : (unpackMantissa b).toNat = b.toNat % 2 ^ 52 := by
  simp [unpackMantissa]

/-- The topmost bit is the sign. -/
theorem sign_eq_negative :
    (Sign.ofBitVec (unpackSign b) == .negative) = decide (2 ^ 63 ≤ b.toNat) := by
  have hsign : (unpackSign b).toNat = b.toNat / 2 ^ 63 % 2 := by
    simp [unpackSign, Nat.shiftRight_eq_div_pow]
  have hlt : b.toNat < 2 ^ 64 := b.isLt
  rw [Sign.ofBitVec]
  by_cases hzero : unpackSign b = 0#1
  · have hbit : (unpackSign b).toNat = 0 := congrArg BitVec.toNat hzero
    rw [if_pos hzero, decide_eq_false (by omega)]
    rfl
  · have hbit : (unpackSign b).toNat ≠ 0 := fun h => hzero (BitVec.eq_of_toNat_eq h)
    rw [if_neg hzero, decide_eq_true (by omega)]
    rfl

end Bits

/-- What is read off the bits, in terms of their fields. -/
theorem ofBits_eq (bits : UInt64) :
    Binary.ofBits bits =
      let b : BitVec Format.binary64.numBits := bits.toBitVec
      let negative := Sign.ofBitVec (unpackSign b) == .negative
      let field := (unpackExponent b).toNat
      let fraction := (unpackMantissa b).toNat
      if field = 2047 then if fraction = 0 then .infinite negative else .nan
      else if field = 0 then .finite negative fraction (-1074)
      else .finite negative (2 ^ 52 + fraction) (field - 1075) := by
  simp only [toNat_unpackExponent, toNat_unpackMantissa, sign_eq_negative]
  rfl

/-- The bits are read as they are unpacked. -/
theorem ofFloat_eq (x : Float) : Binary.ofFloat x = reading x.toModel.unpack := by
  obtain ⟨b, hb⟩ : ∃ b : BitVec Format.binary64.numBits, b = x.toModel.toBits.toBitVec := ⟨_, rfl⟩
  have htop : unpackExponent b = -1#11 ↔ (unpackExponent b).toNat = 2047 :=
    BitVec.toNat_inj.symm
  have hbottom : unpackExponent b = 0#11 ↔ (unpackExponent b).toNat = 0 :=
    BitVec.toNat_inj.symm
  have hfraction : unpackMantissa b = 0#52 ↔ (unpackMantissa b).toNat = 0 :=
    BitVec.toNat_inj.symm
  show Binary.ofBits x.toModel.toBits = reading (unpack .binary64 x.toModel.toBits.toBitVec)
  rw [ofBits_eq, unpack, bias_eq, ← hb]
  simp only
  -- both readings split at the same two fields
  by_cases hall : (unpackExponent b).toNat = 2047
  · rw [if_pos hall, if_pos (htop.mpr hall)]
    by_cases hnone : (unpackMantissa b).toNat = 0
    · rw [if_pos hnone, if_pos (hfraction.mpr hnone)]
      rfl
    · rw [if_neg hnone, if_neg (mt hfraction.mp hnone)]
      rfl
  · rw [if_neg hall, if_neg (mt htop.mp hall)]
    by_cases hlowest : (unpackExponent b).toNat = 0
    · rw [if_pos hlowest, if_pos (hbottom.mpr hlowest), hlowest]
      by_cases hnone : (unpackMantissa b).toNat = 0
      · rw [dif_pos (hfraction.mpr hnone), hnone]
        rfl
      · rw [dif_neg (mt hfraction.mp hnone)]
        rfl
    · rw [if_neg hlowest, if_neg (mt hbottom.mp hlowest), reading, toNat_one_append]

/-! ## Integer parts -/

variable {x y : Float}

/-- Infinities and NaN have no integer part. -/
theorem truncate_of_not_finite (h : ¬ x.isFinite) :
    ∃ e, (Scalar.truncate x : Except NumberError ℤ) = .error e := by
  have h : ¬ x.toModel.unpack.isFinite := h
  show ∃ e, (Binary.ofFloat x).truncate = .error e
  rw [ofFloat_eq]
  cases hx : x.toModel.unpack <;> rw [hx] at h
  case infinity s => exact ⟨_, rfl⟩
  case notANumber => exact ⟨_, rfl⟩
  case zero | finite => exact absurd rfl h

/-- Every finite double has an integer part. -/
theorem truncate_of_finite (h : x.isFinite) : ∃ n, Scalar.truncate x = .ok n := by
  have h : x.toModel.unpack.isFinite := h
  show ∃ n, (Binary.ofFloat x).truncate = .ok n
  rw [ofFloat_eq]
  cases hx : x.toModel.unpack <;> rw [hx] at h
  case zero | finite => exact ⟨_, rfl⟩
  case infinity | notANumber => exact nomatch h

/-- A mantissa without the digits behind the point. -/
theorem floor_magnitude (m : ℕ) (e : ℤ) :
    ⌊(m : ℚ) * 2 ^ e⌋₊ = m * 2 ^ e.toNat / 2 ^ (-e).toNat := by
  have hvalue : (m : ℚ) * 2 ^ e = (m * 2 ^ e.toNat : ℕ) / (2 ^ (-e).toNat : ℕ) := by
    have hexponent : e = e.toNat - (-e).toNat := by omega
    push_cast
    rw [← zpow_natCast, ← zpow_natCast, mul_div_assoc, ← zpow_sub₀ (by norm_num), ← hexponent]
  rw [hvalue, Nat.floor_div_natCast, Nat.floor_natCast]

/-- A finite double has the integer part of the number it stands for. -/
theorem truncate_value (hx : x.isFinite) :
    (Scalar.truncate x : Except NumberError ℤ) = Scalar.truncate (value x) := by
  have hfinite : x.toModel.unpack.isFinite := hx
  show (Binary.ofFloat x).truncate = _
  rw [ofFloat_eq, value]
  cases hu : x.toModel.unpack <;> rw [hu] at hfinite
  case infinity | notANumber => exact absurd hfinite Bool.false_ne_true
  case zero s =>
      show (Binary.finite (s == .negative) 0 (-1074)).truncate = Scalar.truncate (0 : ℚ)
      rw [Binary.truncate, Nat.zero_mul, Nat.zero_div]
      cases s <;> rfl
  case finite s m e hm =>
      -- the bits are shifted to the left or to the right, which is a floor in
      -- both cases
      have hmagnitude := (magnitude_pos e hm).le
      have hfloor : m * twoTo e.toNat / twoTo (-e).toNat = ⌊(m : ℚ) * 2 ^ e⌋₊ :=
        (floor_magnitude m e).symm
      cases s with
      | negative =>
          show _ = Scalar.truncate (-((m : ℚ) * 2 ^ e))
          rw [Scalar.truncate_neg_exact hmagnitude, ← hfloor]
          rfl
      | positive =>
          show _ = Scalar.truncate ((m : ℚ) * 2 ^ e)
          rw [Scalar.truncate_exact hmagnitude, ← hfloor]
          rfl

/-- The integer part of what is not negative is the greatest whole number
    up to it. -/
theorem truncate_of_nonneg (hx : x.isFinite) (hpos : 0 ≤ value x) :
    Scalar.truncate x = .ok (⌊value x⌋₊ : ℤ) := by
  rw [truncate_value hx, Scalar.truncate_exact hpos]

/-- No double stands for two to the 1024. -/
theorem value_lt_limit (x : Float) : value x < limit := by
  have hcanonical := canonical_unpack x
  rw [value]
  cases hu : x.toModel.unpack with
  | infinity | notANumber | zero => exact limit_pos
  | finite s m e hm =>
      rw [hu] at hcanonical
      have hlt := hcanonical.1.lt_limit hcanonical.2
      have hmagnitude := magnitude_pos e hm
      cases s with
      | negative =>
          show -((m : ℚ) * 2 ^ e) < limit
          linarith
      | positive => exact hlt

theorem twoTo_add (m n : ℕ) : twoTo (m + n) = twoTo m * twoTo n := Nat.pow_add 2 m n

theorem twoTo_mono {m n : ℕ} (h : m ≤ n) : twoTo m ≤ twoTo n :=
  Nat.pow_le_pow_right Nat.two_pos h

theorem cast_twoTo (n : ℕ) : (twoTo n : ℚ) = 2 ^ n := Nat.cast_pow 2 n

/-- No integer part of a double reaches two to the 1024. -/
theorem floor_value_lt (x : Float) : ⌊value x⌋₊ < twoTo 1024 := by
  have hlt : value x < (twoTo 1024 : ℕ) := by
    rw [cast_twoTo]
    exact value_lt_limit x
  exact (Nat.floor_lt' (by decide +kernel)).mpr hlt

/-- Integer parts keep the order of what is not negative. -/
theorem truncate_within {n : ℤ} (h : Within 0.0 y x) (hy : Scalar.truncate y = .ok n) :
    ∃ k : ℤ, Scalar.truncate x = .ok k ∧ 0 ≤ k ∧ k ≤ n := by
  have hx₀ : 0 ≤ value x := h.low_value
  have hy₀ : 0 ≤ value y := hx₀.trans h.high_value
  rw [truncate_of_nonneg h.high_finite hy₀] at hy
  refine ⟨_, truncate_of_nonneg h.isFinite hx₀, Int.natCast_nonneg _, ?_⟩
  rw [← Except.ok.inj hy]
  exact_mod_cast Nat.floor_mono h.high_value

end BeatShield.Double
