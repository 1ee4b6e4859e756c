import BeatShield.Proofs.Number.Rounding

/-! # Arithmetic — each operation rounds its exact result

    For finite doubles the sum, difference, product and quotient are the
    doubles for the exact results (`rounds_add` and so on).  Rounding
    keeps the order (`Rounds.mono`) and changes no double
    (`rounds_value`).  -/

namespace BeatShield.Double

open Float.Model (Format UnpackedFloat totalExponent)
open Float.Model.UnpackedFloat

/-! ## Signs -/

/-- The signs of factors multiply as the factors do. -/
theorem signed_mul (s₁ s₂ : Sign) (p₁ p₂ : ℚ) :
    signed (s₁ * s₂) (p₁ * p₂) = signed s₁ p₁ * signed s₂ p₂ := by
  cases s₁ <;> cases s₂
  · show p₁ * p₂ = -p₁ * -p₂
    ring
  · show -(p₁ * p₂) = -p₁ * p₂
    ring
  · show -(p₁ * p₂) = p₁ * -p₂
    ring
  · rfl

theorem signed_div (s₁ s₂ : Sign) (p₁ p₂ : ℚ) :
    signed (s₁ / s₂) (p₁ / p₂) = signed s₁ p₁ / signed s₂ p₂ := by
  cases s₁ <;> cases s₂
  · exact (neg_div_neg_eq p₁ p₂).symm
  · exact (neg_div p₂ p₁).symm
  · exact (div_neg p₁).symm
  · rfl

theorem signed_zero (s : Sign) : signed s 0 = 0 := by
  cases s
  · exact neg_zero
  · rfl

/-- Zero is rounded to a zero of either sign. -/
theorem rounded_zero (s : Sign) : Rounded 0 (.zero s) :=
  ⟨s, 0, le_rfl, signed_zero s, rfl, nearestAbove_zero⟩

/-! ## Doubles are not changed -/

/-- A mantissa and exponent that fit stand for a number that is its own
    nearest. -/
theorem nearestAbove_of_fitted {m : ℕ} {e : ℤ} (hm : 0 < m) (h : Fitted m e) :
    nearestAbove (m * 2 ^ e) = m * 2 ^ e := by
  have hlt : (m : ℚ) < 2 ^ 53 := mod_cast h.mantissa_lt
  have hstep : step (m * 2 ^ e) = e := by
    refine step_eq (magnitude_pos e hm) h.exponent_ge (by gcongr) ?_
    intro he
    have hle : (2 : ℚ) ^ 52 ≤ m := mod_cast h.normal he
    gcongr
  rw [nearestAbove, hstep, mul_div_cancel_right₀ _ (by positivity), halfEven_natCast]

/-- A finite double is what its own value is rounded to. -/
theorem rounded_rational {u : UnpackedFloat} (h : Canonical u) (hu : u.isFinite) :
    Rounded (rational u) u := by
  cases u with
  | infinity | notANumber => exact nomatch hu
  | zero s => exact rounded_zero s
  | finite s m e hm =>
      have hsame := nearestAbove_of_fitted hm h.1
      exact ⟨s, m * 2 ^ e, (magnitude_pos e hm).le, rfl, rfl, h.1, hsame⟩

/-! ## Sums -/

/-- Normalising a whole mantissa rounds what it stands for. -/
theorem rounded_normalize (n e : ℤ) (s : Sign) :
    Rounded (n * 2 ^ e) (normalize .binary64 n e s) := by
  rw [UnpackedFloat.normalize]
  rcases lt_trichotomy n 0 with hn | rfl | hn
  · obtain ⟨m, hm⟩ := Int.eq_ofNat_of_zero_le (show 0 ≤ -n by omega)
    obtain rfl : n = -m := by omega
    rw [compare_lt_iff_lt.mpr hn, neg_neg]
    -- a negative mantissa is rounded by its size, and keeps its sign
    refine ⟨.negative, m * 2 ^ e, by positivity, ?_, represents_round _ e (by omega)⟩
    show -((m : ℚ) * 2 ^ e) = ((-m : ℤ) : ℚ) * 2 ^ e
    push_cast
    ring
  · rw [compare_eq_iff_eq.mpr rfl, Int.cast_zero, zero_mul]
    exact rounded_zero s
  · obtain ⟨m, rfl⟩ := Int.eq_ofNat_of_zero_le hn.le
    rw [compare_gt_iff_gt.mpr hn]
    exact ⟨.positive, m * 2 ^ e, by positivity, rfl, represents_round _ e (by omega)⟩

/-- A number with its mantissa brought to a lower exponent. -/
theorem apply_decreaseExponent (s : Sign) (m : ℕ) {e t : ℤ} (h : t ≤ e) :
    ((s.apply (decreaseExponent m e t).1 : ℤ) : ℚ) * 2 ^ t = signed s (m * 2 ^ e) := by
  have hvalue : ((m <<< (e - t).toNat : ℕ) : ℚ) * 2 ^ t = m * 2 ^ e := by
    have hexponent : e = (e - t).toNat + t := by omega
    calc ((m <<< (e - t).toNat : ℕ) : ℚ) * 2 ^ t = m * 2 ^ (e - t).toNat * 2 ^ t := by
          rw [Nat.shiftLeft_eq]
          push_cast
          rfl
      _ = m * 2 ^ ((e - t).toNat + t : ℤ) := by
          rw [zpow_add₀ (by norm_num), zpow_natCast, mul_assoc]
      _ = m * 2 ^ e := by rw [← hexponent]
  cases s with
  | negative =>
      show ((-((m <<< (e - t).toNat : ℕ) : ℤ) : ℤ) : ℚ) * 2 ^ t = -(m * 2 ^ e)
      rw [Int.cast_neg, Int.cast_natCast, neg_mul, hvalue]
  | positive => exact hvalue

/-- A sum of finite doubles is computed as the rounded exact sum. -/
theorem rounded_add {u v : UnpackedFloat} (hu : Canonical u) (hv : Canonical v)
    (hfu : u.isFinite) (hfv : v.isFinite) :
    Rounded (rational u + rational v) (add .binary64 u v) := by
  cases u with
  | infinity | notANumber => exact nomatch hfu
  | zero s₁ =>
      cases v with
      | infinity | notANumber => exact nomatch hfv
      | zero s₂ =>
          show Rounded (0 + 0) (if s₁ == s₂ then .zero s₁ else .zero .positive)
          rw [add_zero]
          split <;> exact rounded_zero _
      | finite s₂ m₂ e₂ hm₂ =>
          show Rounded (0 + _) (.finite s₂ m₂ e₂ hm₂)
          rw [zero_add]
          exact rounded_rational hv hfv
  | finite s₁ m₁ e₁ hm₁ =>
      cases v with
      | infinity | notANumber => exact nomatch hfv
      | zero s₂ =>
          show Rounded (_ + 0) (.finite s₁ m₁ e₁ hm₁)
          rw [add_zero]
          exact rounded_rational hu hfu
      | finite s₂ m₂ e₂ hm₂ =>
          -- at the lower exponent both are whole numbers, and so is their sum
          have hsum : rational (.finite s₁ m₁ e₁ hm₁) + rational (.finite s₂ m₂ e₂ hm₂)
              = ((s₁.apply (decreaseExponent m₁ e₁ (min e₁ e₂)).1
                + s₂.apply (decreaseExponent m₂ e₂ (min e₁ e₂)).1 : ℤ) : ℚ) * 2 ^ min e₁ e₂ := by
            rw [Int.cast_add, add_mul, apply_decreaseExponent s₁ m₁ (min_le_left _ _),
              apply_decreaseExponent s₂ m₂ (min_le_right _ _)]
            rfl
          rw [hsum]
          exact rounded_normalize _ _ _

/-- Negation negates the value, also of what is no number. -/
theorem rational_neg (u : UnpackedFloat) : rational u.neg = -rational u := by
  cases u with
  | notANumber | infinity | zero => exact neg_zero.symm
  | finite s m e hm =>
      cases s with
      | negative => exact (neg_neg _).symm
      | positive => rfl

theorem canonical_neg {u : UnpackedFloat} (h : Canonical u) : Canonical u.neg := by
  cases u with
  | finite s m e hm => exact h
  | _ => trivial

/-- A difference is the sum with the negated double. -/
theorem sub_eq_add_negated (u v : UnpackedFloat) : sub .binary64 u v = add .binary64 u v.neg := by
  cases u with
  | finite s₁ m₁ e₁ hm₁ =>
      cases v with
      | finite s₂ m₂ e₂ hm₂ =>
          cases s₂ with
          | negative => exact congrArg (normalize .binary64 · _ .positive) (sub_neg_eq_add _ _)
          | positive => rfl
      | _ => rfl
  | _ => cases v <;> rfl

/-- A difference is the sum with the negated second number. -/
theorem rounded_sub {u v : UnpackedFloat} (hu : Canonical u) (hv : Canonical v)
    (hfu : u.isFinite) (hfv : v.isFinite) :
    Rounded (rational u - rational v) (sub .binary64 u v) := by
  have hfneg : v.neg.isFinite := by
    cases v with
    | infinity | notANumber => exact nomatch hfv
    | _ => rfl
  rw [sub_eq_add_negated, sub_eq_add_neg, ← rational_neg]
  exact rounded_add hu (canonical_neg hv) hfu hfneg

/-! ## Products -/

/-- A product has all digits in front of the cut: unless both factors are
    at the lowest exponent, one of them has 53 digits. -/
theorem product_cut {m₁ m₂ : ℕ} {e₁ e₂ : ℤ} (h₁ : Fitted m₁ e₁) (h₂ : Fitted m₂ e₂)
    (hm₁ : 0 < m₁) (hm₂ : 0 < m₂) :
    e₁ + e₂ ≤ max ((m₁ * m₂).log2 + 1 + (e₁ + e₂) - 53) (-1074) := by
  have hpos : m₁ * m₂ ≠ 0 := (Nat.mul_pos hm₁ hm₂).ne'
  have hdigits : 2 ^ 52 ≤ m₁ * m₂ → 52 ≤ (m₁ * m₂).log2 := (Nat.le_log2 hpos).mpr
  by_cases he₁ : -1074 < e₁
  · have hlarge := hdigits ((h₁.normal he₁).trans (Nat.le_mul_of_pos_right m₁ hm₂))
    omega
  by_cases he₂ : -1074 < e₂
  · have hlarge := hdigits ((h₂.normal he₂).trans (Nat.le_mul_of_pos_left m₂ hm₁))
    omega
  -- otherwise nothing of the product is as small as the lowest step
  omega

/-- A product is computed exactly and then rounded. -/
theorem rounded_mul {u v : UnpackedFloat} (hu : Canonical u) (hv : Canonical v)
    (hfu : u.isFinite) (hfv : v.isFinite) :
    Rounded (rational u * rational v) (mul .binary64 u v) := by
  cases u with
  | infinity | notANumber => exact nomatch hfu
  | zero s₁ =>
      cases v with
      | infinity | notANumber => exact nomatch hfv
      | zero s₂ =>
          show Rounded (0 * 0) (.zero (s₁ * s₂))
          rw [mul_zero]
          exact rounded_zero _
      | finite s₂ m₂ e₂ hm₂ =>
          show Rounded (0 * _) (.zero (s₁ * s₂))
          rw [zero_mul]
          exact rounded_zero _
  | finite s₁ m₁ e₁ hm₁ =>
      cases v with
      | infinity | notANumber => exact nomatch hfv
      | zero s₂ =>
          show Rounded (_ * 0) (.zero (s₁ * s₂))
          rw [mul_zero]
          exact rounded_zero _
      | finite s₂ m₂ e₂ hm₂ =>
          -- both factors have 53 digits at most, so the product is exact
          -- before it is cut
          have hpos := Nat.mul_pos hm₁ hm₂
          have hproduct : ((m₁ * m₂ : ℕ) : ℚ) * 2 ^ (e₁ + e₂) = m₁ * 2 ^ e₁ * (m₂ * 2 ^ e₂) := by
            rw [zpow_add₀ (by norm_num)]
            push_cast
            ring
          refine ⟨s₁ * s₂, ((m₁ * m₂ : ℕ) : ℚ) * 2 ^ (e₁ + e₂), by positivity, ?_, ?_⟩
          · rw [hproduct]
            exact signed_mul _ _ _ _
          · exact represents_roundWithAccuracy _ (by positivity) (stands_exact _)
              (product_cut hu.1 hv.1 hm₁ hm₂) (fun hzero => absurd hzero hpos.ne')

/-! ## Quotients -/

/-- What is left over of a division says how the quotient is rounded. -/
theorem stands_quotient {m d : ℕ} (hd : 0 < d) :
    Stands (.ofMantissaAndAccuracy (m / d) (accuracyOfFraction (m % d) d)) (m / d) := by
  have hdpos : (0 : ℚ) < d := mod_cast hd
  have hrest : (m : ℚ) / d - (m / d : ℕ) = (m % d : ℕ) / d := by
    have hsplit : (d : ℚ) * (m / d : ℕ) + (m % d : ℕ) = m := mod_cast Nat.div_add_mod m d
    field_simp
    linarith
  have hlt : ((m % d : ℕ) : ℚ) < d := mod_cast Nat.mod_lt m hd
  rw [accuracyOfFraction]
  by_cases hzero : m % d = 0
  · rw [if_pos hzero]
    show (m : ℚ) / d - (m / d : ℕ) = 0
    rw [hrest, hzero, Nat.cast_zero, zero_div]
  · have hpos : (0 : ℚ) < (m % d : ℕ) := mod_cast Nat.pos_of_ne_zero hzero
    rw [if_neg hzero]
    -- the remainder is compared with half the divisor, as the guard bits are
    rcases lt_trichotomy (2 * (m % d)) d with hcmp | hcmp | hcmp
    · have hhalf : 2 * ((m % d : ℕ) : ℚ) < d := mod_cast hcmp
      rw [compare_lt_iff_lt.mpr hcmp]
      show 0 < (m : ℚ) / d - (m / d : ℕ) ∧ (m : ℚ) / d - (m / d : ℕ) < 1 / 2
      rw [hrest, lt_div_iff₀ hdpos, div_lt_iff₀ hdpos]
      constructor <;> linarith
    · have hhalf : 2 * ((m % d : ℕ) : ℚ) = d := mod_cast hcmp
      rw [compare_eq_iff_eq.mpr hcmp]
      show (m : ℚ) / d - (m / d : ℕ) = 1 / 2
      rw [hrest, div_eq_iff hdpos.ne']
      linarith
    · have hhalf : (d : ℚ) < 2 * (m % d : ℕ) := mod_cast hcmp
      rw [compare_gt_iff_gt.mpr hcmp]
      show 1 / 2 < (m : ℚ) / d - (m / d : ℕ) ∧ (m : ℚ) / d - (m / d : ℕ) < 1
      rw [hrest, lt_div_iff₀ hdpos, div_lt_iff₀ hdpos]
      constructor <;> linarith

/-- A quotient of whole numbers, rounded. -/
theorem represents_quotient (s : Sign) {m d : ℕ} {e : ℤ} (hm : 0 < m) (hd : 0 < d)
    (hdigits : -1074 < e → 2 ^ 52 ≤ m / d) :
    Represents s (nearestAbove (m / d * 2 ^ e))
      (roundWithAccuracy .binary64 s (m / d) e (accuracyOfFraction (m % d) d)) := by
  have hpos : (0 : ℚ) < m / d := by positivity
  refine represents_roundWithAccuracy s hpos (stands_quotient hd) ?_ ?_
  · by_cases he : -1074 < e
    · have hlarge := hdigits he
      have hlog := (Nat.le_log2 (by omega)).mpr hlarge
      omega
    · omega
  · intro hnone
    by_contra he
    have hlarge := hdigits (by omega)
    omega

/-- The exponent that the dividend is brought to, so that the quotient has
    at least 53 digits or reaches the lowest exponent. -/
def quotientExponent (m₁ : ℕ) (e₁ : ℤ) (m₂ : ℕ) (e₂ : ℤ) : ℤ :=
  min (e₁ - e₂) (max (m₁.log2 + 1 + e₁ - (m₂.log2 + 1 + e₂) - 53) (-1074))

/-- Unless the exponent is the lowest, the shifted dividend has enough
    digits for 53 in the quotient. -/
theorem le_quotient {m₁ m₂ : ℕ} (e₁ e₂ : ℤ) (hm₁ : 0 < m₁) (hm₂ : 0 < m₂)
    (he : -1074 < quotientExponent m₁ e₁ m₂ e₂) :
    2 ^ 52 ≤ m₁ <<< (e₁ - e₂ - quotientExponent m₁ e₁ m₂ e₂).toNat / m₂ := by
  obtain ⟨k, hk⟩ : ∃ k, k = (e₁ - e₂ - quotientExponent m₁ e₁ m₂ e₂).toNat := ⟨_, rfl⟩
  -- both lengths in binary digits decide how far to shift
  have hdigits : m₂.log2 + 53 ≤ m₁.log2 + k := by
    unfold quotientExponent at he hk
    omega
  have hlow : 2 ^ (m₁.log2 + k) ≤ m₁ <<< k := by
    rw [Nat.shiftLeft_eq, pow_add]
    exact Nat.mul_le_mul_right _ (Nat.log2_self_le hm₁.ne')
  have hdivisor : m₂ ≤ 2 ^ (m₂.log2 + 1) := Nat.lt_log2_self.le
  rw [← hk, Nat.le_div_iff_mul_le hm₂]
  calc 2 ^ 52 * m₂ ≤ 2 ^ 52 * 2 ^ (m₂.log2 + 1) := Nat.mul_le_mul_left _ hdivisor
    _ = 2 ^ (m₂.log2 + 53) := by rw [← pow_add]; congr 1; omega
    _ ≤ 2 ^ (m₁.log2 + k) := Nat.pow_le_pow_right (by decide) hdigits
    _ ≤ m₁ <<< k := hlow

/-- The shift and the exponent make up for each other. -/
theorem quotient_value (m₁ m₂ : ℕ) (e₁ e₂ : ℤ) :
    ((m₁ <<< (e₁ - e₂ - quotientExponent m₁ e₁ m₂ e₂).toNat : ℕ) : ℚ) / m₂
        * 2 ^ quotientExponent m₁ e₁ m₂ e₂
      = m₁ * 2 ^ e₁ / (m₂ * 2 ^ e₂) := by
  have hle : quotientExponent m₁ e₁ m₂ e₂ ≤ e₁ - e₂ := min_le_left _ _
  obtain ⟨k, hk⟩ := Int.eq_ofNat_of_zero_le
    (show 0 ≤ e₁ - e₂ - quotientExponent m₁ e₁ m₂ e₂ by omega)
  obtain hexponent : e₁ = k + quotientExponent m₁ e₁ m₂ e₂ + e₂ := by omega
  have hpow : (2 : ℚ) ^ e₁ = 2 ^ k * 2 ^ quotientExponent m₁ e₁ m₂ e₂ * 2 ^ e₂ := by
    rw [← zpow_natCast, ← zpow_add₀ (by norm_num), ← zpow_add₀ (by norm_num), ← hexponent]
  rw [hk, Int.toNat_natCast, Nat.shiftLeft_eq, hpow]
  push_cast
  rw [← mul_assoc, mul_div_mul_right _ _ (by positivity), ← mul_assoc, div_mul_eq_mul_div]

/-- A quotient is the rounded exact quotient, unless it is by zero. -/
theorem rounded_div {u v : UnpackedFloat} (hu : Canonical u) (hv : Canonical v)
    (hfu : u.isFinite) (hfv : v.isFinite) (hzero : rational v ≠ 0) :
    Rounded (rational u / rational v) (div .binary64 u v) := by
  cases v with
  | infinity | notANumber => exact nomatch hfv
  | zero s₂ => exact absurd rfl hzero
  | finite s₂ m₂ e₂ hm₂ =>
      cases u with
      | infinity | notANumber => exact nomatch hfu
      | zero s₁ =>
          show Rounded (0 / _) (.zero (s₁ / s₂))
          rw [zero_div]
          exact rounded_zero _
      | finite s₁ m₁ e₁ hm₁ =>
          -- the dividend is shifted far enough first, so that nothing is lost
          -- but what the remainder tells
          have hlarge := le_quotient e₁ e₂ hm₁ hm₂
          have hvalue := quotient_value m₁ m₂ e₁ e₂
          have hpos : 0 < (m₁ : ℚ) * 2 ^ e₁ / (m₂ * 2 ^ e₂) :=
            div_pos (magnitude_pos e₁ hm₁) (magnitude_pos e₂ hm₂)
          have hshifted : 0 < m₁ <<< (e₁ - e₂ - quotientExponent m₁ e₁ m₂ e₂).toNat := by
            rw [Nat.shiftLeft_eq]
            positivity
          refine ⟨s₁ / s₂, _, hpos.le, signed_div _ _ _ _, ?_⟩
          rw [← hvalue]
          exact represents_quotient (s₁ / s₂) hshifted hm₂ hlarge

/-! ## Doubles -/

section Doubles

variable {x y : Float}

theorem value_zero : value 0.0 = 0 := rfl

theorem value_one : value 1.0 = 1 := by
  show ((2 ^ 52 : ℕ) : ℚ) * 2 ^ (-52 : ℤ) = 1
  norm_num

theorem value_pos (hx : x.isFinite) (h : 0.0 < x) : 0 < value x := (lt_iff_value rfl hx).mp h

/-- Nothing is left to round in a double. -/
theorem rounds_value (hx : x.isFinite) : Rounds (value x) x := by
  refine (rounded_rational (canonical_unpack x) hx).rounds ?_
  have hcanonical := canonical_unpack x
  cases h : x.toModel.unpack with
  | infinity s | zero s => cases s <;> rfl
  | notANumber => rfl
  | finite s m e hm =>
      rw [h] at hcanonical
      exact (unpack_pack s hm hcanonical.1 hcanonical.2).symm

/-- The sum of two doubles rounds the sum of their values. -/
theorem rounds_add (hx : x.isFinite) (hy : y.isFinite) : Rounds (value x + value y) (x + y) :=
  (rounded_add (canonical_unpack x) (canonical_unpack y) hx hy).rounds rfl

theorem rounds_sub (hx : x.isFinite) (hy : y.isFinite) : Rounds (value x - value y) (x - y) :=
  (rounded_sub (canonical_unpack x) (canonical_unpack y) hx hy).rounds rfl

theorem rounds_mul (hx : x.isFinite) (hy : y.isFinite) : Rounds (value x * value y) (x * y) :=
  (rounded_mul (canonical_unpack x) (canonical_unpack y) hx hy).rounds rfl

/-- The quotient of two doubles rounds that of their values, unless the
    divisor is zero. -/
theorem rounds_div (hx : x.isFinite) (hy : y.isFinite) (hzero : value y ≠ 0) :
    Rounds (value x / value y) (x / y) :=
  (rounded_div (canonical_unpack x) (canonical_unpack y) hx hy hzero).rounds rfl

/-- A whole number is converted to the double that rounds it. -/
theorem rounds_nearestDouble (n : ℤ) : Rounds n (nearestDouble n) := by
  have hrounded := rounded_normalize n 0 .positive
  rw [zpow_zero, mul_one] at hrounded
  exact hrounded.rounds rfl

/-! ## Order -/

/-- Everything but NaN has a place in the order. -/
theorem exists_place (h : x.toModel.unpack ≠ .notANumber) : ∃ p, p ∈ place x.toModel.unpack := by
  cases hu : x.toModel.unpack with
  | notANumber => exact absurd hu h
  | infinity s => cases s <;> exact ⟨_, rfl⟩
  | zero | finite => exact ⟨_, rfl⟩

/-- Everything but NaN is at most the positive infinity. -/
theorem le_of_unpack_above (hx : x.toModel.unpack ≠ .notANumber)
    (hy : y.toModel.unpack = .infinity .positive) : x ≤ y := by
  obtain ⟨p, hp⟩ := exists_place hx
  rw [le_iff_place, hy]
  exact ⟨p, hp, ⊤, rfl, le_top⟩

/-- The negative infinity is at most everything but NaN. -/
theorem le_of_unpack_below (hx : x.toModel.unpack = .infinity .negative)
    (hy : y.toModel.unpack ≠ .notANumber) : x ≤ y := by
  obtain ⟨q, hq⟩ := exists_place hy
  rw [le_iff_place, hx]
  exact ⟨⊥, rfl, q, hq, bot_le⟩

theorem unpack_ne_nan_of_finite (hx : x.isFinite) : x.toModel.unpack ≠ .notANumber := by
  intro h
  have hfinite : x.toModel.unpack.isFinite := hx
  rw [h] at hfinite
  exact nomatch hfinite

namespace Rounds

variable {p q : ℚ}

/-- A rounded number is finite, or an infinity on its side. -/
theorem trichotomy (h : Rounds q x) :
    (nearest q ≤ -limit ∧ x.toModel.unpack = .infinity .negative) ∨
      (|nearest q| < limit ∧ x.isFinite ∧ value x = nearest q) ∨
      (limit ≤ nearest q ∧ x.toModel.unpack = .infinity .positive) := by
  rcases le_or_gt (nearest q) (-limit) with hlow | hlow
  · exact .inl ⟨hlow, h.below hlow⟩
  rcases le_or_gt limit (nearest q) with hhigh | hhigh
  · exact .inr (.inr ⟨hhigh, h.above hhigh⟩)
  · have habs := abs_lt.mpr ⟨hlow, hhigh⟩
    exact .inr (.inl ⟨habs, h.finite habs⟩)

theorem ne_nan (h : Rounds q x) : x.toModel.unpack ≠ .notANumber := by
  rcases h.trichotomy with ⟨-, hx⟩ | ⟨-, hx, -⟩ | ⟨-, hx⟩
  · rw [hx]
    exact nofun
  · exact unpack_ne_nan_of_finite hx
  · rw [hx]
    exact nofun

/-- Greater numbers are rounded to greater doubles. -/
theorem mono (hx : Rounds p x) (hy : Rounds q y) (h : p ≤ q) : x ≤ y := by
  have hnearest := nearest_mono h
  rcases hx.trichotomy with ⟨-, hx'⟩ | ⟨hp, hx', hvx⟩ | ⟨hp, -⟩
  · exact le_of_unpack_below hx' hy.ne_nan
  · rcases hy.trichotomy with ⟨hq, -⟩ | ⟨-, hy', hvy⟩ | ⟨-, hy'⟩
    · have hlow := (abs_lt.mp hp).1
      linarith
    · rw [le_iff_value hx' hy', hvx, hvy]
      exact hnearest
    · exact le_of_unpack_above hx.ne_nan hy'
  · exact le_of_unpack_above hx.ne_nan (hy.above (by linarith))

/-- A number up to a double is rounded to one up to it. -/
theorem le (hx : Rounds q x) (hy : y.isFinite) (h : q ≤ value y) : x ≤ y :=
  hx.mono (rounds_value hy) h

/-- Rounding does not fall below a double that the exact number reaches. -/
theorem ge (hx : Rounds q x) (hy : y.isFinite) (h : value y ≤ q) : y ≤ x :=
  (rounds_value hy).mono hx h

end Rounds

/-- From one on whole numbers are converted to positive doubles. -/
theorem nearestDouble_pos {n : ℤ} (hn : 1 ≤ n) : 0.0 < nearestDouble n := by
  have hone : value 1.0 = 1 := value_one
  have hle : (1.0 : Float) ≤ nearestDouble n :=
    (rounds_nearestDouble n).ge rfl (hone.trans_le (mod_cast hn))
  exact Double.lt_of_lt_of_le (by decide +kernel) hle

end Doubles

end BeatShield.Double
