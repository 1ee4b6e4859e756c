import BeatShield.Proofs.Number.Arithmetic

/-! # Bounds — computing with intervals of doubles

    `Within a b x` says that `x` lies between two finite doubles.  Since
    rounding keeps the order, the ends of an interval are computed like
    any other double: a sum of numbers up to `b` and `d` is up to the
    rounded `b + d`.  So a bound that rounding holds, such as 2^53 + 1.0
    being 2^53, holds however often something is added.

    Each operation has one lemma; `Encloses` is what remains to be checked
    of the ends, by computing with them.  Parts of one need no computing:
    `Within.zero`, `Within.one`, `Within.part` and `Within.rest` lead from
    one to the next. -/

namespace BeatShield.Double

open Float.Model (Format UnpackedFloat)
open Float.Model.UnpackedFloat

variable {a b c d lo hi x y : Float}

/-! ## Finite doubles -/

/-- Packing makes nothing finite. -/
theorem isFinite_of_pack {u : UnpackedFloat}
    (h : (unpack .binary64 (pack .binary64 u)).isFinite) : u.isFinite := by
  cases u with
  | zero s | finite s m e hm => rfl
  | notANumber => exact h
  | infinity s => cases s <;> exact h

/-- A sum that is finite has finite summands. -/
theorem isFinite_of_add_unpacked {u v : UnpackedFloat} (h : (add .binary64 u v).isFinite) :
    u.isFinite ∧ v.isFinite := by
  cases u with
  | notANumber => exact nomatch h
  | infinity s₁ =>
      cases v with
      | infinity s₂ => cases s₁ <;> cases s₂ <;> exact nomatch h
      | _ => exact nomatch h
  | zero s₁ | finite s₁ m₁ e₁ hm₁ =>
      cases v with
      | notANumber | infinity s₂ => exact nomatch h
      | zero s₂ | finite s₂ m₂ e₂ hm₂ => exact ⟨rfl, rfl⟩

theorem isFinite_of_mul_unpacked {u v : UnpackedFloat} (h : (mul .binary64 u v).isFinite) :
    u.isFinite ∧ v.isFinite := by
  cases u with
  | notANumber => exact nomatch h
  | infinity s₁ => cases v <;> exact nomatch h
  | zero s₁ | finite s₁ m₁ e₁ hm₁ =>
      cases v with
      | notANumber | infinity s₂ => exact nomatch h
      | zero s₂ | finite s₂ m₂ e₂ hm₂ => exact ⟨rfl, rfl⟩

/-- A sum is finite only if both summands are. -/
theorem isFinite_of_add (h : (x + y).isFinite) : x.isFinite ∧ y.isFinite :=
  isFinite_of_add_unpacked (isFinite_of_pack h)

/-- A product is finite only if both factors are. -/
theorem isFinite_of_mul (h : (x * y).isFinite) : x.isFinite ∧ y.isFinite :=
  isFinite_of_mul_unpacked (isFinite_of_pack h)

/-! ## Intervals -/

/-- A double lies between two finite ones. -/
structure Within (a b x : Float) : Prop where
  low_finite : a.isFinite
  high_finite : b.isFinite
  low : a ≤ x
  high : x ≤ b

instance (a b x : Float) : Decidable (Within a b x) :=
  decidable_of_iff (a.isFinite ∧ b.isFinite ∧ a ≤ x ∧ x ≤ b)
    ⟨fun ⟨ha, hb, hlow, hhigh⟩ => ⟨ha, hb, hlow, hhigh⟩,
      fun h => ⟨h.low_finite, h.high_finite, h.low, h.high⟩⟩

/-- The ends of an interval that are computed for it lie within it. -/
def Encloses (lo hi p q : Float) : Prop := Within lo hi p ∧ Within lo hi q

instance (lo hi p q : Float) : Decidable (Encloses lo hi p q) :=
  inferInstanceAs (Decidable (_ ∧ _))

namespace Within

/-- What lies between finite doubles is finite. -/
theorem isFinite (h : Within a b x) : x.isFinite :=
  isFinite_of_between h.low_finite h.high_finite h.low h.high

theorem low_value (h : Within a b x) : value a ≤ value x :=
  (le_iff_value h.low_finite h.isFinite).mp h.low

theorem high_value (h : Within a b x) : value x ≤ value b :=
  (le_iff_value h.isFinite h.high_finite).mp h.high

/-- What is rounded from between two numbers lies between what these are
    rounded to. -/
theorem of_rounds {p q r : ℚ} (hx : Rounds q x) (ha : Rounds p a) (hb : Rounds r b)
    (hpq : p ≤ q) (hqr : q ≤ r) (h : Encloses lo hi a b) : Within lo hi x := by
  have hlow := ha.mono hx hpq
  have hhigh := hx.mono hb hqr
  have hx := isFinite_of_between h.1.isFinite h.2.isFinite hlow hhigh
  have hlow := (le_iff_value h.1.isFinite hx).mp hlow
  have hhigh := (le_iff_value hx h.2.isFinite).mp hhigh
  exact {
    low_finite := h.1.low_finite
    high_finite := h.1.high_finite
    low := (le_iff_value h.1.low_finite hx).mpr (h.1.low_value.trans hlow)
    high := (le_iff_value hx h.1.high_finite).mpr (hhigh.trans h.2.high_value) }

/-- A sum lies between the sums of the ends. -/
theorem add (hx : Within a b x) (hy : Within c d y) (hends : Encloses lo hi (a + c) (b + d)) :
    Within lo hi (x + y) :=
  of_rounds (rounds_add hx.isFinite hy.isFinite) (rounds_add hx.low_finite hy.low_finite)
    (rounds_add hx.high_finite hy.high_finite) (add_le_add hx.low_value hy.low_value)
    (add_le_add hx.high_value hy.high_value) hends

theorem sub (hx : Within a b x) (hy : Within c d y) (hends : Encloses lo hi (a - d) (b - c)) :
    Within lo hi (x - y) :=
  of_rounds (rounds_sub hx.isFinite hy.isFinite) (rounds_sub hx.low_finite hy.high_finite)
    (rounds_sub hx.high_finite hy.low_finite) (sub_le_sub hx.low_value hy.high_value)
    (sub_le_sub hx.high_value hy.low_value) hends

/-- Products of numbers that are not negative. -/
theorem mul (hx : Within 0.0 b x) (hy : Within 0.0 d y)
    (hends : Encloses lo hi (0.0 * 0.0) (b * d)) : Within lo hi (x * y) := by
  have hx₀ : 0 ≤ value x := value_zero.symm.trans_le hx.low_value
  have hy₀ : 0 ≤ value y := value_zero.symm.trans_le hy.low_value
  refine of_rounds (rounds_mul hx.isFinite hy.isFinite) (rounds_mul hx.low_finite hy.low_finite)
    (rounds_mul hx.high_finite hy.high_finite) ?_ ?_ hends
  · rw [value_zero, mul_zero]
    exact mul_nonneg hx₀ hy₀
  · exact mul_le_mul hx.high_value hy.high_value hy₀ (hx₀.trans hx.high_value)

/-- The ends of an interval lie within it. -/
theorem encloses (h : Within a b x) : Encloses a b a b := by
  have hle : value a ≤ value b := h.low_value.trans h.high_value
  have hab : a ≤ b := (le_iff_value h.low_finite h.high_finite).mpr hle
  exact ⟨⟨h.low_finite, h.high_finite, (le_iff_value h.low_finite h.low_finite).mpr le_rfl, hab⟩,
    h.low_finite, h.high_finite, hab, (le_iff_value h.high_finite h.high_finite).mpr le_rfl⟩

/-- A finite double lies between itself and itself. -/
theorem self (h : x.isFinite) : Within x x x := by
  have hle : x ≤ x := (le_iff_value h h).mpr le_rfl
  exact ⟨h, h, hle, hle⟩

/-- One is an end of the interval of units. -/
theorem one : Within 0.0 1.0 1.0 := by decide +kernel

/-- Zero is the other end. -/
theorem zero : Within 0.0 1.0 0.0 := one.encloses.1

/-- Part of a number in an interval around zero. -/
theorem part (hx : Within a b x) (hy : Within 0.0 1.0 y) (hzero : Within a b 0.0) :
    Within a b (x * y) := by
  have hlow : 0 ≤ value y := value_zero.symm.trans_le hy.low_value
  have hhigh : value y ≤ 1 := hy.high_value.trans_eq value_one
  have ha : value a ≤ 0 := hzero.low_value
  have hb : 0 ≤ value b := hzero.high_value
  refine of_rounds (rounds_mul hx.isFinite hy.isFinite) (rounds_value hx.low_finite)
    (rounds_value hx.high_finite) ?_ ?_ hx.encloses
  · calc value a = value a * 1 := (mul_one _).symm
      _ ≤ value a * value y := mul_le_mul_of_nonpos_left hhigh ha
      _ ≤ value x * value y := mul_le_mul_of_nonneg_right hx.low_value hlow
  · calc value x * value y ≤ value b * value y := mul_le_mul_of_nonneg_right hx.high_value hlow
      _ ≤ value b := mul_le_of_le_one_right hb hhigh

/-- What a part leaves of one is a part. -/
theorem rest (h : Within 0.0 1.0 x) : Within 0.0 1.0 (1.0 - x) :=
  (self rfl).sub h (by decide +kernel)

/-- Quotients of numbers that are not negative, by divisors that do not
    come near zero. -/
theorem div (hx : Within 0.0 b x) (c : Float) (hy : y.isFinite) (hle : c ≤ y)
    (hc : c.isFinite) (hpos : 0.0 < c) (hends : Encloses lo hi 0.0 (b / c)) :
    Within lo hi (x / y) := by
  have hx₀ : 0 ≤ value x := value_zero.symm.trans_le hx.low_value
  have hc₀ : 0 < value c := (lt_iff_value rfl hc).mp hpos
  have hle : value c ≤ value y := (le_iff_value hc hy).mp hle
  have hy₀ : 0 < value y := hc₀.trans_le hle
  refine of_rounds (rounds_div hx.isFinite hy hy₀.ne') (rounds_value hx.low_finite)
    (rounds_div hx.high_finite hc hc₀.ne') ?_ ?_ hends
  · exact value_zero.trans_le (div_nonneg hx₀ hy₀.le)
  · exact div_le_div₀ (hx₀.trans hx.high_value) hx.high_value hc₀ hle

end Within

end BeatShield.Double
