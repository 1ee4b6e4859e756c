import BeatShield.Proofs.Number.Bounds

/-! # Endless — computing with infinities and NaN

    Whatever is added to NaN or positive infinity, or taken from it, no
    finite number comes back; the same holds of products with numbers that
    are not negative.  So a time that is `Endless` stays away however far
    a run has come (`Endless.sub`).

    On the other side, once a clock has passed all doubles, every finite
    time is infinitely far behind it (`unpack_sub_above`). -/

namespace BeatShield.Double

open Float.Model (Format UnpackedFloat)
open Float.Model.UnpackedFloat

variable {x y : Float} {s : Sign}

/-! ## Numbers that are not negative -/

/-- What is not negative is zero, or positive and finite, or infinite. -/
theorem unpack_of_nonneg (h : 0.0 ≤ x) :
    (∃ s, x.toModel.unpack = .zero s) ∨ (∃ m e hm, x.toModel.unpack = .finite .positive m e hm) ∨
      x.toModel.unpack = .infinity .positive := by
  -- NaN has no place, and negative numbers have one below zero
  obtain ⟨p, hp, q, hq, hpq⟩ := le_iff_place.mp h
  obtain rfl : p = ((0 : ℚ) : WithTop ℚ) := (Option.some.inj hp).symm
  cases hx : x.toModel.unpack with
  | zero s => exact .inl ⟨s, rfl⟩
  | notANumber =>
      rw [hx] at hq
      exact nomatch hq
  | infinity s =>
      cases s with
      | positive => exact .inr (.inr rfl)
      | negative =>
          rw [hx] at hq
          obtain rfl : q = ⊥ := (Option.some.inj hq).symm
          exact absurd hpq (WithBot.bot_lt_coe _).not_ge
  | finite s m e hm =>
      cases s with
      | positive => exact .inr (.inl ⟨m, e, hm, rfl⟩)
      | negative =>
          have hpos := magnitude_pos e hm
          have hfinite : x.isFinite := by
            show x.toModel.unpack.isFinite
            rw [hx]
            rfl
          have hvalue : value x = -((m : ℚ) * 2 ^ e) := by rw [value, hx]; rfl
          have hnonneg : 0 ≤ value x := (le_iff_value rfl hfinite).mp h
          linarith

/-- A positive double is a positive number or the positive infinity. -/
theorem unpack_of_pos (h : 0.0 < x) :
    (∃ m e hm, x.toModel.unpack = .finite .positive m e hm) ∨
      x.toModel.unpack = .infinity .positive := by
  refine (unpack_of_nonneg (Double.le_of_lt h)).resolve_left ?_
  rintro ⟨s, hx⟩
  obtain ⟨p, hp, q, hq, hpq⟩ := lt_iff_place.mp h
  obtain rfl : p = ((0 : ℚ) : WithTop ℚ) := (Option.some.inj hp).symm
  rw [hx] at hq
  obtain rfl : q = ((0 : ℚ) : WithTop ℚ) := (Option.some.inj hq).symm
  exact lt_irrefl _ hpq

/-! ## One step of arithmetic -/

theorem unpack_pack_infinity (s : Sign) :
    unpack .binary64 (pack .binary64 (.infinity s)) = .infinity s := by
  cases s <;> rfl

/-- An infinity is kept by what is finite. -/
theorem unpack_add_infinity (hx : x.isFinite) (hy : y.toModel.unpack = .infinity s) :
    (x + y).toModel.unpack = .infinity s := by
  have hx : x.toModel.unpack.isFinite := hx
  show unpack _ (pack _ (add _ x.toModel.unpack y.toModel.unpack)) = _
  rw [hy]
  cases hu : x.toModel.unpack <;> rw [hu] at hx
  case infinity | notANumber => exact nomatch hx
  case zero | finite => exact unpack_pack_infinity s

/-- What is finite adds nothing to an infinity. -/
theorem unpack_infinity_add (hx : x.toModel.unpack = .infinity s) (hy : y.isFinite) :
    (x + y).toModel.unpack = .infinity s := by
  have hy : y.toModel.unpack.isFinite := hy
  show unpack _ (pack _ (add _ x.toModel.unpack y.toModel.unpack)) = _
  rw [hx]
  cases hv : y.toModel.unpack <;> rw [hv] at hy
  case infinity | notANumber => exact nomatch hy
  case zero | finite => exact unpack_pack_infinity s

/-- Positive factors keep an infinity. -/
theorem unpack_infinity_mul (hx : x.toModel.unpack = .infinity s) (hy : 0.0 < y) :
    (x * y).toModel.unpack = .infinity s := by
  show unpack _ (pack _ (mul _ x.toModel.unpack y.toModel.unpack)) = _
  have hproduct : mul .binary64 (.infinity s) y.toModel.unpack = .infinity s := by
    rcases unpack_of_pos hy with ⟨m, e, hm, hy⟩ | hy <;> rw [hy] <;> cases s <;> rfl
  rw [hx, hproduct]
  exact unpack_pack_infinity s

/-- Finite numbers are infinitely far below positive infinity. -/
theorem unpack_sub_above (hx : x.isFinite) (hy : y.toModel.unpack = .infinity .positive) :
    (x - y).toModel.unpack = .infinity .negative := by
  have hx : x.toModel.unpack.isFinite := hx
  show unpack _ (pack _ (sub _ x.toModel.unpack y.toModel.unpack)) = _
  rw [hy]
  cases hu : x.toModel.unpack <;> rw [hu] at hx
  case infinity | notANumber => exact nomatch hx
  case zero | finite => exact unpack_pack_infinity .negative

/-! ## Endless numbers -/

/-- NaN or positive infinity. -/
def Endless (x : Float) : Prop :=
  x.toModel.unpack = .notANumber ∨ x.toModel.unpack = .infinity .positive

/-- What is neither finite nor below zero. -/
theorem endless_of_not_finite (hfinite : ¬ x.isFinite) (hbelow : ¬ x < 0.0) : Endless x := by
  have hfinite : ¬ x.toModel.unpack.isFinite := hfinite
  rw [Endless]
  cases hx : x.toModel.unpack with
  | notANumber => exact .inl rfl
  | zero | finite =>
      rw [hx] at hfinite
      exact absurd rfl hfinite
  | infinity s =>
      cases s with
      | positive => exact .inr rfl
      | negative =>
          refine absurd (lt_iff_place.mpr ⟨⊥, ?_, ((0 : ℚ) : WithTop ℚ), rfl, ?_⟩) hbelow
          · rw [hx]
            rfl
          · exact WithBot.bot_lt_coe _

namespace Endless

/-- What is endless is not at most any finite double. -/
theorem not_le (h : Endless x) (hy : y.isFinite) : ¬ x ≤ y := by
  rw [le_iff_place, place_of_finite hy]
  rcases h with h | h <;> rw [h] <;> simp [place]

theorem not_lt (h : Endless x) (hy : y.isFinite) : ¬ x < y := by
  rw [lt_iff_place, place_of_finite hy]
  rcases h with h | h <;> rw [h] <;> simp [place]

/-- Packing keeps NaN and the infinities. -/
theorem of_packed {u : UnpackedFloat} (h : u = .notANumber ∨ u = .infinity .positive) :
    unpack .binary64 (pack .binary64 u) = .notANumber ∨
      unpack .binary64 (pack .binary64 u) = .infinity .positive := by
  rcases h with rfl | rfl
  · exact .inl rfl
  · exact .inr rfl

/-- Whatever is taken from it, it stays endless. -/
theorem sub (h : Endless x) (y : Float) : Endless (x - y) := by
  refine of_packed (u := UnpackedFloat.sub .binary64 x.toModel.unpack y.toModel.unpack) ?_
  rcases h with h | h <;> rw [h]
  · exact .inl rfl
  · cases y.toModel.unpack with
    | notANumber => exact .inl rfl
    | zero | finite => exact .inr rfl
    | infinity s =>
        cases s with
        | positive => exact .inl rfl
        | negative => exact .inr rfl

/-- Whatever is added to it, it stays endless. -/
theorem add (h : Endless x) (y : Float) : Endless (x + y) := by
  refine of_packed (u := UnpackedFloat.add .binary64 x.toModel.unpack y.toModel.unpack) ?_
  rcases h with h | h <;> rw [h]
  · exact .inl rfl
  · cases y.toModel.unpack with
    | notANumber => exact .inl rfl
    | zero | finite => exact .inr rfl
    | infinity s =>
        cases s with
        | positive => exact .inr rfl
        | negative => exact .inl rfl

/-- So it does multiplied by what is not negative. -/
theorem mul (h : Endless x) (hy : 0.0 ≤ y) : Endless (x * y) := by
  refine of_packed (u := UnpackedFloat.mul .binary64 x.toModel.unpack y.toModel.unpack) ?_
  rcases h with h | h <;> rw [h]
  · exact .inl rfl
  · rcases unpack_of_nonneg hy with ⟨s, hy⟩ | ⟨m, e, hm, hy⟩ | hy <;> rw [hy]
    -- infinity times zero is NaN
    · exact .inl rfl
    · exact .inr rfl
    · exact .inr rfl

end Endless

/-! ## Keeping the sign -/

theorem nonneg_of_above (h : x.toModel.unpack = .infinity .positive) : 0.0 ≤ x :=
  le_of_unpack_above (unpack_ne_nan_of_finite rfl) h

/-- What is not negative is a finite number from zero on, or the infinity
    above all. -/
theorem finite_or_above (h : 0.0 ≤ x) :
    (x.isFinite ∧ 0 ≤ value x) ∨ x.toModel.unpack = .infinity .positive := by
  have hvalue : x.isFinite → 0 ≤ value x := fun hx => (le_iff_value rfl hx).mp h
  rcases unpack_of_nonneg h with ⟨s, hx⟩ | ⟨m, e, hm, hx⟩ | hx
  · have hfinite : x.toModel.unpack.isFinite := by rw [hx]; rfl
    exact .inl ⟨hfinite, hvalue hfinite⟩
  · have hfinite : x.toModel.unpack.isFinite := by rw [hx]; rfl
    exact .inl ⟨hfinite, hvalue hfinite⟩
  · exact .inr hx

theorem unpack_above (h : 0.0 ≤ x) (hx : ¬ x.isFinite) :
    x.toModel.unpack = .infinity .positive :=
  (finite_or_above h).resolve_left fun h => hx h.1

/-- A sum of doubles from zero on is not negative. -/
theorem nonneg_add (hx : 0.0 ≤ x) (hy : 0.0 ≤ y) : 0.0 ≤ x + y := by
  rcases finite_or_above hx with ⟨hfx, hx⟩ | hx
  · rcases finite_or_above hy with ⟨hfy, hy⟩ | hy
    · exact (rounds_add hfx hfy).ge rfl (value_zero.trans_le (add_nonneg hx hy))
    · -- as soon as one of them is infinite, the sum is
      exact nonneg_of_above (unpack_add_infinity hfx hy)
  · rcases finite_or_above hy with ⟨hfy, -⟩ | hy
    · exact nonneg_of_above (unpack_infinity_add hx hfy)
    · refine nonneg_of_above ?_
      show unpack _ (pack _ (add _ x.toModel.unpack y.toModel.unpack)) = _
      rw [hx, hy]
      rfl

theorem nonneg_mul (hx : 0.0 ≤ x) (hfy : y.isFinite) (hy : 0.0 < y) : 0.0 ≤ x * y := by
  have hvalue : 0 < value y := (lt_iff_value rfl hfy).mp hy
  rcases finite_or_above hx with ⟨hfx, hx⟩ | hx
  · exact (rounds_mul hfx hfy).ge rfl (value_zero.trans_le (mul_nonneg hx hvalue.le))
  · exact nonneg_of_above (unpack_infinity_mul hx hy)

end BeatShield.Double
