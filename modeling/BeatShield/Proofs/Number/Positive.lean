import BeatShield.Number.Binary

/-! # Positive doubles

    A tempo is accepted when it is above zero, and every duration is then
    divided by it.  The two comparisons behind this are made on doubles,
    where an order is not total; here they are read off the unpacked
    values. -/

namespace BeatShield

open Float.Model

private theorem unpack_zero : (0.0 : Float).toModel.unpack = .zero .positive := rfl

/-- A positive double is not at most zero. -/
theorem not_le_zero_of_pos {x : Float} (h : 0.0 < x) : ¬ x ≤ 0.0 := by
  intro hle
  have hlt' : (UnpackedFloat.zero .positive).lt x.toModel.unpack = true := by
    rw [← unpack_zero]
    exact of_decide_eq_true (show decide ((0.0 : Float).toModel < x.toModel) = true from h)
  have hle' : x.toModel.unpack.le (.zero .positive) = true := by
    rw [← unpack_zero]
    exact of_decide_eq_true (show decide (x.toModel ≤ (0.0 : Float).toModel) = true from hle)
  -- what is above zero is positive, and then it is not at most zero
  cases hx : x.toModel.unpack with
  | notANumber => rw [hx] at hlt'; exact nomatch hlt'
  | zero s => rw [hx] at hlt'; exact nomatch hlt'
  | infinity s =>
      rw [hx] at hlt' hle'
      cases s with
      | positive => exact nomatch hle'
      | negative => exact nomatch hlt'
  | finite s m e hm =>
      rw [hx] at hlt' hle'
      cases s with
      | positive => exact nomatch hle'
      | negative => exact nomatch hlt'

/-- Division by a double above zero is never refused. -/
theorem divide_of_pos {x y : Float} (h : 0.0 < y) : Scalar.divide x y = .ok (x / y) := by
  have hz : ¬ Scalar.IsZero y := by
    rintro ⟨hle, -⟩
    exact not_le_zero_of_pos h hle
  exact if_neg hz

end BeatShield
