import BeatShield.Proofs.Number.Nearest
import BeatShield.Proofs.Number.Value

/-! # Rounding — computed doubles are those nearest to the exact results

    A sum, product or quotient is computed as a mantissa, of which the
    digits beyond the 53rd are cut off.  Two guard bits keep what is
    needed of them to round (`Guard`).

      * Cutting and rounding gives `nearest` of the exact result
        (`represents_roundWithAccuracy`).
      * `Rounds q x` says that `x` is the double for `q`: the nearest, or
        an infinity if that is too large.  Packing what was rounded gives
        it (`Rounded.rounds`). -/

namespace BeatShield.Double

open Float.Model (Format UnpackedFloat totalExponent)
open Float.Model.UnpackedFloat

/-! ## Guard bits -/

/-- What the two bits behind a mantissa say of the part that is cut off:
    whether it is nothing, less than a half, a half, or more. -/
def Guard : Bool → Bool → ℚ → Prop
  | false, false, rest => rest = 0
  | false, true, rest => 0 < rest ∧ rest < 1 / 2
  | true, false, rest => rest = 1 / 2
  | true, true, rest => 1 / 2 < rest ∧ rest < 1

/-- A mantissa with its guard bits stands for a number. -/
def Stands (em : ExtendedMantissa) (a : ℚ) : Prop :=
  Guard em.roundBit em.stickyBit (a - em.mantissa)

/-- What is cut off is less than one digit. -/
theorem Guard.bounds {round sticky : Bool} {rest : ℚ} (h : Guard round sticky rest) :
    0 ≤ rest ∧ rest < 1 := by
  cases round <;> cases sticky <;> simp only [Guard] at h <;> constructor <;> linarith

/-- One more digit is cut off. -/
theorem Guard.shift {round sticky : Bool} {rest : ℚ} (h : Guard round sticky rest)
    (digit : Bool) : Guard digit (round || sticky) ((digit.toNat + rest) / 2) := by
  cases digit <;> cases round <;> cases sticky <;>
    simp only [Guard, Bool.or_false, Bool.or_true, Bool.toNat_false, Bool.toNat_true,
      Nat.cast_zero, Nat.cast_one] at h ⊢ <;>
    first | linarith | constructor <;> linarith

namespace Stands

variable {em : ExtendedMantissa} {a : ℚ}

/-- The mantissa is what is left of the number without its fraction. -/
theorem floor (h : Stands em a) : ⌊a⌋₊ = em.mantissa := by
  obtain ⟨hlow, hhigh⟩ := Guard.bounds h
  have hm : (0 : ℚ) ≤ em.mantissa := Nat.cast_nonneg _
  exact (Nat.floor_eq_iff (by linarith)).mpr ⟨by linarith, by linarith⟩

/-- Cutting one more digit keeps what is known of the rest. -/
theorem shiftRightOne (h : Stands em a) : Stands em.shiftRightOne (a / 2) := by
  have hdigit : (em.mantissa % 2 != 0).toNat = em.mantissa % 2 := by
    rcases Nat.mod_two_eq_zero_or_one em.mantissa with h0 | h1
    · rw [h0]
      rfl
    · rw [h1]
      rfl
  have hsplit : ((em.mantissa % 2 : ℕ) : ℚ) + 2 * (em.mantissa / 2 : ℕ) = em.mantissa :=
    mod_cast Nat.mod_add_div em.mantissa 2
  have hrest : a / 2 - em.shiftRightOne.mantissa
      = ((em.mantissa % 2 != 0).toNat + (a - em.mantissa)) / 2 := by
    rw [hdigit]
    show a / 2 - ((em.mantissa / 2 : ℕ) : ℚ) = _
    linarith
  rw [Stands, hrest]
  exact Guard.shift h _

/-- So does cutting several, one after the other. -/
theorem shiftRight (h : Stands em a) (n : ℕ) : Stands (em >>> n) (a / 2 ^ n) := by
  show Stands (n.repeat ExtendedMantissa.shiftRightOne em) _
  induction n with
  | zero => rwa [pow_zero, div_one]
  | succ n ih =>
      rw [pow_succ, ← div_div]
      exact ih.shiftRightOne

/-- The guard bits suffice to round to the nearest, ties to even. -/
theorem roundedMantissa (h : Stands em a) : em.roundedMantissa = halfEven a := by
  rw [halfEven, h.floor]
  obtain ⟨m, round, sticky⟩ := em
  cases round <;> cases sticky <;> simp only [Stands, Guard] at h
  · rw [compare_lt_iff_lt.mpr (by linarith)]
    rfl
  · rw [compare_lt_iff_lt.mpr h.2]
    rfl
  · rw [compare_eq_iff_eq.mpr h]
    rfl
  · rw [compare_gt_iff_gt.mpr h.1]
    rfl

end Stands

theorem stands_exact (m : ℕ) : Stands (.ofMantissaAndAccuracy m .exact) m := sub_self _

/-! ## Cutting at the step -/

theorem targetExponent_eq (m : ℕ) (e : ℤ) :
    Format.binary64.targetExponent (totalExponent m e) = max (m.log2 + 1 + e - 53) (-1074) := rfl

/-- The exponent that a mantissa is cut at is the step of the number it
    stands for. -/
theorem step_of_mantissa {m : ℕ} {e : ℤ} {a : ℚ} (ha : 0 < a) (hlow : (m : ℚ) ≤ a)
    (hhigh : a < m + 1) (hm : m = 0 → e ≤ -1074) :
    step (a * 2 ^ e) = max (m.log2 + 1 + e - 53) (-1074) := by
  have htwo : (2 : ℚ) ≠ 0 := by norm_num
  apply step_eq (by positivity) (le_max_right _ _)
  · -- from above by one digit more than the mantissa has
    have hdigits : a < 2 ^ (m.log2 + 1) := by
      have hm : (m : ℚ) + 1 ≤ 2 ^ (m.log2 + 1) := mod_cast Nat.lt_log2_self
      linarith
    have hexponent : ((m.log2 + 1 : ℕ) : ℤ) + e ≤ 53 + max (m.log2 + 1 + e - 53) (-1074) := by
      omega
    calc a * 2 ^ e < 2 ^ (m.log2 + 1) * 2 ^ e := by gcongr
      _ = 2 ^ (((m.log2 + 1 : ℕ) : ℤ) + e) := by rw [zpow_add₀ htwo, zpow_natCast]
      _ ≤ 2 ^ (53 + max (m.log2 + 1 + e - 53 : ℤ) (-1074)) := by gcongr; norm_num
      _ = 2 ^ 53 * 2 ^ max (m.log2 + 1 + e - 53 : ℤ) (-1074) := by
        rw [zpow_add₀ htwo]
        norm_cast
  · intro hlt
    -- from below by the leading digit, which a mantissa of zero lacks
    have hpos : m ≠ 0 := by
      rintro rfl
      have he := hm rfl
      rw [Nat.log2_zero] at hlt
      omega
    have hdigits : (2 : ℚ) ^ m.log2 ≤ a := by
      have hm : (2 : ℚ) ^ m.log2 ≤ m := mod_cast Nat.log2_self_le hpos
      linarith
    have hexponent : 52 + max (m.log2 + 1 + e - 53) (-1074) = (m.log2 : ℤ) + e := by omega
    calc (2 : ℚ) ^ 52 * 2 ^ max (m.log2 + 1 + e - 53 : ℤ) (-1074)
        = 2 ^ (52 + max (m.log2 + 1 + e - 53 : ℤ) (-1074)) := by
          rw [zpow_add₀ htwo]
          norm_cast
      _ = 2 ^ m.log2 * 2 ^ e := by rw [hexponent, zpow_add₀ htwo, zpow_natCast]
      _ ≤ a * 2 ^ e := by gcongr

/-- The first shift cuts at the step. -/
theorem roundedMantissa_shift {m : ℕ} {e t : ℤ} {acc : Accuracy} {a : ℚ}
    (hstands : Stands (.ofMantissaAndAccuracy m acc) a) (he : e ≤ t) :
    (shiftToExponent m e acc t).1.roundedMantissa = halfEven (a * 2 ^ e / 2 ^ t) := by
  have hscale : a / 2 ^ (t - e).toNat = a * 2 ^ e / 2 ^ t := by
    have hpow : (2 : ℚ) ^ t = 2 ^ (t - e).toNat * 2 ^ e := by
      rw [← zpow_natCast, Int.toNat_of_nonneg (by omega), ← zpow_add₀ (by norm_num)]
      congr 1
      omega
    rw [hpow, mul_div_mul_right _ _ (by positivity)]
  rw [← hscale]
  exact (hstands.shiftRight _).roundedMantissa

/-- The second shift brings a mantissa that was rounded up to 2^53 back
    below it. -/
theorem second_shift {r : ℕ} {t : ℤ} (hr : r ≤ 2 ^ 53) (hlow : -1074 ≤ t)
    (hnormal : -1074 < t → 2 ^ 52 ≤ r) :
    ∃ m e, shiftToTargetExponent .binary64 r t .exact = (⟨m, false, false⟩, e) ∧
      Fitted m e ∧ (m : ℚ) * 2 ^ e = r * 2 ^ t := by
  rw [shiftToTargetExponent, targetExponent_eq]
  rcases hr.lt_or_eq with hlt | rfl
  · have hlog : r.log2 < 53 := by
      by_cases hzero : r = 0
      · rw [hzero]
        decide
      · exact (Nat.log2_lt hzero).mpr hlt
    have hnone : (max ((r.log2 : ℤ) + 1 + t - 53) (-1074) - t).toNat = 0 := by omega
    refine ⟨r, t, ?_, ⟨hlt, hlow, hnormal⟩, rfl⟩
    simp only [shiftToExponent, hnone]
    exact Prod.ext rfl (add_zero t)
  -- 2^53 has one digit too many, but that digit is zero
  · have hone : (max (((2 ^ 53 : ℕ).log2 : ℤ) + 1 + t - 53) (-1074) - t).toNat = 1 := by
      rw [Nat.log2_two_pow]
      omega
    refine ⟨2 ^ 52, t + 1, ?_, ⟨by norm_num, by omega, fun _ => le_rfl⟩, ?_⟩
    · simp only [shiftToExponent, hone]
      rfl
    · rw [zpow_add_one₀ (by norm_num)]
      push_cast
      ring

/-- What is made of a mantissa that needs no more rounding. -/
def settled (s : Sign) (p : ExtendedMantissa × ℤ) : UnpackedFloat :=
  if h : p.1.mantissa = 0 then .zero s
  else .finite s p.1.mantissa p.2 (Nat.pos_of_ne_zero h)

/-- Rounding shifts twice: the second time if a digit was carried. -/
theorem roundWithAccuracy_eq (s : Sign) (m : ℕ) (e : ℤ) (acc : Accuracy) :
    roundWithAccuracy .binary64 s m e acc
      = let first := shiftToTargetExponent .binary64 m e acc
        settled s (shiftToTargetExponent .binary64 first.1.roundedMantissa first.2 .exact) := rfl

/-- An unpacked number in fitted form, of a sign and a size; its exponent
    may be too large for a double. -/
def Represents (s : Sign) (r : ℚ) : UnpackedFloat → Prop
  | .zero s' => s' = s ∧ r = 0
  | .finite s' m e _ => s' = s ∧ Fitted m e ∧ r = m * 2 ^ e
  | _ => False

/-- Rounding gives the nearest number, provided that no digits are missing
    in front of the place where it cuts. -/
theorem represents_roundWithAccuracy (s : Sign) {m : ℕ} {e : ℤ} {acc : Accuracy} {a : ℚ}
    (ha : 0 < a) (hstands : Stands (.ofMantissaAndAccuracy m acc) a)
    (he : e ≤ max (m.log2 + 1 + e - 53) (-1074)) (hm : m = 0 → e ≤ -1074) :
    Represents s (nearestAbove (a * 2 ^ e)) (roundWithAccuracy .binary64 s m e acc) := by
  have hmantissa : (ExtendedMantissa.ofMantissaAndAccuracy m acc).mantissa = m := by
    cases acc with
    | exact => rfl
    | inexact o => cases o <;> rfl
  obtain ⟨hlow, hhigh⟩ := Guard.bounds hstands
  rw [hmantissa] at hlow hhigh
  have hstep := step_of_mantissa ha (by linarith) (by linarith) hm
  rw [← hstep] at he
  have hfirst := roundedMantissa_shift hstands he
  have hexponent : e + ((step (a * 2 ^ e) - e).toNat : ℤ) = step (a * 2 ^ e) := by omega
  -- rounding may carry into a further digit, which the second shift takes
  -- off again
  obtain ⟨m', e', hsecond, hfitted, hvalue⟩ := second_shift
    (halfEven_step_le (a * 2 ^ e)) (le_step _) (le_halfEven_step (by positivity))
  have hround : roundWithAccuracy .binary64 s m e acc = settled s (⟨m', false, false⟩, e') := by
    rw [roundWithAccuracy_eq, shiftToTargetExponent, targetExponent_eq, ← hstep]
    show settled s (shiftToTargetExponent _ _ (e + ((step (a * 2 ^ e) - e).toNat : ℤ)) _) = _
    rw [hexponent, hfirst, hsecond]
  rw [hround, settled, nearestAbove, ← hvalue]
  by_cases hzero : m' = 0
  · rw [dif_pos hzero, hzero]
    exact ⟨rfl, by norm_num⟩
  · rw [dif_neg hzero]
    exact ⟨rfl, hfitted, rfl⟩

/-- Shifting by some digits makes a number so much longer. -/
theorem log2_shiftLeft {m : ℕ} (hm : m ≠ 0) (k : ℕ) : (m <<< k).log2 = m.log2 + k := by
  rw [Nat.shiftLeft_eq]
  refine (Nat.log2_eq_iff (by positivity)).mpr ⟨?_, ?_⟩
  · rw [pow_add]
    exact Nat.mul_le_mul_right _ (Nat.log2_self_le hm)
  · rw [Nat.add_right_comm, pow_add]
    exact Nat.mul_lt_mul_of_pos_right Nat.lt_log2_self (by positivity)

/-- Missing digits are filled with zeros before the cut. -/
theorem represents_round (s : Sign) {m : ℕ} (e : ℤ) (hm : 0 < m) :
    Represents s (nearestAbove (m * 2 ^ e)) (round .binary64 s m e) := by
  obtain ⟨k, hk⟩ : ∃ k, k = (e - max (m.log2 + 1 + e - 53 : ℤ) (-1074)).toNat := ⟨_, rfl⟩
  -- first the mantissa is shifted to the left, which changes nothing
  have hround : round .binary64 s m e = roundWithAccuracy .binary64 s (m <<< k) (e - k) .exact := by
    rw [hk]
    rfl
  have hvalue : ((m <<< k : ℕ) : ℚ) * 2 ^ (e - k) = m * 2 ^ e := by
    rw [Nat.shiftLeft_eq, zpow_sub₀ (by norm_num), zpow_natCast]
    push_cast
    field_simp
  have hpos : (0 : ℚ) < (m <<< k : ℕ) := by
    rw [Nat.shiftLeft_eq]
    positivity
  have hcut : e - k ≤ max ((m <<< k).log2 + 1 + (e - k) - 53) (-1074) := by
    rw [log2_shiftLeft hm.ne']
    omega
  rw [hround, ← hvalue]
  refine represents_roundWithAccuracy s hpos (stands_exact _) hcut ?_
  intro hzero
  rw [hzero, Nat.cast_zero] at hpos
  exact absurd hpos (lt_irrefl 0)

/-! ## Doubles -/

/-- Finite doubles are smaller than this. -/
def limit : ℚ := 2 ^ 1024

theorem limit_pos : 0 < limit := by
  unfold limit
  positivity

/-- A double is the one for a number: the nearest, or an infinity if there
    is none so large. -/
structure Rounds (q : ℚ) (x : Float) : Prop where
  finite : |nearest q| < limit → x.isFinite ∧ value x = nearest q
  above : limit ≤ nearest q → x.toModel.unpack = .infinity .positive
  below : nearest q ≤ -limit → x.toModel.unpack = .infinity .negative

/-- Rounding is symmetric about zero. -/
theorem nearest_signed (s : Sign) {p : ℚ} (hp : 0 ≤ p) :
    nearest (signed s p) = signed s (nearestAbove p) := by
  cases s with
  | positive => exact nearest_of_nonneg hp
  | negative =>
      show nearest (-p) = -nearestAbove p
      rw [nearest_neg, nearest_of_nonneg hp]

/-- Up to exponent 971 what fits is below the bound. -/
theorem Fitted.lt_limit {m : ℕ} {e : ℤ} (h : Fitted m e) (he : e ≤ 971) :
    (m : ℚ) * 2 ^ e < limit := by
  have hm : (m : ℚ) < 2 ^ 53 := mod_cast h.mantissa_lt
  calc (m : ℚ) * 2 ^ e < 2 ^ 53 * 2 ^ e := by gcongr
    _ ≤ 2 ^ 53 * 2 ^ ((971 : ℕ) : ℤ) := by gcongr; norm_num; exact he
    _ = limit := by rw [zpow_natCast, ← pow_add, limit]

/-- Beyond it, what fits has reached the bound. -/
theorem Fitted.limit_le {m : ℕ} {e : ℤ} (h : Fitted m e) (he : 971 < e) :
    limit ≤ m * 2 ^ e := by
  have hm : (2 : ℚ) ^ 52 ≤ m := mod_cast h.normal (by omega)
  calc limit = 2 ^ 52 * 2 ^ ((972 : ℕ) : ℤ) := by rw [zpow_natCast, ← pow_add, limit]
    _ ≤ 2 ^ 52 * 2 ^ e := by gcongr; norm_num; exact he
    _ ≤ m * 2 ^ e := by gcongr

/-- The unpacked form of what a number is rounded to. -/
def Rounded (q : ℚ) (u : UnpackedFloat) : Prop :=
  ∃ s p, 0 ≤ p ∧ signed s p = q ∧ Represents s (nearestAbove p) u

theorem abs_signed (s : Sign) (p : ℚ) : |signed s p| = |p| := by
  cases s with
  | positive => rfl
  | negative => exact abs_neg p

/-- A finite double rounds a number if it is the nearest and below the
    bound. -/
theorem rounds_of_finite {q : ℚ} {x : Float} (hlt : |nearest q| < limit) (hx : x.isFinite)
    (hvalue : value x = nearest q) : Rounds q x where
  finite _ := ⟨hx, hvalue⟩
  above h := absurd (h.trans (le_abs_self _)) (not_le.mpr hlt)
  below h := absurd ((le_neg.mpr h).trans (neg_le_abs _)) (not_le.mpr hlt)

/-- An infinity rounds the numbers whose nearest has reached the bound. -/
theorem rounds_of_infinity {q p : ℚ} {x : Float} {s : Sign} (hle : limit ≤ p)
    (hq : nearest q = signed s p) (hx : x.toModel.unpack = .infinity s) : Rounds q x := by
  have habs : limit ≤ |nearest q| := by
    rw [hq, abs_signed]
    exact hle.trans (le_abs_self p)
  have htop := limit_pos
  cases s with
  | positive =>
      have hq : nearest q = p := hq
      exact ⟨fun h => absurd h habs.not_gt, fun _ => hx, fun h => by linarith⟩
  | negative =>
      have hq : nearest q = -p := hq
      exact ⟨fun h => absurd h habs.not_gt, fun h => by linarith, fun _ => hx⟩

/-- Packing what has been rounded.  Only an exponent above 971 is lost on
    the way, and then the size is at least `limit`. -/
theorem Rounded.rounds {q : ℚ} {u : UnpackedFloat} {x : Float} (h : Rounded q u)
    (hx : x.toModel.unpack = unpack .binary64 (pack .binary64 u)) : Rounds q x := by
  obtain ⟨s, p, hp, rfl, h⟩ := h
  have hnearest := nearest_signed s hp
  cases u with
  | notANumber | infinity => exact h.elim
  | zero s' =>
      obtain ⟨rfl, hsize⟩ := h
      have hunpack : x.toModel.unpack = .zero s' := by
        rw [hx]
        cases s' <;> rfl
      have hzero : nearest (signed s' p) = 0 := by
        rw [hnearest, hsize]
        cases s' <;> simp [signed]
      refine rounds_of_finite ?_ (congrArg UnpackedFloat.isFinite hunpack) ?_
      · rw [hzero, abs_zero]
        exact limit_pos
      · rw [hzero]
        exact congrArg rational hunpack
  | finite s' m e hm =>
      obtain ⟨rfl, hfitted, hsize⟩ := h
      rw [hsize] at hnearest
      by_cases he : e ≤ 971
      · -- what fits is packed as it is
        rw [unpack_pack s' hm hfitted he] at hx
        refine rounds_of_finite ?_ (congrArg UnpackedFloat.isFinite hx) ?_
        · rw [hnearest, abs_signed, abs_of_pos (magnitude_pos e hm)]
          exact hfitted.lt_limit he
        · rw [hnearest]
          exact congrArg rational hx
      · -- what is too large is packed as an infinity
        rw [unpack_pack_of_large s' hm (by omega)] at hx
        exact rounds_of_infinity (hfitted.limit_le (by omega)) hnearest hx

end BeatShield.Double
