import Mathlib
import BeatShield.Number.Binary

/-! # Value — the rational number that a double stands for

    The 64 bits of a double unpack to a sign, a mantissa and an exponent,
    or to one of the values beyond the finite ones.

      * Which mantissas and exponents occur is `Fitted`; packing keeps
        them (`unpack_pack`) and turns what is too large into an infinity.
      * A number has one fitted form only, so comparing exponents first
        and mantissas second is comparing values (`le_iff_value`).
      * With the infinities at both ends the doubles are ordered by
        `place`, and only NaN stands outside (`le_iff_place`). -/

namespace BeatShield.Double

open Float.Model (Format UnpackedFloat)
open Float.Model.UnpackedFloat

/-! ## Bits -/

/-- Mantissas and exponents as doubles have them, but for an upper bound
    on the exponent: 53 digits, fewer only at the lowest exponent. -/
structure Fitted (m : ℕ) (e : ℤ) : Prop where
  mantissa_lt : m < 2 ^ 53
  exponent_ge : -1074 ≤ e
  normal : -1074 < e → 2 ^ 52 ≤ m

theorem bias_eq : (Format.binary64.exponentBias : ℤ)
    + Format.binary64.mantissaBitsWithoutImplicit = 1075 := rfl

/-- A normal mantissa has a leading digit that is not stored. -/
theorem toNat_one_append (fraction : BitVec 52) :
    (1#1 ++ fraction).toNat = 2 ^ 52 + fraction.toNat := by
  rw [BitVec.toNat_append]
  exact (Nat.two_pow_add_eq_or_of_lt fraction.isLt 1).symm

/-- What is unpacked from 64 bits fits, and is not too large. -/
theorem fitted_of_unpack {b : BitVec Format.binary64.numBits} {s : Sign} {m : ℕ} {e : ℤ}
    {hm : 0 < m} (h : unpack .binary64 b = .finite s m e hm) : Fitted m e ∧ e ≤ 971 := by
  have hfraction : (unpackMantissa b).toNat < 2 ^ 52 := BitVec.isLt _
  have hfield : (unpackExponent b).toNat < 2 ^ 11 := BitVec.isLt _
  rw [unpack, bias_eq] at h
  simp only at h
  split at h
  · split at h <;> exact nomatch h
  · rename_i hnotAll
    have hall : (unpackExponent b).toNat ≠ 2047 :=
      fun heq => hnotAll (BitVec.eq_of_toNat_eq heq)
    split at h
    -- an exponent field of zero drops the leading digit
    · rename_i hnone
      split at h
      · exact nomatch h
      · obtain ⟨-, rfl, rfl⟩ := UnpackedFloat.finite.inj h
        have hvalue : (unpackExponent b).toNat = 0 := congrArg BitVec.toNat hnone
        rw [hvalue]
        exact ⟨⟨by omega, by decide, fun hlt => absurd hlt (by decide)⟩, by decide⟩
    · rename_i hsome
      have hzero : (unpackExponent b).toNat ≠ 0 :=
        fun heq => hsome (BitVec.eq_of_toNat_eq heq)
      obtain ⟨-, rfl, rfl⟩ := UnpackedFloat.finite.inj h
      rw [toNat_one_append]
      exact ⟨⟨by omega, by omega, fun _ => by omega⟩, by omega⟩

theorem sign_unpack (s : Sign) (field : BitVec 11) (fraction : BitVec 52) :
    Sign.ofBitVec (unpackSign (packComponents .binary64 s field fraction)) = s := by
  rw [unpackSign_packComponents, Sign.ofBitVec_toBitVec]

/-- With an exponent field of zero the mantissa is what is stored, at the
    lowest exponent. -/
theorem unpack_subnormal (s : Sign) (fraction : BitVec 52) (h : 0 < fraction.toNat) :
    unpack .binary64 (packComponents .binary64 s 0#11 fraction)
      = .finite s fraction.toNat (-1074) h := by
  have hne : fraction ≠ 0#52 := by
    rintro rfl
    exact absurd h (by decide)
  rw [unpack]
  simp only [unpackExponent_packComponents, unpackMantissa_packComponents, sign_unpack]
  rw [if_neg (by decide), if_pos trivial, dif_neg hne]
  rfl

/-- With any other field but the last, the leading digit is put back. -/
theorem unpack_normal (s : Sign) {field : BitVec 11} {fraction : BitVec 52} {m : ℕ} {e : ℤ}
    (hm : 0 < m) (hlow : -1074 ≤ e) (hhigh : e ≤ 971) (hfield : (field.toNat : ℤ) = e + 1075)
    (hfraction : 2 ^ 52 + fraction.toNat = m) :
    unpack .binary64 (packComponents .binary64 s field fraction) = .finite s m e hm := by
  have hall : field ≠ -1#11 := by
    rintro rfl
    have htop : (-1#11).toNat = 2047 := rfl
    omega
  have hnone : field ≠ 0#11 := by
    rintro rfl
    have hbottom : (0#11).toNat = 0 := rfl
    omega
  -- the field is neither of the two special ones, so exponent and mantissa
  -- are what it says
  obtain rfl : e = field.toNat - 1075 := by omega
  subst hfraction
  rw [unpack, bias_eq]
  simp only [unpackExponent_packComponents, unpackMantissa_packComponents, sign_unpack]
  rw [if_neg hall, if_neg hnone]
  congr 1
  exact toNat_one_append fraction

/-- What is packed in fitted form, if its exponent is that of a double. -/
theorem pack_of_fitted (s : Sign) {m : ℕ} {e : ℤ} (hm : 0 < m) (h : Fitted m e)
    (hhigh : e ≤ 971) :
    pack .binary64 (.finite s m e hm) = packComponents .binary64 s
      (if 2 ^ 52 ≤ m then BitVec.ofNat 11 (e + 1075).toNat else 0#11) (BitVec.ofNat 52 m) := by
  have hlow := h.exponent_ge
  have hbias : (e + Format.binary64.exponentBias
      + Format.binary64.mantissaBitsWithoutImplicit).toNat = (e + 1075).toNat :=
    congrArg Int.toNat (add_assoc e _ _)
  have hfits : ¬ 2 ^ Format.binary64.exponentBits ≤ (e + 1075).toNat + 1 := by
    show ¬ 2 ^ 11 ≤ _
    omega
  have hdigits : m.log2 + 1 = Format.binary64.mantissaBits ↔ 2 ^ 52 ≤ m := by
    -- a mantissa has all 53 digits from 2^52 on
    show m.log2 + 1 = 53 ↔ _
    have hlog := Nat.le_log2 hm.ne' (k := 52)
    have htop := Nat.log2_lt hm.ne' (k := 53)
    have hmantissa := h.mantissa_lt
    omega
  rw [pack, hbias]
  by_cases hnormal : 2 ^ 52 ≤ m
  · rw [if_neg hfits, if_pos (hdigits.mpr hnormal), if_pos hnormal]
  · rw [if_neg hfits, if_neg (mt hdigits.mp hnormal), if_neg hnormal]

/-- Packing keeps what is in fitted form, if its exponent is that of a
    double. -/
theorem unpack_pack (s : Sign) {m : ℕ} {e : ℤ} (hm : 0 < m) (h : Fitted m e)
    (hhigh : e ≤ 971) :
    unpack .binary64 (pack .binary64 (.finite s m e hm)) = .finite s m e hm := by
  have hmantissa := h.mantissa_lt
  have hlow := h.exponent_ge
  have hfraction : (BitVec.ofNat 52 m).toNat = m % 2 ^ 52 := rfl
  rw [pack_of_fitted s hm h hhigh]
  by_cases hnormal : 2 ^ 52 ≤ m
  · have hfield : (BitVec.ofNat 11 (e + 1075).toNat).toNat = (e + 1075).toNat % 2 ^ 11 := rfl
    rw [if_pos hnormal]
    exact unpack_normal s hm hlow hhigh (by omega) (by omega)
  · -- a mantissa with fewer digits only occurs at the lowest exponent
    have hlowest : -1074 = e := by
      by_contra hne
      exact hnormal (h.normal (by omega))
    have hsame : (BitVec.ofNat 52 m).toNat = m := by omega
    have hunpack := unpack_subnormal s (BitVec.ofNat 52 m) (by omega)
    rw [if_neg hnormal]
    refine hunpack.trans ?_
    congr 1

/-- What is too large for a double is packed as an infinity. -/
theorem unpack_pack_of_large (s : Sign) {m : ℕ} {e : ℤ} (hm : 0 < m) (hlarge : 971 < e) :
    unpack .binary64 (pack .binary64 (.finite s m e hm)) = .infinity s := by
  have hoverflow : 2 ^ Format.binary64.exponentBits ≤ (e + Format.binary64.exponentBias
      + Format.binary64.mantissaBitsWithoutImplicit).toNat + 1 := by
    rw [add_assoc, bias_eq]
    show 2 ^ 11 ≤ _
    omega
  rw [pack, if_pos hoverflow]
  cases s <;> rfl

/-- The unpacked forms that doubles have. -/
def Canonical : UnpackedFloat → Prop
  | .finite _ m e _ => Fitted m e ∧ e ≤ 971
  | _ => True

/-- What a double unpacks to is canonical. -/
theorem canonical_unpack (x : Float) : Canonical x.toModel.unpack := by
  cases h : x.toModel.unpack with
  | finite s m e hm => exact fitted_of_unpack h
  | _ => trivial

/-! ## Values -/

/-- A number with a sign in front. -/
def signed : Sign → ℚ → ℚ
  | .negative, p => -p
  | .positive, p => p

/-- The number that an unpacked double stands for; a value beyond the
    finite ones stands for none and is given zero. -/
def rational : UnpackedFloat → ℚ
  | .finite s m e _ => signed s (m * 2 ^ e)
  | _ => 0

/-- The number that a finite double stands for. -/
def value (x : Float) : ℚ := rational x.toModel.unpack

theorem magnitude_pos {m : ℕ} (e : ℤ) (hm : 0 < m) : (0 : ℚ) < m * 2 ^ e := by
  have hm : (0 : ℚ) < m := mod_cast hm
  positivity

/-! ## Order -/

namespace Fitted

variable {m₁ m₂ : ℕ} {e₁ e₂ : ℤ}

/-- The smallest number of an exponent is greater than all of lower ones. -/
theorem lt_of_exponent_lt (h₁ : Fitted m₁ e₁) (h₂ : Fitted m₂ e₂) (he : e₁ < e₂) :
    (m₁ : ℚ) * 2 ^ e₁ < m₂ * 2 ^ e₂ := by
  have hbelow : (m₁ : ℚ) < 2 ^ 53 := mod_cast h₁.mantissa_lt
  have habove : (2 : ℚ) ^ 52 ≤ m₂ := mod_cast h₂.normal (h₁.exponent_ge.trans_lt he)
  have hexponent : e₁ + 1 ≤ e₂ := he
  calc (m₁ : ℚ) * 2 ^ e₁ < 2 ^ 53 * 2 ^ e₁ := by gcongr
    _ = 2 ^ 52 * 2 ^ (e₁ + 1) := by rw [zpow_add_one₀ (by norm_num)]; ring
    _ ≤ 2 ^ 52 * 2 ^ e₂ := by gcongr; norm_num
    _ ≤ m₂ * 2 ^ e₂ := by gcongr

/-- Comparing exponents first and mantissas second is comparing values. -/
theorem compare_eq (h₁ : Fitted m₁ e₁) (h₂ : Fitted m₂ e₂) :
    (compare e₁ e₂).then (compare m₁ m₂) = compare ((m₁ : ℚ) * 2 ^ e₁) (m₂ * 2 ^ e₂) := by
  rcases lt_trichotomy e₁ e₂ with he | rfl | he
  · rw [compare_lt_iff_lt.mpr he, compare_lt_iff_lt.mpr (h₁.lt_of_exponent_lt h₂ he)]
    rfl
  · rw [compare_eq_iff_eq.mpr rfl]
    -- at one exponent the mantissas decide
    rcases lt_trichotomy m₁ m₂ with hm | rfl | hm
    · have hvalue : (m₁ : ℚ) * 2 ^ e₁ < m₂ * 2 ^ e₁ := by gcongr
      rw [compare_lt_iff_lt.mpr hm, compare_lt_iff_lt.mpr hvalue]
      rfl
    · rw [compare_eq_iff_eq.mpr rfl, compare_eq_iff_eq.mpr rfl]
      rfl
    · have hvalue : (m₂ : ℚ) * 2 ^ e₁ < m₁ * 2 ^ e₁ := by gcongr
      rw [compare_gt_iff_gt.mpr hm, compare_gt_iff_gt.mpr hvalue]
      rfl
  · rw [compare_gt_iff_gt.mpr he, compare_gt_iff_gt.mpr (h₂.lt_of_exponent_lt h₁ he)]
    rfl

end Fitted

theorem compare_neg_neg (a b : ℚ) : compare (-a) (-b) = (compare a b).swap := by
  rcases lt_trichotomy a b with h | rfl | h
  · rw [compare_lt_iff_lt.mpr h, compare_gt_iff_gt.mpr (neg_lt_neg h)]
    rfl
  · rw [compare_eq_iff_eq.mpr rfl, compare_eq_iff_eq.mpr rfl]
    rfl
  · rw [compare_gt_iff_gt.mpr h, compare_lt_iff_lt.mpr (neg_lt_neg h)]
    rfl

/-- Finite doubles are compared by their values.  Signs are compared
    first, and among negative ones the order is turned round. -/
theorem compare_eq {u v : UnpackedFloat} (hu : Canonical u) (hv : Canonical v)
    (hfu : u.isFinite) (hfv : v.isFinite) :
    u.compare v = some (compare (rational u) (rational v)) := by
  cases u with
  | infinity | notANumber => exact nomatch hfu
  | zero s₁ =>
      cases v with
      | infinity | notANumber => exact nomatch hfv
      | zero s₂ => exact congrArg some (compare_eq_iff_eq.mpr rfl).symm
      | finite s₂ m₂ e₂ hm₂ =>
          have h₂ := magnitude_pos e₂ hm₂
          cases s₂ with
          | positive => exact congrArg some (compare_lt_iff_lt.mpr h₂).symm
          | negative => exact congrArg some (compare_gt_iff_gt.mpr (neg_lt_zero.mpr h₂)).symm
  | finite s₁ m₁ e₁ hm₁ =>
      have h₁ := magnitude_pos e₁ hm₁
      cases v with
      | infinity | notANumber => exact nomatch hfv
      | zero s₂ =>
          cases s₁ with
          | positive => exact congrArg some (compare_gt_iff_gt.mpr h₁).symm
          | negative => exact congrArg some (compare_lt_iff_lt.mpr (neg_lt_zero.mpr h₁)).symm
      | finite s₂ m₂ e₂ hm₂ =>
          have h₂ := magnitude_pos e₂ hm₂
          cases s₁ <;> cases s₂
          · show _ = some (compare (-_) (-_))
            rw [compare_neg_neg, ← hu.1.compare_eq hv.1]
            rfl
          · exact congrArg some (compare_lt_iff_lt.mpr ((neg_lt_zero.mpr h₁).trans h₂)).symm
          · exact congrArg some (compare_gt_iff_gt.mpr ((neg_lt_zero.mpr h₂).trans h₁)).symm
          · exact congrArg some (hu.1.compare_eq hv.1)

/-- Where an unpacked double stands in the order; NaN stands nowhere. -/
def place : UnpackedFloat → Option (WithBot (WithTop ℚ))
  | .infinity .negative => some ⊥
  | .infinity .positive => some (⊤ : WithTop ℚ)
  | .notANumber => none
  | u => some (rational u : WithTop ℚ)

/-- A finite double has its value for its place. -/
theorem place_of_finite {u : UnpackedFloat} (h : u.isFinite) :
    place u = some (rational u : WithTop ℚ) := by
  cases u with
  | infinity | notANumber => exact nomatch h
  | zero | finite => rfl

theorem compare_coe (a b : ℚ) :
    compare ((a : WithTop ℚ) : WithBot (WithTop ℚ)) (b : WithTop ℚ) = compare a b := by
  rcases lt_trichotomy a b with h | rfl | h
  · rw [compare_lt_iff_lt.mpr h, compare_lt_iff_lt.mpr (mod_cast h)]
  · rw [compare_eq_iff_eq.mpr rfl, compare_eq_iff_eq.mpr rfl]
  · rw [compare_gt_iff_gt.mpr h, compare_gt_iff_gt.mpr (mod_cast h)]

/-- Doubles are compared by their places. -/
theorem compare_eq_place {u v : UnpackedFloat} (hu : Canonical u) (hv : Canonical v) :
    u.compare v = (place u).bind fun p => (place v).map fun q => compare p q := by
  have hbot : ∀ q : WithTop ℚ, (⊥ : WithBot (WithTop ℚ)) < q := WithBot.bot_lt_coe
  have htop : ∀ q : ℚ, ((q : WithTop ℚ) : WithBot (WithTop ℚ)) < (⊤ : WithTop ℚ) :=
    fun q => WithBot.coe_lt_coe.mpr (WithTop.coe_lt_top q)
  cases u with
  | notANumber => rfl
  | infinity s₁ =>
      cases v with
      | notANumber => cases s₁ <;> rfl
      | infinity s₂ =>
          -- of two negative numbers the larger mantissa is the lesser number
          cases s₁ <;> cases s₂
          · exact congrArg some (compare_eq_iff_eq.mpr rfl).symm
          · exact congrArg some (compare_lt_iff_lt.mpr (hbot _)).symm
          · exact congrArg some (compare_gt_iff_gt.mpr (hbot _)).symm
          · exact congrArg some (compare_eq_iff_eq.mpr rfl).symm
      | zero | finite =>
          cases s₁
          · exact congrArg some (compare_lt_iff_lt.mpr (hbot _)).symm
          · exact congrArg some (compare_gt_iff_gt.mpr (htop _)).symm
  | zero | finite =>
      cases v with
      | notANumber => rfl
      | infinity s₂ =>
          cases s₂
          · exact congrArg some (compare_gt_iff_gt.mpr (hbot _)).symm
          · exact congrArg some (compare_lt_iff_lt.mpr (htop _)).symm
      | zero | finite =>
          rw [compare_eq hu hv rfl rfl]
          exact congrArg some (compare_coe _ _).symm

variable {a b x y z : Float}

/-- Doubles are ordered by their places; NaN has none. -/
theorem le_iff_place :
    x ≤ y ↔ ∃ p ∈ place x.toModel.unpack, ∃ q ∈ place y.toModel.unpack, p ≤ q := by
  have hunpacked : x ≤ y ↔ x.toModel.unpack.le y.toModel.unpack = true := by
    constructor
    · intro h
      exact of_decide_eq_true (show decide (x.toModel ≤ y.toModel) = true from h)
    · intro h
      show decide (x.toModel ≤ y.toModel) = true
      exact decide_eq_true h
  have hcompare := compare_eq_place (canonical_unpack x) (canonical_unpack y)
  rw [hunpacked, UnpackedFloat.le, hcompare]
  cases place x.toModel.unpack <;> cases place y.toModel.unpack <;>
    simp [Ordering.isLE_iff_ne_gt, compare_gt_iff_gt]

theorem lt_iff_place :
    x < y ↔ ∃ p ∈ place x.toModel.unpack, ∃ q ∈ place y.toModel.unpack, p < q := by
  have hunpacked : x < y ↔ x.toModel.unpack.lt y.toModel.unpack = true := by
    constructor
    · intro h
      exact of_decide_eq_true (show decide (x.toModel < y.toModel) = true from h)
    · intro h
      show decide (x.toModel < y.toModel) = true
      exact decide_eq_true h
  have hcompare := compare_eq_place (canonical_unpack x) (canonical_unpack y)
  rw [hunpacked, UnpackedFloat.lt, hcompare]
  cases place x.toModel.unpack <;> cases place y.toModel.unpack <;>
    simp [compare_lt_iff_lt]

protected theorem le_of_lt (h : x < y) : x ≤ y := by
  obtain ⟨p, hp, q, hq, hpq⟩ := lt_iff_place.mp h
  exact le_iff_place.mpr ⟨p, hp, q, hq, hpq.le⟩

/-- Transitivity does not need finite doubles: NaN is never compared. -/
protected theorem lt_of_lt_of_le (h : x < y) (h' : y ≤ z) : x < z := by
  obtain ⟨p, hp, q, hq, hpq⟩ := lt_iff_place.mp h
  obtain ⟨q', hq', r, hr, hqr⟩ := le_iff_place.mp h'
  obtain rfl : q = q' := Option.mem_unique hq hq'
  exact lt_iff_place.mpr ⟨p, hp, r, hr, hpq.trans_le hqr⟩

protected theorem lt_of_le_of_lt (h : x ≤ y) (h' : y < z) : x < z := by
  obtain ⟨p, hp, q, hq, hpq⟩ := le_iff_place.mp h
  obtain ⟨q', hq', r, hr, hqr⟩ := lt_iff_place.mp h'
  obtain rfl : q = q' := Option.mem_unique hq hq'
  exact lt_iff_place.mpr ⟨p, hp, r, hr, hpq.trans_lt hqr⟩

/-- Between finite doubles the order is that of the values. -/
theorem le_iff_value (hx : x.isFinite) (hy : y.isFinite) : x ≤ y ↔ value x ≤ value y := by
  rw [le_iff_place, place_of_finite hx, place_of_finite hy]
  simp [value]

theorem lt_iff_value (hx : x.isFinite) (hy : y.isFinite) : x < y ↔ value x < value y := by
  rw [lt_iff_place, place_of_finite hx, place_of_finite hy]
  simp [value]

/-- Between finite doubles there are only finite ones. -/
theorem isFinite_of_between (ha : a.isFinite) (hb : b.isFinite) (hax : a ≤ x) (hxb : x ≤ b) :
    x.isFinite := by
  rw [le_iff_place, place_of_finite ha] at hax
  rw [le_iff_place, place_of_finite hb] at hxb
  show x.toModel.unpack.isFinite
  cases hx : x.toModel.unpack with
  | zero s | finite s m e hm => rfl
  | notANumber =>
      rw [hx] at hxb
      simp [place] at hxb
  | infinity s =>
      rw [hx] at hax hxb
      cases s <;> simp [place] at hax hxb

end BeatShield.Double
