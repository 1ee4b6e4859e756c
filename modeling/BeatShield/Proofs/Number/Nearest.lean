import Mathlib.Algebra.Order.Field.Power
import Mathlib.Algebra.Order.Floor.Semiring
import Mathlib.Data.Int.Log
import Mathlib.Data.Rat.Floor
import Mathlib.Tactic.GCongr
import Mathlib.Tactic.Linarith
import Mathlib.Tactic.NormNum
import Mathlib.Tactic.Positivity
import Mathlib.Tactic.Ring

/-! # Nearest — rounding without a bound on the exponent

    Doubles have 53 binary digits, or fewer close to zero.  `nearest q` is
    the number with so many digits that is nearest to `q`, of two equally
    near the one whose last digit is even.

    Rounding keeps the order (`nearest_mono`).  All bounds on computed
    doubles rest on this: what is computed from smaller numbers is
    smaller, and the bound itself is computed like any other double. -/

namespace BeatShield

/-- The nearest natural number; of two equally near the even one. -/
def halfEven (a : ℚ) : ℕ :=
  match compare (a - ⌊a⌋₊) (1 / 2) with
  | .lt => ⌊a⌋₊
  | .eq => ⌊a⌋₊ + ⌊a⌋₊ % 2
  | .gt => ⌊a⌋₊ + 1

/-- A whole number is rounded to itself. -/
theorem halfEven_natCast (n : ℕ) : halfEven n = n := by
  have hlow : compare ((n : ℚ) - ⌊(n : ℚ)⌋₊) (1 / 2) = .lt := by
    rw [compare_lt_iff_lt, Nat.floor_natCast]
    norm_num
  rw [halfEven, hlow]
  exact Nat.floor_natCast n

/-- Rounding never falls below the integer part. -/
theorem floor_le_halfEven (a : ℚ) : ⌊a⌋₊ ≤ halfEven a := by
  rw [halfEven]
  split <;> omega

theorem halfEven_le_floor_add_one (a : ℚ) : halfEven a ≤ ⌊a⌋₊ + 1 := by
  rw [halfEven]
  split <;> omega

/-- Rounding to whole numbers keeps the order. -/
theorem halfEven_mono {a b : ℚ} (h : a ≤ b) : halfEven a ≤ halfEven b := by
  rcases (Nat.floor_mono h).lt_or_eq with hlt | heq
  · calc halfEven a ≤ ⌊a⌋₊ + 1 := halfEven_le_floor_add_one a
      _ ≤ ⌊b⌋₊ := hlt
      _ ≤ halfEven b := floor_le_halfEven b
  -- within one step the remainders are compared with a half
  · have hrest : a - ⌊b⌋₊ ≤ b - ⌊b⌋₊ := by linarith
    rw [halfEven, halfEven, heq]
    rcases lt_trichotomy (b - ⌊b⌋₊) (1 / 2) with hb | hb | hb
    · rw [compare_lt_iff_lt.mpr hb, compare_lt_iff_lt.mpr (hrest.trans_lt hb)]
    · rw [compare_eq_iff_eq.mpr hb]
      rcases (hrest.trans hb.le).lt_or_eq with ha | ha
      · rw [compare_lt_iff_lt.mpr ha]
        exact Nat.le_add_right _ _
      · rw [compare_eq_iff_eq.mpr ha]
    · rw [compare_gt_iff_gt.mpr hb]
      show _ ≤ ⌊b⌋₊ + 1
      split <;> omega

/-- The exponent of the power of two that doubles near `q` are multiples
    of: 52 below that of `q`, but not below -1074. -/
def step (q : ℚ) : ℤ := max (Int.log 2 q - 52) (-1074)

/-- The multiple of this power of two that is nearest to a number that is
    not negative. -/
def nearestAbove (q : ℚ) : ℚ := halfEven (q / 2 ^ step q) * 2 ^ step q

/-- The nearest multiple on the side of zero that the number is on. -/
def nearest (q : ℚ) : ℚ := if 0 ≤ q then nearestAbove q else -nearestAbove (-q)

variable {p q : ℚ}

theorem le_step (q : ℚ) : -1074 ≤ step q := le_max_right _ _

/-- A number is fewer of its steps than a mantissa can count. -/
theorem lt_of_step (q : ℚ) : q < 2 ^ 53 * 2 ^ step q := by
  have hlog : q < (2 : ℚ) ^ (Int.log 2 q + 1) := Int.lt_zpow_succ_log_self (by norm_num) q
  have hstep : Int.log 2 q + 1 ≤ 53 + step q := by unfold step; omega
  calc q < (2 : ℚ) ^ (Int.log 2 q + 1) := hlog
    _ ≤ 2 ^ (53 + step q) := by gcongr; norm_num
    _ = 2 ^ 53 * 2 ^ step q := by rw [zpow_add₀ (by norm_num)]; norm_cast

/-- Above the lowest step there are at least as many as a full mantissa
    counts. -/
theorem le_of_step (hq : 0 < q) (hstep : -1074 < step q) : 2 ^ 52 * 2 ^ step q ≤ q := by
  have hlog : (2 : ℚ) ^ Int.log 2 q ≤ q := Int.zpow_log_le_self (by norm_num) hq
  have heq : Int.log 2 q = 52 + step q := by unfold step at hstep ⊢; omega
  calc (2 : ℚ) ^ 52 * 2 ^ step q = 2 ^ (52 + step q) := by
        rw [zpow_add₀ (by norm_num)]; norm_cast
    _ ≤ q := by rwa [← heq]

/-- A number counted in its steps has at most 53 digits once it is rounded,
    but for 2^53 itself. -/
theorem halfEven_step_le (q : ℚ) : halfEven (q / 2 ^ step q) ≤ 2 ^ 53 := by
  have hdiv : q / 2 ^ step q ≤ ((2 ^ 53 : ℕ) : ℚ) := by
    rw [div_le_iff₀ (by positivity)]
    exact_mod_cast (lt_of_step q).le
  exact (halfEven_mono hdiv).trans_eq (halfEven_natCast _)

/-- It has no fewer above the lowest exponent. -/
theorem le_halfEven_step (hq : 0 < q) (hstep : -1074 < step q) :
    2 ^ 52 ≤ halfEven (q / 2 ^ step q) := by
  have hdiv : ((2 ^ 52 : ℕ) : ℚ) ≤ q / 2 ^ step q := by
    rw [le_div_iff₀ (by positivity)]
    exact_mod_cast le_of_step hq hstep
  exact (halfEven_natCast _).symm.trans_le (halfEven_mono hdiv)

/-- Nothing else is the step of a number. -/
theorem step_eq {t : ℤ} (hq : 0 < q) (hlow : -1074 ≤ t) (hlt : q < 2 ^ 53 * 2 ^ t)
    (hle : -1074 < t → 2 ^ 52 * 2 ^ t ≤ q) : step q = t := by
  have hsplit : ∀ n : ℕ, (2 : ℚ) ^ n * 2 ^ t = ((2 : ℕ) : ℚ) ^ ((n : ℤ) + t) := by
    intro n
    rw [zpow_add₀ (by norm_num)]
    norm_cast
  have hbelow : Int.log 2 q < 53 + t := by
    rw [hsplit] at hlt
    exact (Int.lt_zpow_iff_log_lt (by norm_num) hq).mp hlt
  -- above the lowest step both bounds count, on it only the upper one
  rcases hlow.lt_or_eq with hlow | rfl
  · have habove : 52 + t ≤ Int.log 2 q := by
      have hle := hle hlow
      rw [hsplit] at hle
      exact (Int.zpow_le_iff_le_log (by norm_num) hq).mp hle
    unfold step
    omega
  · unfold step
    omega

/-- Larger numbers have larger steps, or the same. -/
theorem step_mono (hp : 0 < p) (h : p ≤ q) : step p ≤ step q :=
  max_le_max_right _ (Int.sub_le_sub_right (Int.log_mono_right hp h) _)

theorem nearestAbove_zero : nearestAbove 0 = 0 := by
  have hzero : halfEven (0 / 2 ^ step 0) = 0 := by
    rw [zero_div]
    exact halfEven_natCast 0
  rw [nearestAbove, hzero]
  norm_num

theorem nearestAbove_nonneg (q : ℚ) : 0 ≤ nearestAbove q := by
  unfold nearestAbove
  positivity

/-- Rounding keeps the order.  Between numbers of different steps lies a
    power of two that both steps divide. -/
theorem nearestAbove_mono (hp : 0 ≤ p) (h : p ≤ q) : nearestAbove p ≤ nearestAbove q := by
  rcases hp.eq_or_lt with rfl | hp
  · rw [nearestAbove_zero]
    exact nearestAbove_nonneg q
  have hq : 0 < q := hp.trans_le h
  rcases (step_mono hp h).eq_or_lt with heq | hlt
  · -- at one step the counts of steps are compared
    have hdiv : p / 2 ^ step q ≤ q / 2 ^ step q := by gcongr
    have hround : (halfEven (p / 2 ^ step q) : ℚ) ≤ halfEven (q / 2 ^ step q) :=
      mod_cast halfEven_mono hdiv
    rw [nearestAbove, nearestAbove, heq]
    gcongr
  · -- else a power of two lies between them, which rounding does not cross
    have hbelow : (halfEven (p / 2 ^ step p) : ℚ) ≤ 2 ^ 53 := mod_cast halfEven_step_le p
    have habove : (2 : ℚ) ^ 52 ≤ halfEven (q / 2 ^ step q) :=
      mod_cast le_halfEven_step hq ((le_step p).trans_lt hlt)
    calc nearestAbove p ≤ 2 ^ 53 * 2 ^ step p := by unfold nearestAbove; gcongr
      _ = 2 ^ 52 * 2 ^ (step p + 1) := by rw [zpow_add_one₀ (by norm_num)]; ring
      _ ≤ 2 ^ 52 * 2 ^ step q := by gcongr; norm_num; exact hlt
      _ ≤ nearestAbove q := by unfold nearestAbove; gcongr

theorem nearest_of_nonneg (hq : 0 ≤ q) : nearest q = nearestAbove q := if_pos hq

/-- Negative numbers are rounded as their mirror images. -/
theorem nearest_neg (q : ℚ) : nearest (-q) = -nearest q := by
  rcases lt_trichotomy q 0 with hq | rfl | hq
  · rw [nearest, nearest, if_pos (by linarith), if_neg (by linarith), neg_neg]
  · rw [neg_zero, nearest_of_nonneg le_rfl, nearestAbove_zero, neg_zero]
  · rw [nearest, nearest, if_neg (by linarith), if_pos hq.le, neg_neg]

/-- Rounding keeps the order. -/
theorem nearest_mono (h : p ≤ q) : nearest p ≤ nearest q := by
  rcases le_or_gt 0 p with hp | hp
  · rw [nearest_of_nonneg hp, nearest_of_nonneg (hp.trans h)]
    exact nearestAbove_mono hp h
  · rcases le_or_gt 0 q with hq | hq
    · rw [nearest, if_neg hp.not_ge, nearest_of_nonneg hq]
      have := nearestAbove_nonneg (-p)
      have := nearestAbove_nonneg q
      linarith
    · rw [nearest, nearest, if_neg hp.not_ge, if_neg hq.not_ge]
      exact neg_le_neg (nearestAbove_mono (by linarith) (by linarith))

end BeatShield
