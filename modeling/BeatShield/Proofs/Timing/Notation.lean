import BeatShield.Proofs.Timing.Segments

/-! # Notation — an offset is read back from what is written

    What is written for an offset is put together from segments
    (`Offset.spells_pieces`), so reading finds them where they were put,
    with their values (`Offset.read_write`).  Only negative parts and
    those with too many digits are not read back (`Offset.Readable`).  An
    offset without negative parts (`Offset.Natural`) has no negative
    length. -/

namespace BeatShield

/-! ## Digits -/

namespace Decimal

/-- Whether a reader takes the digits of an integer: it is not negative
    and not too long. -/
def Readable (n : Int) : Prop := 0 ≤ n ∧ (digits n.toNat).length ≤ digitLimit

theorem digits_ne_nil (n : Nat) : digits n ≠ [] := Nat.toDigits_ne_nil

theorem isDigit_of_mem_digits {n : Nat} {c : Char} (h : c ∈ digits n) : c.isDigit = true :=
  Nat.isDigit_of_mem_toDigits (by decide) (by decide) h

/-- A number that is not negative is written by its digits alone. -/
theorem integer_of_nonneg {n : Int} (h : 0 ≤ n) : integer n = digits n.toNat := by
  have hsign : decide (n < 0) = false := decide_eq_false (Int.not_lt.mpr h)
  have habs : n.natAbs = n.toNat := by omega
  rw [integer, hsign, habs]
  rfl

end Decimal

namespace Offset

open Decimal

/-! ## Parts -/

/-- What is written for an integer is a segment of its value. -/
theorem segment_integer {n : Int} (h : 0 ≤ n) : Segment (integer n) n := by
  have hvalue : ((Nat.ofDigitChars 10 (digits n.toNat) 0 : Nat) : Int) = n := by
    rw [digits, Nat.ofDigitChars_ten_toDigits]
    exact Int.toNat_of_nonneg h
  have hsegment := Segment.digits (digits_ne_nil n.toNat) fun _ => isDigit_of_mem_digits
  rwa [hvalue, ← integer_of_nonneg h] at hsegment

/-- A number that can be read back is written in a short run. -/
theorem shortRuns_integer {n : Int} (h : Decimal.Readable n) : ShortRuns (integer n) := by
  rw [integer_of_nonneg h.1]
  exact .of_length_le h.2

/-! ## Whole offsets -/

/-- An offset that is read back: all parts that it has are readable. -/
structure Readable (o : Offset) : Prop where
  fourths : ∀ n ∈ o.fourths, Decimal.Readable n
  beats : Decimal.Readable o.beats
  bars : ∀ n ∈ o.bars, Decimal.Readable n

variable {o : Offset}

/-- What is written in front of the beats. -/
def front (o : Offset) : List Char :=
  match o.fourths with
  | none => []
  | some fourths => integer fourths ++ [';']

/-- What is written behind the beats. -/
def back (o : Offset) : List Char :=
  match o.bars with
  | none => []
  | some bars => '|' :: integer bars

theorem write_eq (o : Offset) : o.write = o.front ++ (integer o.beats ++ o.back) :=
  List.append_assoc _ _ _

/-- The pieces that an offset is written with. -/
def pieces (o : Offset) : Pieces :=
  { fourths := o.fourths.map integer
    beats := integer o.beats
    bars := o.bars.map integer }

/-- What is written is the pieces put together. -/
theorem join_pieces (o : Offset) : o.pieces.join = o.write := by
  rw [write_eq, front, back, Pieces.join, Pieces.rest, pieces]
  cases o.fourths <;> cases o.bars <;> simp

/-- The pieces spell the offset that they are written for. -/
theorem spells_pieces (h : o.Readable) : o.pieces.Spells o := by
  have hpart : ∀ part : Option Int, (∀ n ∈ part, Decimal.Readable n) →
      Option.Rel Segment (part.map integer) part := by
    intro part hpart
    cases part with
    | none => exact .none
    | some n => exact .some (segment_integer (hpart n rfl).1)
  exact {
    fourths := hpart o.fourths h.fourths
    beats := segment_integer h.beats.1
    bars := hpart o.bars h.bars }

/-- They are short enough to be read. -/
theorem short_pieces (h : o.Readable) : o.pieces.Short := by
  have hpart : ∀ part : Option Int, (∀ n ∈ part, Decimal.Readable n) →
      ∀ text ∈ part.map integer, ShortRuns text := by
    intro part hpart text htext
    obtain ⟨n, hn, rfl⟩ := Option.map_eq_some_iff.mp htext
    exact shortRuns_integer (hpart n hn)
  exact {
    fourths := hpart o.fourths h.fourths
    beats := shortRuns_integer h.beats
    bars := hpart o.bars h.bars }

/-- What is written is read back, with the parts that were absent still
    absent. -/
theorem read_write (h : o.Readable) : read o.write = .ok o := by
  have hspells := spells_pieces h
  rw [← join_pieces]
  exact (read_cut_eq_ok_iff hspells.cut (short_pieces h)).mpr hspells

/-! ## Offsets without negative parts -/

/-- Whether no part of an offset is negative. -/
structure Natural (o : Offset) : Prop where
  fourths : ∀ n ∈ o.fourths, 0 ≤ n
  beats : 0 ≤ o.beats
  bars : ∀ n ∈ o.bars, 0 ≤ n

namespace Natural

/-- A part that is absent counts as zero. -/
theorem getD_nonneg {part : Option Int} (h : ∀ n ∈ part, 0 ≤ n) : 0 ≤ part.getD 0 := by
  cases part with
  | none => exact Int.le_refl 0
  | some n => exact h n rfl

/-- Fourths that are missing count for none, so they are not negative. -/
theorem fourths_getD_nonneg (h : o.Natural) : 0 ≤ o.fourths.getD 0 := getD_nonneg h.fourths

theorem bars_getD_nonneg (h : o.Natural) : 0 ≤ o.bars.getD 0 := getD_nonneg h.bars

theorem totalFourths_nonneg (h : o.Natural) : 0 ≤ o.totalFourths := by
  have hfourths := h.fourths_getD_nonneg
  have hbeats := h.beats
  have hbars := h.bars_getD_nonneg
  rw [totalFourths]
  omega

end Natural

end Offset

end BeatShield
