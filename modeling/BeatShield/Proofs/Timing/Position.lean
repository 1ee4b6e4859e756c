import BeatShield.Timing.Offset
import BeatShield.Proofs.Chart.Arrivals
import BeatShield.Proofs.Number.Whole
import BeatShield.Proofs.Run.Exact
import BeatShield.Proofs.Timing.Notation
import Mathlib.Algebra.Order.Floor.Semifield
import Mathlib.Data.Rat.Floor

/-! # Position — labels and lengths undo each other

    A label splits a number of fourths into three parts (`ofFourths`), and
    an offset adds three parts up (`Offset.totalFourths`).

      * Adding up undoes the split (`totalFourths_ofFourths`).  The split
        undoes adding up where there are three parts and the lower two are
        not full (`ofFourths_totalFourths`).
      * A label is read back with its parts if the bars have no more
        digits than a reader accepts (`read_text_ofFourths`).
      * Over the rationals the fourths of a time are the whole part of
        `elapsed * tempo / 15` (`reached_exact`), and so many fourths last
        `15 / tempo` seconds each (`Offset.seconds_exact`).

    So the way from a time to its label and back to seconds loses less
    than a fourth, and the way from a length loses nothing
    (`labels_and_lengths_are_inverse`). -/

namespace BeatShield

namespace Position

/-! ## Fourths in three parts -/

/-- The three parts have as many fourths as were split. -/
theorem totalFourths_ofFourths (n : Nat) : (ofFourths n).totalFourths = n := by
  show ((n % 4 : Nat) : Int) + 4 * (n / 4 % 4 : Nat) + 16 * (n / 16 : Nat) = n
  omega

/-- Three parts are split as they are if the lower two are not full. -/
theorem ofFourths_totalFourths {o : Offset} (h : o.Natural) (hfourths : o.fourths.isSome)
    (hbars : o.bars.isSome) (hfourth : o.fourths.getD 0 < 4) (hbeat : o.beats < 4) :
    ofFourths o.totalFourths.toNat = o := by
  obtain ⟨fourths, beats, bars⟩ := o
  obtain ⟨f, rfl⟩ := Option.isSome_iff_exists.mp hfourths
  obtain ⟨b, rfl⟩ := Option.isSome_iff_exists.mp hbars
  have hf : 0 ≤ f := h.fourths f rfl
  have hb : 0 ≤ b := h.bars b rfl
  have hbeats : 0 ≤ beats := h.beats
  have hf4 : f < 4 := hfourth
  have hbeats4 : beats < 4 := hbeat
  have htotal : Offset.totalFourths ⟨some f, beats, some b⟩ = f + 4 * beats + 16 * b := rfl
  rw [htotal, ofFourths, Offset.mk.injEq, Option.some.injEq, Option.some.injEq,
    Tempo.fourthsPerBeat, Tempo.beatsPerBar]
  omega

/-! ## Labels are read back -/

/-- A part below four has one digit. -/
theorem readable_of_lt_four {k : Nat} (h : k < 4) : Decimal.Readable k := by
  refine ⟨Int.natCast_nonneg k, ?_⟩
  rw [Int.toNat_natCast, Decimal.digits, Nat.toDigits_of_lt_base (h.trans (by decide))]
  show 1 ≤ Decimal.digitLimit
  decide

/-- Of a label only the bars may be too long to be read. -/
theorem readable_ofFourths {n : Nat}
    (h : (Decimal.digits (n / 16)).length ≤ Decimal.digitLimit) : (ofFourths n).Readable where
  fourths := by
    rintro _ ⟨⟩
    exact readable_of_lt_four (Nat.mod_lt _ (by decide))
  beats := readable_of_lt_four (Nat.mod_lt _ (by decide))
  bars := by
    rintro _ ⟨⟩
    exact ⟨Int.natCast_nonneg _, h⟩

/-- A position is read back from its text, unless it has too many bars for
    that. -/
theorem read_text_ofFourths {n : Nat}
    (h : (Decimal.digits (n / 16)).length ≤ Decimal.digitLimit) :
    Offset.read (ofFourths n).text.toList = .ok (ofFourths n) := by
  rw [Offset.text, String.toList_ofList]
  exact Offset.read_write (readable_ofFourths h)

/-! ## Positions in exact arithmetic -/

section

variable {elapsed tempo : Rat}

/-- Whether the bars complete by then have no more digits than an integer
    may have. -/
def Legible (elapsed tempo : Rat) : Prop :=
  (Decimal.digits ⌊elapsed * tempo / 240⌋₊).length ≤ Decimal.digitLimit

/-- Sixteen fourths are a bar. -/
theorem floor_bars (x : Rat) : ⌊x / 15⌋₊ / 16 = ⌊x / 240⌋₊ := by
  rw [← Nat.floor_div_ofNat, div_div]
  norm_num

/-- In exact arithmetic the position counts the fourths that are complete. -/
theorem reached_exact (htempo : 0 < tempo) (helapsed : 0 ≤ elapsed) :
    reached elapsed tempo = .ok (ofFourths ⌊elapsed * tempo / 15⌋₊) := by
  have hfourths : elapsed * Tempo.beatRate tempo * 4.0 = elapsed * tempo / 15 := by
    rw [Tempo.beatRate_exact]
    norm_num
    ring
  have hpos : 0 ≤ elapsed * tempo / 15 := by positivity
  rw [reached, hfourths, Scalar.truncate_exact hpos]
  rfl

/-- A legible position is shown, and read back as it was reached. -/
theorem exists_label (htempo : 0 < tempo) (helapsed : 0 ≤ elapsed) (h : Legible elapsed tempo) :
    label elapsed tempo = .ok (ofFourths ⌊elapsed * tempo / 15⌋₊).text ∧
    Offset.read (ofFourths ⌊elapsed * tempo / 15⌋₊).text.toList
      = .ok (ofFourths ⌊elapsed * tempo / 15⌋₊) := by
  constructor
  · rw [label, reached_exact htempo helapsed]
    rfl
  · refine read_text_ofFourths ?_
    rw [floor_bars]
    exact h

/-- So many fourths last as long as their number says. -/
theorem seconds_ofFourths (htempo : 0 < tempo) (n : Nat) :
    (ofFourths n).seconds tempo = .ok (15 / tempo * n) := by
  rw [Offset.seconds_exact _ htempo, totalFourths_ofFourths, Int.cast_natCast]

/-- The complete fourths of a time last no longer than it, and with one
    more they do. -/
theorem fourths_bracket (htempo : 0 < tempo) (helapsed : 0 ≤ elapsed) :
    15 / tempo * ⌊elapsed * tempo / 15⌋₊ ≤ elapsed ∧
    elapsed < 15 / tempo * ⌊elapsed * tempo / 15⌋₊ + 15 / tempo := by
  have hfourth : 0 < 15 / tempo := by positivity
  have hall : 15 / tempo * (elapsed * tempo / 15) = elapsed := by
    field_simp
  constructor
  · calc 15 / tempo * ⌊elapsed * tempo / 15⌋₊
        ≤ 15 / tempo * (elapsed * tempo / 15) :=
          mul_le_mul_of_nonneg_left (Nat.floor_le (by positivity)) hfourth.le
      _ = elapsed := hall
  · calc elapsed = 15 / tempo * (elapsed * tempo / 15) := hall.symm
      _ < 15 / tempo * (⌊elapsed * tempo / 15⌋₊ + 1) :=
          mul_lt_mul_of_pos_left (Nat.lt_floor_add_one _) hfourth
      _ = 15 / tempo * ⌊elapsed * tempo / 15⌋₊ + 15 / tempo := mul_add_one ..

/-- By the end of an offset its fourths are complete. -/
theorem floor_seconds {o : Offset} (htempo : 0 < tempo) (h : o.Natural) :
    ⌊15 / tempo * o.totalFourths * tempo / 15⌋₊ = o.totalFourths.toNat := by
  have hcount : (o.totalFourths.toNat : Rat) = o.totalFourths :=
    mod_cast Int.toNat_of_nonneg h.totalFourths_nonneg
  have hcancel : 15 / tempo * o.totalFourths * tempo / 15 = o.totalFourths := by
    field_simp
  rw [hcancel, ← hcount, Nat.floor_natCast]

end

/-- At every positive tempo the label of a time is read as an offset that
    ends at most a fourth before it, and the label of the end of an offset
    is read as an offset of the same length.  It is what is written for
    that offset if it has three parts and the lower two are not full. -/
theorem labels_and_lengths_are_inverse {tempo : Rat} (htempo : 0 < tempo) :
    (∀ elapsed : Rat, 0 ≤ elapsed → Legible elapsed tempo →
      ∃ text o s, label elapsed tempo = .ok text ∧ Offset.read text.toList = .ok o ∧
        o.seconds tempo = .ok s ∧ s ≤ elapsed ∧ elapsed < s + 15 / tempo) ∧
    ∀ o : Offset, o.Natural → ∃ s, o.seconds tempo = .ok s ∧
      (Legible s tempo → ∃ text o', label s tempo = .ok text ∧
        Offset.read text.toList = .ok o' ∧ o'.seconds tempo = .ok s ∧
        (o.fourths.isSome → o.bars.isSome → o.fourths.getD 0 < 4 → o.beats < 4 →
          text = o.text)) := by
  constructor
  · intro elapsed helapsed hlegible
    obtain ⟨hlabel, hread⟩ := exists_label htempo helapsed hlegible
    obtain ⟨hle, hlt⟩ := fourths_bracket htempo helapsed
    exact ⟨_, _, _, hlabel, hread, seconds_ofFourths htempo _, hle, hlt⟩
  · intro o ho
    refine ⟨_, o.seconds_exact htempo, ?_⟩
    intro hlegible
    have hfourths : (0 : Rat) ≤ o.totalFourths := mod_cast ho.totalFourths_nonneg
    -- at its own length an offset has completed all its fourths, and no more
    have hend : 0 ≤ 15 / tempo * o.totalFourths := by positivity
    obtain ⟨hlabel, hread⟩ := exists_label htempo hend hlegible
    rw [floor_seconds htempo ho] at hlabel hread
    refine ⟨_, _, hlabel, hread, ?_, ?_⟩
    · rw [Offset.seconds_exact _ htempo, totalFourths_ofFourths,
        Int.toNat_of_nonneg ho.totalFourths_nonneg]
    · intro hf hb hfourth hbeat
      rw [ofFourths_totalFourths ho hf hb hfourth hbeat]

/-- At ninety beats a minute a fourth lasts a sixth of a second.  A label
    between two fourths is read as the end of the first, and `5;6|1` is
    shown in its normal form. -/
theorem position_at_ninety :
    let o : Offset := { fourths := some 5, beats := 6, bars := some 1 }
    (0 : Rat) < 90 ∧ Legible (18 / 5) 90 ∧ o.Natural ∧ Legible (15 / 2) 90 ∧
      (∃ text o s, label (18 / 5 : Rat) 90 = .ok text ∧ Offset.read text.toList = .ok o ∧
        o.seconds (90 : Rat) = .ok s ∧ s ≤ 18 / 5 ∧ 18 / 5 < s + 15 / 90) ∧
      o.seconds (90 : Rat) = .ok (15 / 2) ∧
      ∃ o', label (15 / 2 : Rat) 90 = .ok "1;3|2" ∧ Offset.read "1;3|2".toList = .ok o' ∧
        o'.seconds (90 : Rat) = .ok (15 / 2) := by
  intro o
  have htempo : (0 : Rat) < 90 := by norm_num
  have hbetween : Legible (18 / 5) 90 := by
    norm_num [Legible]
    decide
  have hend : Legible (15 / 2) 90 := by
    norm_num [Legible]
    decide
  have ho : o.Natural := ⟨by decide, by decide, by decide⟩
  have hseconds : o.seconds (90 : Rat) = .ok (15 / 2) := by
    rw [o.seconds_exact htempo]
    norm_num [o, Offset.totalFourths]
  have hlabel : label (15 / 2 : Rat) 90 = .ok "1;3|2" := by decide +kernel
  obtain ⟨hlabels, hlengths⟩ := labels_and_lengths_are_inverse htempo
  obtain ⟨s, hs, hback⟩ := hlengths o ho
  obtain rfl := Except.ok.inj (hseconds.symm.trans hs)
  obtain ⟨text, o', htext, hread, hlength, -⟩ := hback hend
  obtain rfl := Except.ok.inj (hlabel.symm.trans htext)
  exact ⟨htempo, hbetween, ho, hend, hlabels _ (by norm_num) hbetween, hseconds,
    o', hlabel, hread, hlength⟩

end Position

end BeatShield
