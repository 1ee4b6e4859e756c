import BeatShield.Proofs.Chart.Written
import BeatShield.Proofs.Timing.Position

/-! # Label — what is shown is an offset in its plain notation

    A label counts the fourths since the start of the music.  They are
    computed as a double (`progress`), and the position is that of its
    integer part, or the start if that is negative (`reached_eq`).

    No double reaches two to the 1024, so the bars of a label are an
    integer that has a double, and a reader takes their digits
    (`readable_bars`).  Hence a label is read back as the position that is
    shown, and what is written for that is the label itself
    (`label_is_plain_notation`).  Nothing is asked of the time and the
    tempo but that the computed number of fourths is finite. -/

namespace BeatShield.Position

open Double

variable {elapsed tempo : Float} {n : Int}

/-- The fourths since the start of the music, as they are computed. -/
def progress (elapsed tempo : Float) : Float := elapsed * Tempo.beatRate tempo * 4.0

/-- The position is that of the integer part of the progress. -/
theorem reached_eq (h : (progress elapsed tempo).isFinite)
    (hn : Scalar.truncate (value (progress elapsed tempo)) = .ok n) :
    reached elapsed tempo = .ok (ofFourths n.toNat) := by
  rw [← truncate_value h] at hn
  show (Scalar.truncate (progress elapsed tempo) >>= fun fourths =>
    .ok (ofFourths fourths.toNat)) = _
  rw [hn]
  rfl

/-- The bars that a double can count have no more digits than a reader
    accepts. -/
theorem readable_bars {x : Float} (hn : Scalar.truncate (value x) = .ok n) :
    (Decimal.digits (n.toNat / 16)).length ≤ Decimal.digitLimit := by
  have hfourths : n.toNat < twoTo 1024 := by
    rw [Scalar.toNat_of_truncate hn]
    exact floor_value_lt x
  have hlimit : twoTo 1024 = 16 * twoTo 1020 := by
    rw [show 1024 = 4 + 1020 from rfl, twoTo_add, show twoTo 4 = 16 from rfl]
  have hstep : twoTo 970 ≤ twoTo 1020 := twoTo_mono (by omega)
  have hbars : n.toNat / 16 < twoTo 1020 := Nat.div_lt_of_lt_mul (hfourths.trans_eq hlimit)
  have hfits : FitsDouble (n.toNat / 16 : Nat) := by
    show n.toNat / 16 < twoTo 1024 - twoTo 970
    omega
  exact (Decimal.readable_of_fits (Int.natCast_nonneg _) hfits).2

/-- Whatever the time and the tempo are, if the computed number of fourths
    is finite, a label is shown.  It is read as an offset that has all
    three parts, with less than four fourths and less than four beats, and
    that is written as the label itself.  Its fourths in all are the
    integer part of the computed number, or zero if that is negative. -/
theorem label_is_plain_notation (h : (progress elapsed tempo).isFinite) :
    ∃ n text o, Scalar.truncate (value (progress elapsed tempo)) = .ok n ∧
      label elapsed tempo = .ok text ∧ Offset.read text.toList = .ok o ∧ o.text = text ∧
      (∃ fourth ∈ o.fourths, 0 ≤ fourth ∧ fourth < 4) ∧ (0 ≤ o.beats ∧ o.beats < 4) ∧
      o.bars.isSome ∧ o.totalFourths = max 0 n := by
  obtain ⟨n, hn⟩ : ∃ n, Scalar.truncate (value (progress elapsed tempo)) = .ok n := ⟨_, rfl⟩
  -- the count that is cut off at zero decides all three parts
  have hlabel : label elapsed tempo = .ok (ofFourths n.toNat).text := by
    rw [label, reached_eq h hn]
    rfl
  refine ⟨n, _, _, hn, hlabel, read_text_ofFourths (readable_bars hn), rfl,
    ⟨_, rfl, ?_⟩, ?_, rfl, ?_⟩
  · rw [Tempo.fourthsPerBeat]
    omega
  · show (0 : Int) ≤ (n.toNat / 4 % 4 : Nat) ∧ ((n.toNat / 4 % 4 : Nat) : Int) < 4
    omega
  · rw [totalFourths_ofFourths]
    omega

/-- Before the start the label stands still.  At a time that no double
    counts in single fourths it is shown all the same, and read back. -/
theorem label_long_before_and_after :
    (progress (-1.5) 120.0).isFinite ∧ (progress 1e300 60.0).isFinite ∧
      label (-1.5 : Float) 120.0 = .ok "0;0|0" ∧
      (∃ o, Offset.read "0;0|0".toList = .ok o ∧ o.text = "0;0|0" ∧ o.totalFourths = max 0 (-12)) ∧
      ∃ n text o, Scalar.truncate (value (progress 1e300 60.0)) = .ok n ∧
        label (1e300 : Float) 60.0 = .ok text ∧ Offset.read text.toList = .ok o ∧
        o.text = text ∧ o.totalFourths = max 0 n := by
  have hearly : (progress (-1.5) 120.0).isFinite := rfl
  have hlate : (progress 1e300 60.0).isFinite := by decide +kernel
  have hlabel : label (-1.5 : Float) 120.0 = .ok "0;0|0" := rfl
  have hpart : Scalar.truncate (value (progress (-1.5) 120.0)) = .ok (-12) := by decide +kernel
  obtain ⟨n, text, o, hn, htext, hread, hwritten, -, -, -, htotal⟩ :=
    label_is_plain_notation hearly
  obtain rfl := Except.ok.inj (hpart.symm.trans hn)
  obtain rfl := Except.ok.inj (hlabel.symm.trans htext)
  obtain ⟨n', text', o', hn', htext', hread', hwritten', -, -, -, htotal'⟩ :=
    label_is_plain_notation hlate
  exact ⟨hearly, hlate, hlabel, ⟨o, hread, hwritten, htotal⟩,
    n', text', o', hn', htext', hread', hwritten', htotal'⟩

end BeatShield.Position
