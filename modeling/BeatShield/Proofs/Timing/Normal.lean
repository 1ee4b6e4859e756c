import BeatShield.Number.Binary
import BeatShield.Proofs.Timing.Notation

/-! # Normal — the one plain notation of an offset

    A plus sign and zeros in front of other digits are read, but they are
    not part of the value.  So an offset has many notations, and it is
    written in the plain one.

      * The digits of a value are no more than the digits it was read from
        (`Decimal.length_digits_le`).  What has been read can therefore be
        read again from what is written for it (`readable_of_read`), and
        none of it is negative (`natural_of_read`).
      * They are the same digits exactly if no needless zero stands in
        front (`Decimal.digits_ofDigitChars_eq_iff`), which with the plus
        sign gives the segments that are written as they were read
        (`Segment.integer_eq_iff`).
      * An atom is cut in one way only (`Pieces.Cut.unique`), so the whole
        is written as it was read exactly if every segment is
        (`write_eq_iff`). -/

namespace BeatShield

/-! ## Digits of a value that was read -/

namespace Decimal

variable {text : List Char}

/-- A digit is the character of its value. -/
theorem digitChar_of_isDigit {c : Char} (h : c.isDigit = true) :
    c.toNat - '0'.toNat < 10 ∧ Nat.digitChar (c.toNat - '0'.toNat) = c := by
  have hrange : 48 ≤ c.toNat ∧ c.toNat ≤ 57 := Char.isDigit_iff_toNat.mp h
  have hzero : '0'.toNat = 48 := rfl
  have hlt : c.toNat - '0'.toNat < 10 := by omega
  refine ⟨hlt, Char.toNat_inj.mp ?_⟩
  rw [Nat.toNat_digitChar_of_lt_ten hlt]
  omega

/-- So many digits spell a number below that power of ten. -/
theorem ofDigitChars_lt (hall : ∀ c ∈ text, c.isDigit = true) :
    Nat.ofDigitChars 10 text 0 < tenTo text.length := by
  induction text with
  | nil => exact Nat.one_pos
  | cons c rest ih =>
      obtain ⟨hc, hrest⟩ := List.forall_mem_cons.mp hall
      -- the first digit is at most nine, and the others are fewer than its
      -- place
      have hlead : tenTo rest.length * (c.toNat - '0'.toNat) ≤ tenTo rest.length * 9 :=
        Nat.mul_le_mul_left _ (Nat.le_of_lt_succ (digitChar_of_isDigit hc).1)
      have hlater := ih hrest
      rw [Nat.ofDigitChars_cons, Nat.mul_zero, Nat.zero_add,
        Nat.ofDigitChars_eq_ofDigitChars_zero, List.length_cons]
      show tenTo rest.length * (c.toNat - '0'.toNat) + Nat.ofDigitChars 10 rest 0
        < tenTo rest.length * 10
      omega

/-- A value has no more digits than it was read from. -/
theorem length_digits_le (hne : text ≠ []) (hall : ∀ c ∈ text, c.isDigit = true) :
    (digits (Nat.ofDigitChars 10 text 0)).length ≤ text.length :=
  (Nat.length_toDigits_le_iff (by decide) (List.length_pos_iff.mpr hne)).mpr
    (ofDigitChars_lt hall)

/-- Digits behind a positive number become its last digits. -/
theorem digits_ofDigitChars_append {n : Nat} (hn : 0 < n) (hall : ∀ c ∈ text, c.isDigit = true) :
    digits (Nat.ofDigitChars 10 text n) = digits n ++ text := by
  induction text generalizing n with
  | nil => simp
  | cons c rest ih =>
      obtain ⟨hc, hrest⟩ := List.forall_mem_cons.mp hall
      obtain ⟨hlt, hchar⟩ := digitChar_of_isDigit hc
      have hone : digits (10 * n + (c.toNat - '0'.toNat)) = digits n ++ [c] := by
        rw [digits, ← Nat.toDigits_append_toDigits (by decide) hn hlt,
          Nat.toDigits_of_lt_base hlt, hchar]
        rfl
      rw [Nat.ofDigitChars_cons, ih (by omega) hrest, hone, List.append_assoc]
      rfl

/-- A value is written with the digits it was read from exactly if there
    is no zero in front of other digits. -/
theorem digits_ofDigitChars_eq_iff (hne : text ≠ []) (hall : ∀ c ∈ text, c.isDigit = true) :
    digits (Nat.ofDigitChars 10 text 0) = text ↔ ∀ rest, text = '0' :: rest → rest = [] := by
  constructor
  · rintro h rest rfl
    cases rest with
    | nil => rfl
    | cons c rest =>
        -- without the zero the value is the same, and it has fewer digits
        have hshort := length_digits_le (List.cons_ne_nil c rest) (List.forall_mem_cons.mp hall).2
        rw [Nat.ofDigitChars_cons, Nat.mul_zero, Nat.zero_add, Nat.sub_self] at h
        rw [h] at hshort
        exact absurd hshort (Nat.not_succ_le_self _)
  · intro h
    cases text with
    | nil => exact absurd rfl hne
    | cons c rest =>
        obtain ⟨hc, hrest⟩ := List.forall_mem_cons.mp hall
        obtain ⟨hlt, hchar⟩ := digitChar_of_isDigit hc
        by_cases hzero : c = '0'
        · subst hzero
          rw [h rest rfl]
          rfl
        · have hpos : 0 < c.toNat - '0'.toNat := by
            refine Nat.pos_of_ne_zero fun heq => hzero ?_
            rw [← hchar, heq]
            rfl
          rw [Nat.ofDigitChars_cons, Nat.mul_zero, Nat.zero_add,
            digits_ofDigitChars_append hpos hrest, digits, Nat.toDigits_of_lt_base hlt, hchar]
          rfl

end Decimal

namespace Offset

open Decimal

/-! ## Plain segments -/

/-- A segment without a plus sign, and without a zero in front of other
    digits. -/
structure Plain (text : List Char) : Prop where
  unsigned : '+' ∉ text
  unpadded : ∀ rest, text = '0' :: rest → rest = []

variable {text : List Char} {n : Int}

/-- A segment is written as it was read exactly if it is plain. -/
theorem Segment.integer_eq_iff (h : Segment text n) : integer n = text ↔ Plain text := by
  cases h with
  | digits hne hall =>
      have hplus : '+' ∉ text := fun hmem => absurd (hall '+' hmem) (by decide)
      rw [integer_of_nonneg (Int.natCast_nonneg _), Int.toNat_natCast,
        digits_ofDigitChars_eq_iff hne hall]
      exact ⟨fun hpadding => ⟨hplus, hpadding⟩, Plain.unpadded⟩
  | plus hne hall =>
      refine iff_of_false ?_ fun hplain => hplain.unsigned List.mem_cons_self
      intro heq
      rw [integer_of_nonneg (Int.natCast_nonneg _)] at heq
      have hdigit := isDigit_of_mem_digits (heq ▸ List.mem_cons_self)
      exact absurd hdigit (by decide)

/-! ## What was read can be read again -/

/-- What has been read is the value of a segment, and can be read again from
    its digits. -/
theorem of_readPart {n : Nat} (h : readPart text = .ok n) :
    Segment text n ∧ Decimal.Readable n := by
  by_cases hsegment : IsSegment text
  · obtain ⟨hne, hall⟩ := isSegment_iff.mp hsegment
    rw [readPart_eq_of_isSegment hsegment] at h
    -- reading itself has checked the limit that reading again needs
    by_cases hlimit : digitLimit < (unsigned text).length
    · rw [if_pos hlimit] at h
      cases h
    · rw [if_neg hlimit] at h
      obtain rfl := Except.ok.inj h
      have hlength := Nat.le_trans (length_digits_le hne hall) (Nat.le_of_not_lt hlimit)
      exact ⟨segment_iff.mpr ⟨hne, hall, rfl⟩, Int.natCast_nonneg _, hlength⟩
  · rw [readPart_of_not_isSegment hsegment] at h
    cases h

theorem of_readOptional {part : Option (List Char)} {value : Option Int}
    (h : readOptional part = .ok value) :
    Option.Rel Segment part value ∧ ∀ n ∈ value, Decimal.Readable n := by
  cases part with
  | none =>
      cases h
      exact ⟨.none, nofun⟩
  | some text =>
      obtain ⟨k, hk, hvalue⟩ := Checked.bind_eq_ok.mp h
      cases hvalue
      obtain ⟨hsegment, hreadable⟩ := of_readPart hk
      refine ⟨.some hsegment, ?_⟩
      intro n hn
      obtain rfl := Option.some.inj hn
      exact hreadable

variable {atom : List Char} {o : Offset} {p q : Pieces}

/-- What is read is spelt by the pieces, and short enough to be read
    again. -/
theorem of_read (hcut : p.Cut atom) (h : read atom = .ok o) : p.Spells o ∧ o.Readable := by
  rw [read_of_cut hcut] at h
  obtain ⟨fourths, hf, h1⟩ := Checked.bind_eq_ok.mp h
  obtain ⟨bars, hr, h2⟩ := Checked.bind_eq_ok.mp h1
  obtain ⟨beats, hb, h3⟩ := Checked.bind_eq_ok.mp h2
  cases h3
  obtain ⟨hfourths, readableFourths⟩ := of_readOptional hf
  obtain ⟨hbars, readableBars⟩ := of_readOptional hr
  obtain ⟨hbeats, readableBeats⟩ := of_readPart hb
  exact ⟨⟨hfourths, hbeats, hbars⟩, ⟨readableFourths, readableBeats, readableBars⟩⟩

/-- What has been read can be read back once it is written. -/
theorem readable_of_read (h : read atom = .ok o) : o.Readable := by
  obtain ⟨p, hcut⟩ := Pieces.exists_cut atom
  exact (of_read hcut h).2

/-- Reading gives no negative parts. -/
theorem natural_of_read (h : read atom = .ok o) : o.Natural := by
  have hreadable := readable_of_read h
  exact {
    fourths := fun n hn => (hreadable.fourths n hn).1
    beats := hreadable.beats.1
    bars := fun n hn => (hreadable.bars n hn).1 }

/-! ## What is written as it was read -/

/-- An atom is cut in one way only. -/
theorem Pieces.Cut.unique (hp : p.Cut atom) (hq : q.Cut atom) : p = q := by
  have hparts := hp.parts_eq.symm.trans hq.parts_eq
  obtain ⟨fourths, beats, bars⟩ := p
  obtain ⟨fourths', beats', bars'⟩ := q
  cases hparts
  rfl

/-- A piece is written as it was read exactly if it is plain. -/
theorem map_integer_eq_iff {part : Option (List Char)} {value : Option Int}
    (h : Option.Rel Segment part value) :
    value.map integer = part ↔ ∀ text ∈ part, Plain text := by
  cases h with
  | none => simp
  | some hsegment => simp [hsegment.integer_eq_iff]

/-- The pieces that are written are those that were read exactly if these
    are plain. -/
theorem pieces_eq_iff (h : p.Spells o) : o.pieces = p ↔ ∀ text ∈ p.texts, Plain text := by
  obtain ⟨fourths, beats, bars⟩ := p
  simp only [pieces, Pieces.mk.injEq, map_integer_eq_iff h.fourths, map_integer_eq_iff h.bars,
    h.beats.integer_eq_iff, Pieces.mem_texts]
  constructor
  · rintro ⟨hfourths, hbeats, hbars⟩ text (htext | htext | rfl)
    · exact hfourths text htext
    · exact hbars text htext
    · exact hbeats
  · intro hall
    exact ⟨fun text htext => hall text (.inl htext), hall beats (.inr (.inr rfl)),
      fun text htext => hall text (.inr (.inl htext))⟩

/-- An atom is written as it was read exactly if all its pieces are plain. -/
theorem write_eq_iff (hcut : p.Cut atom) (h : read atom = .ok o) :
    o.write = atom ↔ ∀ text ∈ p.texts, Plain text := by
  obtain ⟨hspells, hreadable⟩ := of_read hcut h
  rw [← pieces_eq_iff hspells, ← join_pieces]
  constructor
  · rintro rfl
    exact (spells_pieces hreadable).cut.unique hcut
  · rintro rfl
    exact hcut.join

/-- The offsets that are read back from what is written for them are those
    without negative parts and without more digits than a reader accepts.
    Whatever an atom is read as is read back, so writing it a second time
    changes nothing; and the atom is what is written exactly if none of its
    segments has a plus sign or a needless zero. -/
theorem notation_round_trips :
    (∀ o : Offset, o.Readable ↔ read o.write = .ok o) ∧
    ∀ (atom : List Char) (o : Offset), read atom = .ok o →
      read o.write = .ok o ∧
      ∃ p : Pieces, p.Cut atom ∧ (o.write = atom ↔ ∀ text ∈ p.texts, Plain text) := by
  constructor
  · intro o
    exact ⟨read_write, readable_of_read⟩
  · intro atom o h
    obtain ⟨p, hcut⟩ := Pieces.exists_cut atom
    exact ⟨read_write (readable_of_read h), p, hcut, write_eq_iff hcut h⟩

/-- A plus sign and a leading zero are read, and gone in what is written;
    that is plain, and stays as it is. -/
theorem signs_and_zeros_are_dropped :
    let o : Offset := { fourths := some 1, beats := 2, bars := some 0 }
    let adorned := "+1;02|0".toList
    let plain := "1;2|0".toList
    read adorned = .ok o ∧ read plain = .ok o ∧ o.write = plain ∧ read o.write = .ok o ∧
      (∃ p : Pieces, p.Cut adorned ∧ ¬ ∀ text ∈ p.texts, Plain text) ∧
      ∃ p : Pieces, p.Cut plain ∧ ∀ text ∈ p.texts, Plain text := by
  intro o adorned plain
  have hadorned : read adorned = .ok o := rfl
  have hplain : read plain = .ok o := rfl
  have hwrite : o.write = plain := by decide
  have hother : o.write ≠ adorned := by decide
  obtain ⟨hback, p, hcut, hiff⟩ := notation_round_trips.2 adorned o hadorned
  obtain ⟨-, q, hcut', hiff'⟩ := notation_round_trips.2 plain o hplain
  exact ⟨hadorned, hplain, hwrite, hback, ⟨p, hcut, fun hall => hother (hiff.mpr hall)⟩,
    q, hcut', hiff'.mp hwrite⟩

end Offset

end BeatShield
