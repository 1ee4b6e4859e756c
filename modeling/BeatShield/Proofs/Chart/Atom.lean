import BeatShield.Chart.Token
import BeatShield.Proofs.Timing.Normal

/-! # Atom — what an atom is taken for

    Offsets are tried before numerals and keywords, and no keyword is an
    offset.  So the atoms that become offsets are those that are read as
    such (`Token.ofAtom_eq_timeOffset_iff`), and these are the ones that
    the grammar of offsets allows.  The rest is left to the numerals and
    keywords (`Token.ofAtom_of_malformed`), unless a part of an offset has
    too many digits (`Token.ofAtom_eq_number_iff`). -/

namespace BeatShield

namespace Token

variable {atom : List Char} {o : Offset}

/-- No keyword is an offset. -/
theorem ofKeyword?_ne_timeOffset (atom : List Char) (o : Offset) :
    ofKeyword? (α := Float) atom ≠ some (.timeOffset o) := by
  intro h
  obtain ⟨before, after, hsplit, -⟩ := List.lookup_eq_some_iff.mp h
  have hmem : (atom, timeOffset o) ∈ keywords (α := Float) := by
    rw [hsplit]
    exact List.mem_append_right before List.mem_cons_self
  simp [keywords] at hmem

/-- What is not read as an offset is tried as a numeral, then as a
    keyword. -/
theorem ofAtom_of_malformed {text : List Char} (h : Offset.read atom = .error (.malformed text)) :
    ofAtom atom = match Numeral.read atom, ofKeyword? atom with
      | some numeral, _ => .ok (.number numeral.toFloat)
      | none, some token => .ok token
      | none, none => .error (.unrecognizedAtom atom) := by
  rw [ofAtom, h]
  cases Numeral.read atom with
  | some numeral => rfl
  | none => cases ofKeyword? (α := Float) atom <;> rfl

/-- The only offsets among the tokens are those that were read as such. -/
theorem ofAtom_eq_timeOffset_iff :
    ofAtom atom = .ok (.timeOffset o) ↔ Offset.read atom = .ok o := by
  cases hread : Offset.read atom with
  | ok offset => simp [ofAtom, hread]
  | error reason =>
      -- an atom that is not read as an offset becomes something else, or
      -- nothing
      refine iff_of_false ?_ (by simp)
      cases reason with
      | tooManyDigits count => simp [ofAtom, hread]
      | malformed text =>
          rw [ofAtom_of_malformed hread]
          cases Numeral.read atom with
          | some numeral => simp
          | none =>
              cases hkeyword : ofKeyword? (α := Float) atom with
              | none => simp
              | some token =>
                  intro htoken
                  cases htoken
                  exact ofKeyword?_ne_timeOffset atom o hkeyword

/-- An atom runs into a limit of numbers exactly if a part of an offset has
    too many digits. -/
theorem ofAtom_eq_number_iff {cause : NumberError} :
    ofAtom atom = .error (.number cause) ↔
      ∃ count, Offset.read atom = .error (.tooManyDigits count) ∧ cause = .tooManyDigits count := by
  cases hread : Offset.read atom with
  | ok offset => simp [ofAtom, hread]
  | error reason =>
      cases reason with
      | tooManyDigits count => simp [ofAtom, hread, eq_comm]
      | malformed text =>
          rw [ofAtom_of_malformed hread]
          cases Numeral.read atom with
          | some numeral => simp
          | none => cases ofKeyword? (α := Float) atom <;> simp

/-- An offset that was read has no negative part. -/
theorem natural_of_ofAtom (h : ofAtom atom = .ok (.timeOffset o)) : o.Natural :=
  Offset.natural_of_read (ofAtom_eq_timeOffset_iff.mp h)

/-- No offset of a text has a negative part. -/
theorem natural_of_ofText {source : List Char} {tokens : List (Token Float)}
    (h : ofText source = .ok tokens) (ho : timeOffset o ∈ tokens) : o.Natural := by
  obtain ⟨atom, -, hatom⟩ := Checked.exists_of_mem_mapM h ho
  exact natural_of_ofAtom hatom

end Token

/-- An atom becomes an offset exactly if it is in the notation of offsets,
    and a part is absent exactly if its separator is.  Any other atom is
    no offset because of its first malformed piece, and if it is no number
    and no keyword either, it is refused as a whole. -/
theorem offset_notation_is_recognised {atom : List Char} (h : Offset.ShortRuns atom) :
    (∀ o, Token.ofAtom atom = .ok (.timeOffset o) ↔ Offset.Notates atom o) ∧
    (∀ o, Offset.Notates atom o →
      (o.fourths = none ↔ ';' ∉ atom) ∧ (o.bars = none ↔ '|' ∉ atom)) ∧
    ((¬ ∃ o, Offset.Notates atom o) →
      (∃ (p : Offset.Pieces) (text : List Char), p.Cut atom ∧ p.Malformed text ∧
        Offset.read atom = .error (.malformed text)) ∧
      (Numeral.read atom = none → Token.ofKeyword? (α := Float) atom = none →
        Token.ofAtom atom = .error (.unrecognizedAtom atom))) := by
  refine ⟨?_, ?_, ?_⟩
  · intro o
    rw [Token.ofAtom_eq_timeOffset_iff, Offset.read_eq_ok_iff h]
  · rintro o ⟨p, rfl, hspells⟩
    exact ⟨hspells.fourths_eq_none_iff, hspells.bars_eq_none_iff⟩
  · intro hno
    -- the first bad piece is all that reading tells; then numerals and
    -- keywords are tried
    obtain ⟨p, text, hcut, hmalformed, hread⟩ := Offset.read_eq_error h hno
    refine ⟨⟨p, text, hcut, hmalformed, hread⟩, ?_⟩
    intro hnumeral hkeyword
    rw [Token.ofAtom_of_malformed hread, hnumeral, hkeyword]

/-- Signs and leading zeros are no part of the value.  A bar line before
    the semicolon belongs to the fourths, which are malformed for it. -/
theorem bars_do_not_precede_fourths :
    Offset.ShortRuns "+01;2|3".toList ∧ Offset.ShortRuns "1|2;3".toList ∧
      Offset.Notates "+01;2|3".toList { fourths := some 1, beats := 2, bars := some 3 } ∧
      (¬ ∃ o, Offset.Notates "1|2;3".toList o) ∧
      (∃ p : Offset.Pieces, p.Cut "1|2;3".toList ∧ p.Malformed "1|2".toList) ∧
      Token.ofAtom "1|2;3".toList = .error (.unrecognizedAtom "1|2;3".toList) := by
  have hshort : Offset.ShortRuns "+01;2|3".toList := .of_length_le (by decide)
  have hshort' : Offset.ShortRuns "1|2;3".toList := .of_length_le (by decide)
  obtain ⟨hrecognised, -, -⟩ := offset_notation_is_recognised hshort
  obtain ⟨hrefused, -, hother⟩ := offset_notation_is_recognised hshort'
  have hno : ¬ ∃ o, Offset.Notates "1|2;3".toList o := by
    rintro ⟨o, ho⟩
    cases (hrefused o).mpr ho
  obtain ⟨⟨p, text, hcut, hmalformed, hread⟩, hwhole⟩ := hother hno
  have hpiece : Offset.read "1|2;3".toList = .error (.malformed "1|2".toList) := rfl
  cases hpiece.symm.trans hread
  exact ⟨hshort, hshort', (hrecognised _).mp rfl, hno, ⟨p, hcut, hmalformed⟩, hwhole rfl rfl⟩

end BeatShield
