import BeatShield.Proofs.Checked
import BeatShield.Timing.Offset

/-! # Segments — which atoms are offsets

    The notation of offsets is a small grammar: a segment is one or more
    digits, with or without a plus sign in front, and an offset is

        [segment;]segment[|segment]

    `Offset.Notates` is this grammar, with the values of the segments.
    Reading knows nothing of it: it cuts an atom at its first semicolon,
    then what is behind that at its first bar line, and looks at the
    pieces.

      * `Pieces.Cut` says where an atom is cut, and `Pieces.Cut.parts_eq`
        that reading cuts there.
      * Segments contain no separators, so cutting undoes putting together
        (`Pieces.Spells.cut`), and reading accepts exactly the grammar
        (`read_eq_ok_iff`).
      * What is not accepted is refused for the first piece that is no
        segment (`read_cut_eq_error_iff`, `read_eq_error`). -/

namespace BeatShield

/-! ## Cutting -/

namespace Text

variable {separator : Char} {cs before after : List Char}

theorem splitFirst_of_not_mem (h : separator ∉ cs) : splitFirst separator cs = none := by
  have hall : ∀ c ∈ cs, (c != separator) = true := by
    intro c hc
    exact bne_iff_ne.mpr fun heq => h (heq ▸ hc)
  have hdrop : cs.dropWhile (· != separator) = [] := by
    rw [← List.append_nil cs, List.dropWhile_append_of_pos hall]
    rfl
  rw [splitFirst, hdrop]

/-- A text is cut at the first separator. -/
theorem splitFirst_append (h : separator ∉ before) (after : List Char) :
    splitFirst separator (before ++ separator :: after) = some (before, after) := by
  have hall : ∀ c ∈ before, (c != separator) = true := by
    intro c hc
    exact bne_iff_ne.mpr fun heq => h (heq ▸ hc)
  have hstop : ¬ (separator != separator) = true := by simp
  have hdrop : (before ++ separator :: after).dropWhile (· != separator)
      = separator :: after :=
    (List.dropWhile_append_of_pos hall).trans (List.dropWhile_cons_of_neg hstop)
  have htake : (before ++ separator :: after).takeWhile (· != separator) = before := by
    rw [List.takeWhile_append_of_pos hall]
    simp
  rw [splitFirst, hdrop, htake]

/-- A text is not cut exactly if the separator is not in it. -/
theorem splitFirst_eq_none_iff : splitFirst separator cs = none ↔ separator ∉ cs := by
  constructor
  · intro h hmem
    obtain ⟨before, after, rfl, hbefore⟩ := List.eq_append_cons_of_mem hmem
    rw [splitFirst_append hbefore] at h
    exact nomatch h
  · exact splitFirst_of_not_mem

/-- It is cut into two parts exactly if the separator is between them and
    not before. -/
theorem splitFirst_eq_some_iff :
    splitFirst separator cs = some (before, after) ↔
      separator ∉ before ∧ cs = before ++ separator :: after := by
  constructor
  · intro h
    by_cases hmem : separator ∈ cs
    · obtain ⟨before', after', rfl, hbefore⟩ := List.eq_append_cons_of_mem hmem
      rw [splitFirst_append hbefore] at h
      cases h
      exact ⟨hbefore, rfl⟩
    · rw [splitFirst_of_not_mem hmem] at h
      exact nomatch h
  · rintro ⟨hbefore, rfl⟩
    exact splitFirst_append hbefore after

end Text

namespace Offset

open Decimal

/-! ## Segments -/

/-- A segment and its decimal value. -/
inductive Segment : List Char → Int → Prop where
  | digits {digits : List Char} (hne : digits ≠ []) (hall : ∀ c ∈ digits, c.isDigit = true) :
      Segment digits (Nat.ofDigitChars 10 digits 0 : Nat)
  | plus {digits : List Char} (hne : digits ≠ []) (hall : ∀ c ∈ digits, c.isDigit = true) :
      Segment ('+' :: digits) (Nat.ofDigitChars 10 digits 0 : Nat)

/-- Whether a text is a segment, of whatever value. -/
def IsSegment (text : List Char) : Prop := ∃ n, Segment text n

variable {text : List Char}

/-- Without a plus sign in front there is nothing to take off. -/
theorem unsigned_of_isDigit {digits : List Char} (h : ∀ c ∈ digits, c.isDigit = true) :
    unsigned digits = digits := by
  cases digits with
  | nil => rfl
  | cons c rest =>
      have hc : c ≠ '+' := by
        rintro rfl
        exact absurd (h '+' List.mem_cons_self) (by decide)
      rw [unsigned.eq_def]
      split
      · rename_i heq
        exact absurd (List.cons.inj heq).1 hc
      · rfl

/-- All that is dropped in front is one plus sign. -/
theorem eq_unsigned_or (text : List Char) :
    text = unsigned text ∨ text = '+' :: unsigned text := by
  rw [unsigned.eq_def]
  split
  · exact .inr rfl
  · exact .inl rfl

/-- So what is left is a part of the text. -/
theorem infix_unsigned (text : List Char) : unsigned text <:+: text := by
  rw [unsigned.eq_def]
  split
  · exact (List.suffix_cons '+' _).isInfix
  · exact List.infix_refl _

/-- A segment is told by the digits behind the plus sign. -/
theorem segment_iff {n : Int} :
    Segment text n ↔ unsigned text ≠ [] ∧ (∀ c ∈ unsigned text, c.isDigit = true) ∧
      n = (Nat.ofDigitChars 10 (unsigned text) 0 : Nat) := by
  constructor
  · intro h
    cases h with
    | digits hne hall =>
        rw [unsigned_of_isDigit hall]
        exact ⟨hne, hall, rfl⟩
    | plus hne hall => exact ⟨hne, hall, rfl⟩
  · rintro ⟨hne, hall, rfl⟩
    have hdigits : Segment (unsigned text) (Nat.ofDigitChars 10 (unsigned text) 0 : Nat) :=
      .digits hne hall
    rcases eq_unsigned_or text with h | h
    · rwa [← h] at hdigits ⊢
    · have hplus := Segment.plus hne hall
      rwa [← h] at hplus

/-- Segments are texts that have digits, and nothing else, after a sign. -/
theorem isSegment_iff :
    IsSegment text ↔ unsigned text ≠ [] ∧ ∀ c ∈ unsigned text, c.isDigit = true := by
  constructor
  · rintro ⟨n, h⟩
    obtain ⟨hne, hall, -⟩ := segment_iff.mp h
    exact ⟨hne, hall⟩
  · rintro ⟨hne, hall⟩
    exact ⟨_, segment_iff.mpr ⟨hne, hall, rfl⟩⟩

/-- Neither separator occurs in a segment. -/
theorem Segment.not_mem {n : Int} (h : Segment text n) {c : Char}
    (hdigit : c.isDigit = false) (hplus : c ≠ '+') : c ∉ text := by
  intro hmem
  cases h with
  | digits _ hall => exact absurd (hall c hmem) (by simp [hdigit])
  | plus _ hall =>
      rcases List.mem_cons.mp hmem with hc | hc
      · exact hplus hc
      · exact absurd (hall c hc) (by simp [hdigit])

/-! ## Reading segments -/

/-- A text in which no more digits stand together than an integer may
    have. -/
def ShortRuns (text : List Char) : Prop :=
  ∀ run, run <:+: text → (∀ c ∈ run, c.isDigit = true) → run.length ≤ digitLimit

/-- A part of a text has no longer runs of digits than the text. -/
theorem ShortRuns.of_infix {whole : List Char} (h : ShortRuns whole) (htext : text <:+: whole) :
    ShortRuns text := by
  intro run hrun hall
  exact h run (hrun.trans htext) hall

theorem ShortRuns.of_length_le (h : text.length ≤ digitLimit) : ShortRuns text := by
  intro run hrun _
  exact Nat.le_trans hrun.length_le h

/-- A segment is read as the number of its digits, unless there are too
    many of them. -/
theorem readPart_eq_of_isSegment (h : IsSegment text) :
    readPart text = if digitLimit < (unsigned text).length
      then .error (.tooManyDigits (unsigned text).length)
      else .ok (Nat.ofDigitChars 10 (unsigned text) 0) := by
  obtain ⟨hne, hall⟩ := isSegment_iff.mp h
  have hform : ((unsigned text).isEmpty || !(unsigned text).all Char.isDigit) = false := by
    simpa [hne] using hall
  simp only [readPart, hform]
  rfl

/-- Where runs of digits are short, there are never too many. -/
theorem readPart_of_isSegment (h : IsSegment text) (hshort : ShortRuns text) :
    readPart text = .ok (Nat.ofDigitChars 10 (unsigned text) 0) := by
  have hlength : (unsigned text).length ≤ digitLimit :=
    hshort _ (infix_unsigned text) (isSegment_iff.mp h).2
  rw [readPart_eq_of_isSegment h, if_neg (Nat.not_lt.mpr hlength)]

/-- Anything else is refused. -/
theorem readPart_of_not_isSegment (h : ¬ IsSegment text) :
    readPart text = .error (.malformed text) := by
  have hform : ((unsigned text).isEmpty || !(unsigned text).all Char.isDigit) = true := by
    rw [isSegment_iff] at h
    by_cases hne : unsigned text = []
    · simp [hne]
    · simpa [hne] using h
  simp only [readPart, hform]
  rfl

/-- What is read has the value that the grammar gives it. -/
theorem readPart_eq_ok_iff (hshort : ShortRuns text) {n : Nat} :
    readPart text = .ok n ↔ Segment text n := by
  by_cases h : IsSegment text
  · rw [readPart_of_isSegment h hshort, segment_iff]
    obtain ⟨hne, hall⟩ := isSegment_iff.mp h
    constructor
    · intro hn
      exact ⟨hne, hall, congrArg Nat.cast (Except.ok.inj hn).symm⟩
    · rintro ⟨-, -, hn⟩
      exact congrArg Except.ok (Int.ofNat.inj hn).symm
  · rw [readPart_of_not_isSegment h]
    constructor
    · intro hn
      exact nomatch hn
    · intro hn
      exact absurd ⟨_, hn⟩ h

/-- What is refused is no segment, and is named. -/
theorem readPart_eq_error_iff (hshort : ShortRuns text) {e : OffsetError} :
    readPart text = .error e ↔ ¬ IsSegment text ∧ e = .malformed text := by
  by_cases h : IsSegment text
  · rw [readPart_of_isSegment h hshort]
    constructor
    · intro he
      exact nomatch he
    · rintro ⟨hnot, -⟩
      exact absurd h hnot
  · rw [readPart_of_not_isSegment h]
    constructor
    · intro he
      exact ⟨h, (Except.error.inj he).symm⟩
    · rintro ⟨-, rfl⟩
      rfl

/-- A piece may be missing, and then so is its value. -/
theorem readOptional_eq_ok_iff {part : Option (List Char)} {value : Option Int}
    (hshort : ∀ text ∈ part, ShortRuns text) :
    readOptional part = .ok value ↔ Option.Rel Segment part value := by
  cases part with
  | none =>
      constructor
      · intro h
        cases h
        exact .none
      · intro h
        cases h
        rfl
  | some text =>
      have htext := fun n => readPart_eq_ok_iff (hshort text rfl) (n := n)
      constructor
      · intro h
        -- a piece that is there has the value of its segment
        obtain ⟨n, hn, hvalue⟩ := Checked.bind_eq_ok.mp h
        cases hvalue
        exact .some (htext n |>.mp hn)
      · intro h
        cases h with
        | some hsegment =>
            obtain ⟨-, -, rfl⟩ := segment_iff.mp hsegment
            exact Checked.bind_eq_ok.mpr ⟨_, (htext _).mpr hsegment, rfl⟩

/-- Only a piece that is there can be refused. -/
theorem readOptional_eq_error_iff {part : Option (List Char)} {e : OffsetError}
    (hshort : ∀ text ∈ part, ShortRuns text) :
    readOptional part = .error e ↔ ∃ text ∈ part, ¬ IsSegment text ∧ e = .malformed text := by
  cases part with
  | none =>
      constructor
      · intro h
        exact nomatch h
      · rintro ⟨text, htext, -⟩
        exact nomatch htext
  | some text =>
      have htext := readPart_eq_error_iff (hshort text rfl) (e := e)
      constructor
      · intro h
        rcases Checked.bind_eq_error.mp h with h | ⟨n, -, h⟩
        · exact ⟨text, rfl, htext.mp h⟩
        · exact nomatch h
      · rintro ⟨_, hmem, h⟩
        obtain rfl := Option.some.inj hmem
        exact Checked.bind_eq_error.mpr (.inl (htext.mpr h))

/-- Segments are read, with whatever values. -/
theorem exists_readOptional_eq_ok {part : Option (List Char)}
    (hshort : ∀ text ∈ part, ShortRuns text) (h : ∀ text ∈ part, IsSegment text) :
    ∃ value, readOptional part = .ok value := by
  refine Checked.exists_eq_ok_iff.mpr fun e herror => ?_
  obtain ⟨text, htext, hbad, -⟩ := (readOptional_eq_error_iff hshort).mp herror
  exact hbad (h text htext)

/-- A piece with a value is a segment. -/
theorem isSegment_of_rel {part : Option (List Char)} {value : Option Int}
    (h : Option.Rel Segment part value) : ∀ text ∈ part, IsSegment text := by
  intro text htext
  cases h with
  | none => exact nomatch htext
  | some hsegment =>
      obtain rfl := Option.some.inj htext
      exact ⟨_, hsegment⟩

/-- A value is missing exactly where the piece is. -/
theorem eq_none_iff_of_rel {part : Option (List Char)} {value : Option Int}
    (h : Option.Rel Segment part value) : value = none ↔ part = none := by
  cases h <;> simp

/-! ## Pieces -/

/-- The pieces of an atom, with those that no separator sets off absent. -/
structure Pieces where
  fourths : Option (List Char)
  beats : List Char
  bars : Option (List Char)

namespace Pieces

variable {p : Pieces} {atom : List Char} {o : Offset}

/-- The beats, and the bars behind them. -/
def rest (p : Pieces) : List Char :=
  match p.bars with
  | none => p.beats
  | some bars => p.beats ++ '|' :: bars

/-- The pieces with the separators between them. -/
def join (p : Pieces) : List Char :=
  match p.fourths with
  | none => p.rest
  | some fourths => fourths ++ ';' :: p.rest

/-- The pieces that there are. -/
def texts (p : Pieces) : List (List Char) := p.fourths.toList ++ p.bars.toList ++ [p.beats]

/-- The pieces of an atom that is cut at its first semicolon, and behind
    that at the first bar line. -/
structure Cut (p : Pieces) (atom : List Char) : Prop where
  join : p.join = atom
  fourths : ∀ text ∈ p.fourths, ';' ∉ text
  /-- Only what has no semicolon at all is not cut. -/
  uncut : p.fourths = none → ';' ∉ atom
  beats : '|' ∉ p.beats

/-- Whether no piece has more digits together than an integer may have. -/
structure Short (p : Pieces) : Prop where
  fourths : ∀ text ∈ p.fourths, ShortRuns text
  beats : ShortRuns p.beats
  bars : ∀ text ∈ p.bars, ShortRuns text

/-- The first piece that is no segment, where the beats come last. -/
inductive Malformed (p : Pieces) : List Char → Prop where
  | fourths {text : List Char} (hpiece : text ∈ p.fourths) (hbad : ¬ IsSegment text) :
      Malformed p text
  | bars {text : List Char} (hfourths : ∀ piece ∈ p.fourths, IsSegment piece)
      (hpiece : text ∈ p.bars) (hbad : ¬ IsSegment text) : Malformed p text
  | beats (hfourths : ∀ piece ∈ p.fourths, IsSegment piece)
      (hbars : ∀ piece ∈ p.bars, IsSegment piece) (hbad : ¬ IsSegment p.beats) :
      Malformed p p.beats

/-- The pieces are segments, for the parts of an offset. -/
structure Spells (p : Pieces) (o : Offset) : Prop where
  fourths : Option.Rel Segment p.fourths o.fourths
  beats : Segment p.beats o.beats
  bars : Option.Rel Segment p.bars o.bars

/-! ## Cutting atoms -/

/-- What is behind the semicolon is cut at its bar line, if it has one. -/
theorem splitFirst_rest (h : '|' ∉ p.beats) :
    Text.splitFirst '|' p.rest = p.bars.map fun bars => (p.beats, bars) := by
  rw [rest]
  cases p.bars with
  | none => exact Text.splitFirst_of_not_mem h
  | some bars => exact Text.splitFirst_append h bars

/-- Reading cuts where it should. -/
theorem Cut.parts_eq (h : p.Cut atom) : parts atom = (p.fourths, p.beats, p.bars) := by
  have hrest := splitFirst_rest h.beats
  have hjoin := h.join
  rw [Pieces.join] at hjoin
  rw [parts]
  -- the semicolon is looked for first, and then the bar line behind it
  cases hfourths : p.fourths with
  | none =>
      simp only [hfourths] at hjoin
      rw [Text.splitFirst_of_not_mem (h.uncut hfourths)]
      simp only [← hjoin, hrest]
      cases hbars : p.bars with
      | none => simp [rest, hbars]
      | some bars => rfl
  | some fourths =>
      simp only [hfourths] at hjoin
      rw [← hjoin, Text.splitFirst_append (h.fourths fourths hfourths)]
      simp only [hrest]
      cases hbars : p.bars with
      | none => simp [rest, hbars]
      | some bars => rfl

/-- The part behind the semicolon can be cut, whatever it is. -/
theorem exists_rest (fourths : Option (List Char)) (cs : List Char) :
    ∃ p : Pieces, p.fourths = fourths ∧ p.rest = cs ∧ '|' ∉ p.beats := by
  cases hsplit : Text.splitFirst '|' cs with
  | none => exact ⟨⟨fourths, cs, none⟩, rfl, rfl, Text.splitFirst_eq_none_iff.mp hsplit⟩
  | some halves =>
      obtain ⟨hbeats, hcs⟩ := Text.splitFirst_eq_some_iff.mp hsplit
      exact ⟨⟨fourths, halves.1, some halves.2⟩, rfl, hcs.symm, hbeats⟩

/-- Every atom can be cut. -/
theorem exists_cut (atom : List Char) : ∃ p : Pieces, p.Cut atom := by
  cases hsplit : Text.splitFirst ';' atom with
  | none =>
      -- without a semicolon the whole atom is what would stand behind it
      obtain ⟨p, hfourths, hrest, hbeats⟩ := exists_rest none atom
      exact ⟨p, {
        join := by simp [join, hfourths, hrest]
        fourths := by simp [hfourths]
        uncut := fun _ => Text.splitFirst_eq_none_iff.mp hsplit
        beats := hbeats }⟩
  | some halves =>
      obtain ⟨hmem, hatom⟩ := Text.splitFirst_eq_some_iff.mp hsplit
      obtain ⟨p, hfourths, hrest, hbeats⟩ := exists_rest (some halves.1) halves.2
      exact ⟨p, {
        join := by simp [join, hfourths, hrest, hatom]
        fourths := by simpa [hfourths] using hmem
        uncut := by simp [hfourths]
        beats := hbeats }⟩

/-- Every piece stands in the atom as it is. -/
theorem infix_join {text : List Char} (h : text ∈ p.texts) : text <:+: p.join := by
  obtain ⟨fourths, beats, bars⟩ := p
  -- beats and bars stand behind the semicolon, the fourths in front of it
  have hrest : ∀ text ∈ bars.toList ++ [beats], text <:+: rest ⟨fourths, beats, bars⟩ := by
    intro text htext
    cases bars with
    | none =>
        rw [List.mem_singleton.mp htext]
        exact List.infix_refl beats
    | some bars =>
        rcases List.mem_cons.mp htext with rfl | htext
        · exact ((List.suffix_cons '|' text).trans (List.suffix_append beats _)).isInfix
        · rw [List.mem_singleton.mp htext]
          exact (List.prefix_append beats ('|' :: bars)).isInfix
  cases fourths with
  | none => exact hrest text h
  | some fourths =>
      rcases List.mem_cons.mp h with rfl | h
      · exact (List.prefix_append text _).isInfix
      · have hsuffix := (List.suffix_cons ';' _).trans
          (List.suffix_append fourths (';' :: rest ⟨some fourths, beats, bars⟩))
        exact (hrest text h).trans hsuffix.isInfix

/-- A character of the atom is in a piece, or it is a separator. -/
theorem mem_join {c : Char} :
    c ∈ p.join ↔ (∃ text ∈ p.texts, c ∈ text) ∨ (c = ';' ∧ p.fourths ≠ none) ∨
      (c = '|' ∧ p.bars ≠ none) := by
  obtain ⟨fourths, beats, bars⟩ := p
  cases fourths <;> cases bars <;> simp [join, rest, texts] <;> grind

/-! ## Segments in place -/

theorem mem_texts {text : List Char} :
    text ∈ p.texts ↔ text ∈ p.fourths ∨ text ∈ p.bars ∨ text = p.beats := by
  simp [texts]

/-- Pieces that spell an offset are segments. -/
theorem Spells.isSegment (h : p.Spells o) : ∀ text ∈ p.texts, IsSegment text := by
  intro text htext
  rcases mem_texts.mp htext with hmem | hmem | rfl
  · exact isSegment_of_rel h.fourths text hmem
  · exact isSegment_of_rel h.bars text hmem
  · exact ⟨_, h.beats⟩

/-- A separator in the atom is one that sets off a piece. -/
theorem Spells.separator_mem_join (h : p.Spells o) {c : Char} (hdigit : c.isDigit = false)
    (hplus : c ≠ '+') :
    c ∈ p.join ↔ (c = ';' ∧ p.fourths ≠ none) ∨ (c = '|' ∧ p.bars ≠ none) := by
  have hpieces : ¬ ∃ text ∈ p.texts, c ∈ text := by
    rintro ⟨text, htext, hmem⟩
    obtain ⟨n, hsegment⟩ := h.isSegment text htext
    exact hsegment.not_mem hdigit hplus hmem
  rw [mem_join, or_iff_right hpieces]

/-- Whether an offset has fourths is seen from the semicolon. -/
theorem Spells.fourths_eq_none_iff (h : p.Spells o) : o.fourths = none ↔ ';' ∉ p.join := by
  rw [h.separator_mem_join (by decide) (by decide), eq_none_iff_of_rel h.fourths]
  simp

theorem Spells.bars_eq_none_iff (h : p.Spells o) : o.bars = none ↔ '|' ∉ p.join := by
  rw [h.separator_mem_join (by decide) (by decide), eq_none_iff_of_rel h.bars]
  simp

/-- What is put together from segments is cut into them again. -/
theorem Spells.cut (h : p.Spells o) : p.Cut p.join where
  join := rfl
  fourths text htext := by
    obtain ⟨n, hsegment⟩ := h.isSegment text (mem_texts.mpr (.inl htext))
    exact hsegment.not_mem (by decide) (by decide)
  uncut hfourths := by
    rw [← h.fourths_eq_none_iff, eq_none_iff_of_rel h.fourths]
    exact hfourths
  beats := h.beats.not_mem (by decide) (by decide)

end Pieces

/-! ## Reading offsets -/

/-- Whether an atom is the notation of an offset. -/
def Notates (atom : List Char) (o : Offset) : Prop := ∃ p : Pieces, p.join = atom ∧ p.Spells o

variable {atom : List Char} {p : Pieces} {o : Offset}

/-- The pieces of an atom with short runs have short runs. -/
theorem ShortRuns.pieces (h : ShortRuns atom) (hcut : p.Cut atom) : p.Short := by
  have htexts : ∀ text ∈ p.texts, ShortRuns text := by
    intro text htext
    exact h.of_infix (hcut.join ▸ Pieces.infix_join htext)
  exact {
    fourths := fun text htext => htexts text (Pieces.mem_texts.mpr (.inl htext))
    beats := htexts p.beats (Pieces.mem_texts.mpr (.inr (.inr rfl)))
    bars := fun text htext => htexts text (Pieces.mem_texts.mpr (.inr (.inl htext))) }

/-- Reading a cut atom is reading its pieces, the beats last. -/
theorem read_of_cut (h : p.Cut atom) : read atom = (do
    let fourths ← readOptional p.fourths
    let bars ← readOptional p.bars
    let beats ← readPart p.beats
    return { fourths, beats, bars }) := by
  rw [read, h.parts_eq]

/-- A cut atom is read as an offset exactly if the pieces are segments. -/
theorem read_cut_eq_ok_iff (hcut : p.Cut atom) (hshort : p.Short) :
    read atom = .ok o ↔ p.Spells o := by
  obtain ⟨hfourths, hbeats, hbars⟩ := hshort
  rw [read_of_cut hcut]
  constructor
  · intro h
    obtain ⟨fourths, hf, h1⟩ := Checked.bind_eq_ok.mp h
    obtain ⟨bars, hr, h2⟩ := Checked.bind_eq_ok.mp h1
    obtain ⟨beats, hb, h3⟩ := Checked.bind_eq_ok.mp h2
    cases h3
    exact {
      fourths := (readOptional_eq_ok_iff hfourths).mp hf
      beats := (readPart_eq_ok_iff hbeats).mp hb
      bars := (readOptional_eq_ok_iff hbars).mp hr }
  · intro h
    -- the beats are read as a number that is not negative
    obtain ⟨-, -, hvalue⟩ := segment_iff.mp h.beats
    refine Checked.bind_eq_ok.mpr ⟨_, (readOptional_eq_ok_iff hfourths).mpr h.fourths, ?_⟩
    refine Checked.bind_eq_ok.mpr ⟨_, (readOptional_eq_ok_iff hbars).mpr h.bars, ?_⟩
    refine Checked.bind_eq_ok.mpr ⟨_, readPart_of_isSegment ⟨_, h.beats⟩ hbeats, ?_⟩
    rw [← hvalue]
    rfl

/-- Reading recognises the notation of offsets, and the values. -/
theorem read_eq_ok_iff (hshort : ShortRuns atom) : read atom = .ok o ↔ Notates atom o := by
  constructor
  · intro h
    obtain ⟨p, hcut⟩ := Pieces.exists_cut atom
    exact ⟨p, hcut.join, (read_cut_eq_ok_iff hcut (hshort.pieces hcut)).mp h⟩
  · rintro ⟨p, rfl, h⟩
    exact (read_cut_eq_ok_iff h.cut (hshort.pieces h.cut)).mpr h

/-- A cut atom is refused for the first piece that is no segment. -/
theorem read_cut_eq_error_iff (hcut : p.Cut atom) (hshort : p.Short) {e : OffsetError} :
    read atom = .error e ↔ ∃ text, p.Malformed text ∧ e = .malformed text := by
  obtain ⟨hfourths, hbeats, hbars⟩ := hshort
  rw [read_of_cut hcut, Checked.bind_eq_error]
  constructor
  · rintro (h | ⟨fourths, hfirst, h⟩)
    · obtain ⟨text, hpiece, hbad, rfl⟩ := (readOptional_eq_error_iff hfourths).mp h
      exact ⟨text, .fourths hpiece hbad, rfl⟩
    -- the bars are only looked at once the fourths are read, and the beats
    -- after both
    have hok := isSegment_of_rel ((readOptional_eq_ok_iff hfourths).mp hfirst)
    rcases Checked.bind_eq_error.mp h with h | ⟨bars, hsecond, h⟩
    · obtain ⟨text, hpiece, hbad, rfl⟩ := (readOptional_eq_error_iff hbars).mp h
      exact ⟨text, .bars hok hpiece hbad, rfl⟩
    have hok' := isSegment_of_rel ((readOptional_eq_ok_iff hbars).mp hsecond)
    rcases Checked.bind_eq_error.mp h with h | ⟨beats, -, h⟩
    · obtain ⟨hbad, rfl⟩ := (readPart_eq_error_iff hbeats).mp h
      exact ⟨p.beats, .beats hok hok' hbad, rfl⟩
    · exact nomatch h
  · rintro ⟨text, h, rfl⟩
    cases h with
    | fourths hpiece hbad =>
        exact .inl ((readOptional_eq_error_iff hfourths).mpr ⟨text, hpiece, hbad, rfl⟩)
    | bars hok hpiece hbad =>
        obtain ⟨fourths, hfirst⟩ := exists_readOptional_eq_ok hfourths hok
        refine .inr ⟨fourths, hfirst, Checked.bind_eq_error.mpr (.inl ?_)⟩
        exact (readOptional_eq_error_iff hbars).mpr ⟨text, hpiece, hbad, rfl⟩
    | beats hok hok' hbad =>
        obtain ⟨fourths, hfirst⟩ := exists_readOptional_eq_ok hfourths hok
        obtain ⟨bars, hsecond⟩ := exists_readOptional_eq_ok hbars hok'
        refine .inr ⟨fourths, hfirst, Checked.bind_eq_error.mpr (.inr ⟨bars, hsecond, ?_⟩)⟩
        refine Checked.bind_eq_error.mpr (.inl ?_)
        exact (readPart_eq_error_iff hbeats).mpr ⟨hbad, rfl⟩

/-- What is no notation of an offset has a malformed piece. -/
theorem read_eq_error (hshort : ShortRuns atom) (h : ¬ ∃ o, Notates atom o) :
    ∃ p : Pieces, ∃ text, p.Cut atom ∧ p.Malformed text ∧ read atom = .error (.malformed text) := by
  obtain ⟨p, hcut⟩ := Pieces.exists_cut atom
  cases hread : read atom with
  | ok o => exact absurd ⟨o, (read_eq_ok_iff hshort).mp hread⟩ h
  | error e =>
      obtain ⟨text, htext, rfl⟩ := (read_cut_eq_error_iff hcut (hshort.pieces hcut)).mp hread
      exact ⟨p, text, hcut, htext, rfl⟩

end Offset

end BeatShield
