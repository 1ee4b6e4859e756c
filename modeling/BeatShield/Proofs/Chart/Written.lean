import BeatShield.Proofs.Chart.Grammar
import BeatShield.Proofs.Number.Arithmetic
import BeatShield.Proofs.Text.Words
import BeatShield.Proofs.Timing.Notation

/-! # Written — every chart can be written down

    A sheet is a chart in whole numbers: tempo, start and the lines of its
    projectiles.  It is written as its atoms, with any blanks between them
    and around them (`Text.Spells`).

    Reading undoes this.  The words of the text are the atoms again, each
    atom is read as the token it was meant for (`Spelt`), and the tokens
    follow the grammar.  A tempo of at least one stays above zero as a
    double, so that no length is refused. -/

namespace BeatShield

open Checked

/-! ## Sheets -/

/-- The atom that stands for a sort of projectile. -/
def EventKind.atom : EventKind → List Char
  | .normal => ['n', 'o', 'r', 'm']

/-- The three atoms of a line. -/
def Line.atoms (line : Line) : List (List Char) :=
  [line.kind.atom, [line.side.letter], line.offset.write]

/-- A chart in whole numbers. -/
structure Sheet where
  tempo : Int
  start : Int
  lines : List Line

namespace Sheet

/-- The atoms of a sheet, in the order in which they are written. -/
def atoms (sheet : Sheet) : List (List Char) :=
  ['#', 'b', 'p', 'm'] :: Decimal.integer sheet.tempo :: ['#', 'o', 'f', 'f', 's', 'e', 't']
    :: Decimal.integer sheet.start :: sheet.lines.flatMap Line.atoms

end Sheet

/-- The sheets in question: the tempo is positive, nothing is negative, and
    all integers have doubles. -/
structure Sheet.Writable (sheet : Sheet) : Prop where
  tempo_pos : 1 ≤ sheet.tempo
  tempo_fits : FitsDouble sheet.tempo
  start_nonneg : 0 ≤ sheet.start
  start_fits : FitsDouble sheet.start
  natural : ∀ line ∈ sheet.lines, line.offset.Natural
  fits : ∀ line ∈ sheet.lines, line.offset.Fits

/-! ## Short enough to be read -/

theorem tenTo_eq (n : Nat) : tenTo n = 10 ^ n := rfl

/-- An integer that has a double has fewer digits than a reader accepts. -/
theorem Decimal.readable_of_fits {n : Int} (hn : 0 ≤ n) (hfits : FitsDouble n) :
    Decimal.Readable n := by
  have hlt : n.natAbs < twoTo 1024 - twoTo 970 := hfits
  have hbound : twoTo 1024 - twoTo 970 ≤ tenTo digitLimit := by decide +kernel
  have hsmall : n.toNat < 10 ^ digitLimit := by
    rw [← tenTo_eq, show n.toNat = n.natAbs by omega]
    exact hlt.trans_le hbound
  exact ⟨hn, (Nat.length_toDigits_le_iff (by decide) (by decide)).mpr hsmall⟩

/-- Parts that fit doubles have few enough digits to be read back. -/
theorem Offset.readable_of_fits {o : Offset} (h : o.Natural) (hfits : o.Fits) : o.Readable where
  fourths n hn := by
    have hfourths := hfits.1
    rw [Option.mem_def.mp hn] at hfourths
    exact Decimal.readable_of_fits (h.fourths n hn) hfourths
  beats := Decimal.readable_of_fits h.beats hfits.2.1
  bars n hn := by
    have hbars := hfits.2.2
    rw [Option.mem_def.mp hn] at hbars
    exact Decimal.readable_of_fits (h.bars n hn) hbars

/-! ## Atoms are words -/

theorem isBlank_of_isDigit {c : Char} (h : c.isDigit = true) : Text.isBlank c = false := by
  have hdigits : ∀ n < 58, 48 ≤ n → Text.blanks.contains n = false := by decide
  have hrange : 48 ≤ c.toNat ∧ c.toNat ≤ 57 := by
    rw [Char.isDigit, Bool.and_eq_true, decide_eq_true_iff, decide_eq_true_iff] at h
    exact ⟨UInt32.le_iff_toNat_le.mp h.1, UInt32.le_iff_toNat_le.mp h.2⟩
  exact hdigits c.toNat (by omega) hrange.1

/-- A number is written as one word. -/
theorem Decimal.isWord_integer {n : Int} (hn : 0 ≤ n) : Text.IsWord (Decimal.integer n) := by
  rw [Decimal.integer_of_nonneg hn]
  exact ⟨Decimal.digits_ne_nil _, fun c hc => isBlank_of_isDigit (Decimal.isDigit_of_mem_digits hc)⟩

/-- So is every piece of an offset. -/
theorem Offset.isWord_of_mem_pieces {o : Offset} (h : o.Natural) {text : List Char}
    (htext : text ∈ o.pieces.texts) : Text.IsWord text := by
  rcases Pieces.mem_texts.mp htext with hmem | hmem | rfl
  · obtain ⟨n, hn, rfl⟩ := Option.map_eq_some_iff.mp hmem
    exact Decimal.isWord_integer (h.fourths n hn)
  · obtain ⟨n, hn, rfl⟩ := Option.map_eq_some_iff.mp hmem
    exact Decimal.isWord_integer (h.bars n hn)
  · exact Decimal.isWord_integer h.beats

/-- So is the whole offset. -/
theorem Offset.isWord_write {o : Offset} (h : o.Natural) : Text.IsWord o.write := by
  rw [← join_pieces]
  constructor
  · intro hnil
    have hbeats : o.pieces.beats <:+: [] :=
      hnil ▸ Pieces.infix_join (Pieces.mem_texts.mpr (.inr (.inr rfl)))
    exact (Decimal.isWord_integer h.beats).1 (List.infix_nil.mp hbeats)
  · intro c hc
    rcases Pieces.mem_join.mp hc with ⟨text, htext, hmem⟩ | ⟨rfl, -⟩ | ⟨rfl, -⟩
    · exact (Offset.isWord_of_mem_pieces h htext).2 c hmem
    · decide
    · decide

theorem Line.isWord_of_mem_atoms {line : Line} (h : line.offset.Natural) {word : List Char}
    (hword : word ∈ line.atoms) : Text.IsWord word := by
  obtain ⟨kind, side, offset⟩ := line
  simp only [Line.atoms, List.mem_cons, List.not_mem_nil, or_false] at hword
  rcases hword with rfl | rfl | rfl
  · cases kind
    decide
  · cases side <;> decide
  · exact Offset.isWord_write h

/-- The atoms of a sheet are words. -/
theorem Sheet.isWord_of_mem_atoms {sheet : Sheet} (h : sheet.Writable) :
    ∀ word ∈ sheet.atoms, Text.IsWord word := by
  intro word hword
  simp only [Sheet.atoms, List.mem_cons, List.mem_flatMap] at hword
  rcases hword with rfl | rfl | rfl | rfl | ⟨line, hline, hword⟩
  · decide
  · exact Decimal.isWord_integer (by have := h.tempo_pos; omega)
  · decide
  · exact Decimal.isWord_integer h.start_nonneg
  · exact Line.isWord_of_mem_atoms (h.natural line hline) hword

/-! ## Atoms are read as the tokens they are meant for -/

/-- A list of atoms spells a list of tokens, one for one. -/
abbrev Spelt : List (List Char) → List (Token Float) → Prop :=
  List.Forall₂ fun atom token => Token.ofAtom atom = .ok token

/-- Atoms are read one by one, so a list of them is read as spelt. -/
theorem mapM_ofAtom_of_spelt {atoms : List (List Char)} {tokens : List (Token Float)}
    (h : Spelt atoms tokens) : atoms.mapM Token.ofAtom = .ok tokens := by
  induction h with
  | nil => rfl
  | cons hatom _ ih =>
      rw [List.mapM_cons]
      exact bind_eq_ok.mpr ⟨_, hatom, bind_eq_ok.mpr ⟨_, ih, rfl⟩⟩

/-- An offset is read from what is written for it. -/
theorem ofAtom_write {o : Offset} (h : o.Readable) :
    Token.ofAtom o.write = .ok (.timeOffset o) := by
  rw [Token.ofAtom, Offset.read_write h]

/-- A plain integer is an offset of so many beats. -/
theorem ofAtom_integer {n : Int} (h : Decimal.Readable n) :
    Token.ofAtom (Decimal.integer n) = .ok (HeaderNumber.bare n).token := by
  have hreadable : ({ fourths := none, beats := n, bars := none } : Offset).Readable :=
    ⟨nofun, h, nofun⟩
  have hwrite : ({ fourths := none, beats := n, bars := none } : Offset).write
      = Decimal.integer n := List.append_nil _
  rw [← hwrite]
  exact ofAtom_write hreadable

/-- The marker of the tempo is a keyword. -/
theorem ofAtom_tempoMarker : Token.ofAtom ['#', 'b', 'p', 'm'] = .ok .tempoMarker :=
  eq_ok_of_toOption (by decide +kernel)

theorem ofAtom_offsetMarker :
    Token.ofAtom ['#', 'o', 'f', 'f', 's', 'e', 't'] = .ok .offsetMarker :=
  eq_ok_of_toOption (by decide +kernel)

/-- The kinds of events are keywords. -/
theorem ofAtom_eventKind (kind : EventKind) : Token.ofAtom kind.atom = .ok (.eventType kind) := by
  cases kind
  exact eq_ok_of_toOption (by decide +kernel)

theorem ofAtom_letter (side : Direction) : Token.ofAtom [side.letter] = .ok (.direction side) := by
  cases side <;> exact eq_ok_of_toOption (by decide +kernel)

/-- The lines of a sheet are read as they are written. -/
theorem spelt_lines {lines : List Line} (h : ∀ line ∈ lines, line.offset.Readable) :
    Spelt (lines.flatMap Line.atoms) (lines.flatMap Line.tokens) := by
  induction lines with
  | nil => exact .nil
  | cons line lines ih =>
      obtain ⟨hline, hlines⟩ := List.forall_mem_cons.mp h
      exact .cons (ofAtom_eventKind line.kind) (.cons (ofAtom_letter line.side)
        (.cons (ofAtom_write hline) (ih hlines)))

/-! ## The round trip -/

/-- A sheet is read back from any text that spells it: the header numbers
    become their doubles, and every line becomes a projectile of its side
    that arrives its offset after the one before it. -/
theorem written_chart_is_read_back (sheet : Sheet) (h : sheet.Writable) (text : List Char)
    (htext : Text.Spells sheet.atoms text) :
    ∃ chart, Chart.ofText text = .ok chart ∧
      Scalar.ofInt sheet.tempo = .ok chart.tempo ∧
      Scalar.ofInt sheet.start = .ok chart.start ∧
      Chained chart.tempo chart.start sheet.lines chart.events := by
  have hreadable : ∀ line ∈ sheet.lines, line.offset.Readable := fun line hline =>
    Offset.readable_of_fits (h.natural line hline) (h.fits line hline)
  have htempo := Decimal.readable_of_fits (by have := h.tempo_pos; omega) h.tempo_fits
  have hstart := Decimal.readable_of_fits h.start_nonneg h.start_fits
  have hspelt : Spelt sheet.atoms (.tempoMarker :: (HeaderNumber.bare sheet.tempo).token
      :: .offsetMarker :: (HeaderNumber.bare sheet.start).token
      :: sheet.lines.flatMap Line.tokens) :=
    .cons ofAtom_tempoMarker (.cons (ofAtom_integer htempo) (.cons ofAtom_offsetMarker
      (.cons (ofAtom_integer hstart) (spelt_lines hreadable))))
  have htokens := mapM_ofAtom_of_spelt hspelt
  rw [← Text.words_of_spells htext (Sheet.isWord_of_mem_atoms h)] at htokens
  have hpos : 0.0 < nearestDouble sheet.tempo := Double.nearestDouble_pos h.tempo_pos
  -- header and lines follow the grammar, with the doubles that round the
  -- sheet's numbers
  have hnumber : ∀ n, FitsDouble n →
      (HeaderNumber.bare n).token.asNumber = .ok (nearestDouble n) := fun n hn =>
    asNumber_eq_ok_iff.mpr ⟨.bare n, rfl, hn, rfl⟩
  have hchain : Chained (nearestDouble sheet.tempo) (nearestDouble sheet.start) sheet.lines _ :=
    (chained_iff hpos).mpr ⟨h.fits, rfl⟩
  refine ⟨⟨nearestDouble sheet.tempo, nearestDouble sheet.start, _⟩, ?_,
    ofInt_eq_ok_iff.mpr ⟨h.tempo_fits, rfl⟩, ofInt_eq_ok_iff.mpr ⟨h.start_fits, rfl⟩, hchain⟩
  refine bind_eq_ok.mpr ⟨_, htokens, Chart.ofTokens_eq_ok_iff_chained.mpr ?_⟩
  exact ⟨_, _, sheet.lines, rfl, hnumber _ h.tempo_fits, hpos, hnumber _ h.start_fits, hchain⟩

/-- Two projectiles, the first with all three parts in its offset. -/
def Sheet.pair : Sheet :=
  { tempo := 120
    start := 2
    lines := [
      { kind := .normal, side := .up, offset := { fourths := some 1, beats := 2, bars := some 3 } },
      { kind := .normal, side := .left, offset := { fourths := none, beats := 0, bars := none } }] }

/-- The same, written with tabs, line ends and other blanks. -/
def Sheet.pairText : List Char :=
  "\t#bpm 120\r\n#offset 2\n\nnorm U\u00a01;2|3 norm\u3000L 0 ".toList

/-- The sheet can be written. -/
theorem Sheet.writable_pair : Sheet.pair.Writable where
  tempo_pos := by decide
  tempo_fits := by decide +kernel
  start_nonneg := by decide
  start_fits := by decide +kernel
  natural := List.forall_mem_cons.mpr ⟨⟨by decide, by decide, by decide⟩,
    List.forall_mem_cons.mpr ⟨⟨nofun, by decide, nofun⟩, nofun⟩⟩
  fits := List.forall_mem_cons.mpr ⟨⟨by decide +kernel, by decide +kernel, by decide +kernel⟩,
    List.forall_mem_cons.mpr ⟨⟨by decide +kernel, by decide +kernel, by decide +kernel⟩, nofun⟩⟩

/-- Any blanks part atoms as well as spaces. -/
theorem sheet_with_odd_blanks_is_read_back :
    Sheet.pair.Writable ∧ Text.Spells Sheet.pair.atoms Sheet.pairText ∧
    ∃ chart, Chart.ofText Sheet.pairText = .ok chart ∧
      Scalar.ofInt Sheet.pair.tempo = .ok chart.tempo ∧
      Scalar.ofInt Sheet.pair.start = .ok chart.start ∧
      Chained chart.tempo chart.start Sheet.pair.lines chart.events := by
  have hwords : Text.words Sheet.pairText = Sheet.pair.atoms := by decide +kernel
  have hspells := Text.spells_words Sheet.pairText
  rw [hwords] at hspells
  exact ⟨Sheet.writable_pair, hspells,
    written_chart_is_read_back Sheet.pair Sheet.writable_pair Sheet.pairText hspells⟩

end BeatShield
