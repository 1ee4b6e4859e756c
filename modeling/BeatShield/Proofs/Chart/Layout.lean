import BeatShield.Proofs.Session.Opening
import BeatShield.Proofs.Text.Words

/-! # Layout — how a chart is laid out makes no difference

    A chart is read atom by atom, and its atoms are its words.

      * Two texts with blanks between them are read one after the other
        (`Token.ofText_append_gap`).
      * Texts that are made of the same words, with whatever blanks, spell
        the same chart or are refused for the same reason.
      * A chart file may end its lines in any of the three ways, since all
        of them are blanks (`Chart.ofBytes_of_text`). -/

namespace BeatShield

/-- The tokens of two texts with blanks between them are those of the
    first and then those of the second. -/
theorem Token.ofText_append_gap (before : List Char) {gap : List Char} (hne : gap ≠ [])
    (hgap : ∀ c ∈ gap, Text.isBlank c = true) (after : List Char) :
    ofText (before ++ gap ++ after) = (do return (← ofText before) ++ (← ofText after)) := by
  rw [ofText, Text.words_append_gap before hne hgap after, List.mapM_append]
  rfl

namespace Chart

/-- A chart is a matter of its words alone. -/
theorem ofText_of_words_eq {text other : List Char} (h : Text.words text = Text.words other) :
    ofText text = ofText other := by
  rw [ofText, ofText, Token.ofText, Token.ofText, h]

/-- Line ends are blanks, so joining them changes nothing. -/
theorem ofText_joinLines (text : List Char) : ofText (Text.joinLines text) = ofText text :=
  ofText_of_words_eq (Text.words_joinLines text)

/-- Text in UTF-8 is read as if its line ends had not been touched. -/
theorem ofBytes_of_text {content : ByteArray} {text : String}
    (h : String.fromUTF8? content = some text) :
    ofBytes content = (ofText text.toList).mapError .chart := by
  have hdecode : decode content = .ok (Text.joinLines text.toList) := by rw [decode, h]
  rw [ofBytes, hdecode, ← ofText_joinLines]
  rfl

/-- What comes of a chart file that can be read comes of its bytes. -/
theorem load_result {files : Files} {path : Path} {content : ByteArray}
    (h : files.readFile path = .ok content) (shown : String) :
    (load files path shown).result = ofBytes content := by
  have hcontent : (files.readFile path).mapError Fault.file = .ok content :=
    Checked.mapError_eq_ok.mpr h
  rw [load, Journal.bind_of_ok (a := content) hcontent]
  cases hchart : ofBytes content with
  | error fault => rw [Journal.bind_of_error (e := fault) rfl]
  | ok chart => rw [Journal.bind_of_ok (a := chart) rfl]; rfl

end Chart

/-- Reading tokens is compatible with putting texts together: with blanks
    between them, the tokens of the second follow those of the first, and
    the first error is the error of the whole.  So texts of the same words
    spell the same chart or are refused for the same reason, and a chart
    file in UTF-8 spells what its text spells, whatever its line ends. -/
theorem layout_makes_no_difference :
    (∀ before gap after : List Char, gap ≠ [] → (∀ c ∈ gap, Text.isBlank c = true) →
      Token.ofText (before ++ gap ++ after)
        = (do return (← Token.ofText before) ++ (← Token.ofText after))) ∧
    (∀ text other : List Char, Text.words text = Text.words other →
      Chart.ofText text = Chart.ofText other) ∧
    (∀ (words : List (List Char)) (text other : List Char),
      (∀ word ∈ words, Text.IsWord word) → Text.Spells words text → Text.Spells words other →
        Chart.ofText text = Chart.ofText other) ∧
    ∀ (files : Files) (path : Path) (shown : String) (content : ByteArray) (text : String),
      files.readFile path = .ok content → String.fromUTF8? content = some text →
        (Chart.load files path shown).result = (Chart.ofText text.toList).mapError .chart := by
  refine ⟨?_, ?_, ?_, ?_⟩
  · intro before gap after hne hgap
    exact Token.ofText_append_gap before hne hgap after
  · intro text other h
    exact Chart.ofText_of_words_eq h
  · intro words text other hwords htext hother
    -- texts that spell the same words have the same words
    have htext' := Text.words_eq_iff.mpr ⟨htext, hwords⟩
    have hother' := Text.words_eq_iff.mpr ⟨hother, hwords⟩
    exact Chart.ofText_of_words_eq (htext'.trans hother'.symm)
  · intro files path shown content text hfile htext
    rw [Chart.load_result hfile, Chart.ofBytes_of_text htext]

/-- Two odd blanks part two texts, of which the second is refused; and a
    file whose lines end in carriage returns spells the chart that is
    spelled with spaces. -/
theorem carriage_returns_part_atoms :
    let gap := ['\x1c', '\u3000']
    let text := "#bpm 120\r#offset 2\r\nnorm\u00a0U 1\r".toList
    let plain := "#bpm 120 #offset 2 norm U 1".toList
    let content := (String.ofList text).toUTF8
    gap ≠ [] ∧ (∀ c ∈ gap, Text.isBlank c = true) ∧
      Token.ofText ("norm U".toList ++ gap ++ "4|x #bpm".toList)
        = .error (.unrecognizedAtom "4|x".toList) ∧
      Text.words text = Text.words plain ∧ Chart.ofText text = Chart.ofText plain ∧
      ∃ chart, Chart.ofText plain = .ok chart ∧
        (Chart.load (.ofSheet content) Level.sole.chartPath "a").result = .ok chart := by
  intro gap text plain content
  obtain ⟨happend, hsame, hspelt, hfile⟩ := layout_makes_no_difference
  have hblank : ∀ c ∈ gap, Text.isBlank c = true := List.all_eq_true.mp rfl
  -- carriage returns and a no-break space part words like plain blanks
  have hwords : Text.words text = Text.words plain := by decide +kernel
  have hplain : Chart.ofText text = Chart.ofText plain :=
    hspelt (Text.words plain) text plain (fun word h => Text.isWord_of_mem_words h)
      (hwords ▸ Text.spells_words text) (Text.spells_words plain)
  have hchart : Chart.ofText plain = .ok
      { tempo := 120.0, start := 2.0, events := [{ arrival := 2.5, side := .up }] } :=
    Checked.eq_ok_of_toOption (by decide +kernel)
  refine ⟨List.cons_ne_nil _ _, hblank, ?_, hwords, hsame text plain hwords, _, hchart, ?_⟩
  · rw [happend _ gap _ (List.cons_ne_nil _ _) hblank]
    rfl
  · rw [hfile (.ofSheet content) Level.sole.chartPath "a" content (String.ofList text)
        (Files.readFile_ofSheet content) (dif_pos (String.ofList text).isValidUTF8),
      String.toList_ofList, hplain, hchart]
    rfl

end BeatShield
