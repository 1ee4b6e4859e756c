import BeatShield.Text.Split

/-! # Words — the words of a text are those that it was made of

    `Text.words` takes a text apart at its blanks.  Which blanks they are
    and how many stand together makes no difference:

      * a blank parts a text into two whose words follow each other
        (`words_append_blank`);
      * `Spells` says how a text is made of words: blanks may stand at
        both ends, and between two words stands at least one.  Taking it
        apart gives back the words (`words_of_spells`), and every text is
        made of its words in this way (`spells_words`);
      * line ends are blanks, so it does not matter how they are read
        (`words_joinLines`). -/

namespace BeatShield.Text

/-! ## Parting a text -/

/-- A blank ends the word that is open. -/
theorem Opening.push_of_blank {c : Char} (h : isBlank c = true) (o : Opening) :
    o.push c = ([], o.close) := if_pos h

theorem Opening.push_of_not_blank {c : Char} (h : isBlank c = false) (o : Opening) :
    o.push c = (c :: o.1, o.2) := if_neg (ne_true_of_eq_false h)

theorem Opening.close_append (o : Opening) (later : List (List Char)) :
    Opening.close (o.1, o.2 ++ later) = o.close ++ later := by
  obtain ⟨word, ws⟩ := o
  cases word with
  | nil => rfl
  | cons c rest => rfl

/-- Words that are complete stay behind whatever is put in front. -/
theorem foldr_push_append (cs : List Char) (o : Opening) (later : List (List Char)) :
    cs.foldr Opening.push (o.1, o.2 ++ later)
      = ((cs.foldr Opening.push o).1, (cs.foldr Opening.push o).2 ++ later) := by
  induction cs with
  | nil => rfl
  | cons c rest ih =>
      rw [List.foldr_cons, List.foldr_cons, ih]
      cases h : isBlank c with
      | true => rw [Opening.push_of_blank h, Opening.push_of_blank h, Opening.close_append]
      | false => rw [Opening.push_of_not_blank h, Opening.push_of_not_blank h]

/-- No word reaches across a blank. -/
theorem words_append_blank (before : List Char) {c : Char} (h : isBlank c = true)
    (after : List Char) : words (before ++ c :: after) = words before ++ words after := by
  have hopen := foldr_push_append before ([], []) (words after)
  rw [words, List.foldr_append, List.foldr_cons, Opening.push_of_blank h]
  show (before.foldr Opening.push ([], [] ++ words after)).close = _
  rw [hopen, Opening.close_append]
  rfl

theorem words_cons_blank {c : Char} (h : isBlank c = true) (after : List Char) :
    words (c :: after) = words after := words_append_blank [] h after

/-- Blanks in front make no difference. -/
theorem words_blanks_append {margin : List Char} (h : ∀ c ∈ margin, isBlank c = true)
    (rest : List Char) : words (margin ++ rest) = words rest := by
  induction margin with
  | nil => rfl
  | cons c margin ih =>
      obtain ⟨hc, hmargin⟩ := List.forall_mem_cons.mp h
      rw [List.cons_append, words_cons_blank hc, ih hmargin]

/-- No word reaches across several blanks either. -/
theorem words_append_gap (before : List Char) {gap : List Char} (hne : gap ≠ [])
    (hgap : ∀ c ∈ gap, isBlank c = true) (after : List Char) :
    words (before ++ gap ++ after) = words before ++ words after := by
  cases gap with
  | nil => exact absurd rfl hne
  | cons c rest =>
      obtain ⟨hc, hrest⟩ := List.forall_mem_cons.mp hgap
      rw [List.append_assoc, List.cons_append, words_append_blank before hc,
        words_blanks_append hrest]

/-! ## Single words -/

/-- A word: at least one character, and no blank. -/
def IsWord (word : List Char) : Prop := word ≠ [] ∧ ∀ c ∈ word, isBlank c = false

instance (word : List Char) : Decidable (IsWord word) :=
  decidable_of_iff (word ≠ [] ∧ word.all (fun c => !isBlank c) = true)
    (and_congr_right fun _ => by simp only [List.all_eq_true, Bool.not_eq_true'])

/-- Without blanks all characters are one open word. -/
theorem foldr_push_of_no_blank {word : List Char} (h : ∀ c ∈ word, isBlank c = false) :
    word.foldr Opening.push ([], []) = (word, []) := by
  induction word with
  | nil => rfl
  | cons c rest ih =>
      obtain ⟨hc, hrest⟩ := List.forall_mem_cons.mp h
      rw [List.foldr_cons, ih hrest, Opening.push_of_not_blank hc]

/-- A word is its own only word. -/
theorem words_of_isWord {word : List Char} (h : IsWord word) : words word = [word] := by
  rw [words, foldr_push_of_no_blank h.2]
  cases word with
  | nil => exact absurd rfl h.1
  | cons c rest => rfl

/-! ## Texts made of words -/

/-- How a text is made of words: any blanks, a word, then the other words
    in the same way.  After a word comes a blank, unless it is the last. -/
inductive Spells : List (List Char) → List Char → Prop where
  | nil {margin : List Char} (hblank : ∀ c ∈ margin, isBlank c = true) : Spells [] margin
  | cons {word margin rest : List Char} {ws : List (List Char)}
      (hblank : ∀ c ∈ margin, isBlank c = true)
      (hgap : ws ≠ [] → ∃ c later, rest = c :: later ∧ isBlank c = true)
      (hrest : Spells ws rest) : Spells (word :: ws) (margin ++ (word ++ rest))

/-- What is left after a word is empty or starts with a blank. -/
theorem Spells.gap {ws : List (List Char)} {rest : List Char} (h : Spells ws rest)
    (hgap : ws ≠ [] → ∃ c later, rest = c :: later ∧ isBlank c = true) :
    rest = [] ∨ ∃ c later, rest = c :: later ∧ isBlank c = true := by
  cases h with
  | nil hblank =>
      cases rest with
      | nil => exact .inl rfl
      | cons c later => exact .inr ⟨c, later, rfl, hblank c List.mem_cons_self⟩
  | cons _ _ _ => exact .inr (hgap (List.cons_ne_nil _ _))

/-- A text made of words has exactly these words. -/
theorem words_of_spells {ws : List (List Char)} {text : List Char} (h : Spells ws text)
    (hws : ∀ word ∈ ws, IsWord word) : words text = ws := by
  induction h with
  | @nil margin hblank =>
      have hempty := words_blanks_append hblank []
      rwa [List.append_nil] at hempty
  | @cons word margin rest ws hblank hgap hrest ih =>
      obtain ⟨hword, hothers⟩ := List.forall_mem_cons.mp hws
      have hlater := ih hothers
      rw [words_blanks_append hblank]
      -- a word ends with the text or at a blank
      rcases hrest.gap hgap with rfl | ⟨c, later, rfl, hc⟩
      · rw [List.append_nil, words_of_isWord hword, ← hlater]
        rfl
      · rw [words_cons_blank hc] at hlater
        rw [words_append_blank word hc, words_of_isWord hword, hlater]
        rfl

/-- A text may have another blank in front. -/
theorem Spells.blank_cons {ws : List (List Char)} {text : List Char} (h : Spells ws text)
    {c : Char} (hc : isBlank c = true) : Spells ws (c :: text) := by
  cases h with
  | nil hblank => exact .nil (List.forall_mem_cons.mpr ⟨hc, hblank⟩)
  | @cons word margin rest ws hblank hgap hrest =>
      show Spells _ ((c :: margin) ++ (word ++ rest))
      exact .cons (List.forall_mem_cons.mpr ⟨hc, hblank⟩) hgap hrest

/-- A text whose first word may be open spells the words once it is
    complete. -/
theorem spells_close {o : Opening} {later : List Char} (h : Spells o.2 later)
    (hgap : o.2 ≠ [] → ∃ c rest, later = c :: rest ∧ isBlank c = true) :
    Spells o.close (o.1 ++ later) := by
  obtain ⟨word, ws⟩ := o
  cases word with
  | nil => exact h
  | cons c word =>
      show Spells _ ([] ++ ((c :: word) ++ later))
      exact .cons nofun hgap h

/-- Every text is made of its words: the induction carries what is behind
    the word that is still open. -/
theorem spells_words (text : List Char) : Spells (words text) text := by
  -- from the right: the text is the open word and what the closed words
  -- spell, with a blank between them
  have hopen : ∃ later, text = (text.foldr Opening.push ([], [])).1 ++ later ∧
      Spells (text.foldr Opening.push ([], [])).2 later ∧
      ((text.foldr Opening.push ([], [])).2 ≠ [] →
        ∃ c rest, later = c :: rest ∧ isBlank c = true) := by
    induction text with
    | nil => exact ⟨[], rfl, .nil nofun, fun h => absurd rfl h⟩
    | cons c rest ih =>
        obtain ⟨later, hsplit, hlater, hgap⟩ := ih
        rw [List.foldr_cons]
        cases hc : isBlank c with
        | true =>
            have hrest := spells_close hlater hgap
            rw [← hsplit] at hrest
            rw [Opening.push_of_blank hc]
            exact ⟨c :: rest, rfl, hrest.blank_cons hc, fun _ => ⟨c, rest, rfl, hc⟩⟩
        | false =>
            rw [Opening.push_of_not_blank hc]
            exact ⟨later, congrArg (c :: ·) hsplit, hlater, hgap⟩
  obtain ⟨later, hsplit, hlater, hgap⟩ := hopen
  have hspells := spells_close hlater hgap
  rwa [← hsplit] at hspells

/-- Words are put together from characters that are no blanks. -/
theorem isWord_of_mem_words {text word : List Char} (h : word ∈ words text) : IsWord word := by
  have hclose : ∀ o : Opening, (∀ c ∈ o.1, isBlank c = false) → (∀ w ∈ o.2, IsWord w) →
      ∀ w ∈ o.close, IsWord w := by
    intro o hfirst hothers
    obtain ⟨first, others⟩ := o
    cases first with
    | nil => exact hothers
    | cons c rest => exact List.forall_mem_cons.mpr ⟨⟨List.cons_ne_nil c rest, hfirst⟩, hothers⟩
  -- the invariant from the right: the open word has no blanks, and the
  -- closed ones are words
  have hopen : (∀ c ∈ (text.foldr Opening.push ([], [])).1, isBlank c = false) ∧
      ∀ w ∈ (text.foldr Opening.push ([], [])).2, IsWord w := by
    clear h
    induction text with
    | nil => exact ⟨nofun, nofun⟩
    | cons c rest ih =>
        rw [List.foldr_cons]
        cases hc : isBlank c with
        | true =>
            rw [Opening.push_of_blank hc]
            exact ⟨nofun, hclose _ ih.1 ih.2⟩
        | false =>
            rw [Opening.push_of_not_blank hc]
            exact ⟨List.forall_mem_cons.mpr ⟨hc, ih.1⟩, ih.2⟩
  exact hclose _ hopen.1 hopen.2 word h

/-- The words of a text are the only ones that it is made of. -/
theorem words_eq_iff {ws : List (List Char)} {text : List Char} :
    words text = ws ↔ Spells ws text ∧ ∀ word ∈ ws, IsWord word := by
  constructor
  · rintro rfl
    exact ⟨spells_words text, fun word h => isWord_of_mem_words h⟩
  · rintro ⟨hspells, hws⟩
    exact words_of_spells hspells hws

/-! ## Line ends -/

/-- Joining line ends leaves the same words open. -/
theorem foldr_push_joinLines (cs : List Char) :
    (joinLines cs).foldr Opening.push ([], []) = cs.foldr Opening.push ([], []) := by
  have hfeed : isBlank '\n' = true := by decide
  have hreturn : isBlank '\r' = true := by decide
  fun_induction joinLines cs with
  | case1 rest ih =>
      -- the carriage return closes the word that the line feed has closed
      simp only [List.foldr_cons, ih, Opening.push_of_blank hfeed, Opening.push_of_blank hreturn]
      rfl
  | case2 rest _ ih =>
      simp only [List.foldr_cons, ih, Opening.push_of_blank hfeed, Opening.push_of_blank hreturn]
  | case3 c rest _ _ ih => rw [List.foldr_cons, List.foldr_cons, ih]
  | case4 => rfl

/-- However line ends are written, the words are the same. -/
theorem words_joinLines (cs : List Char) : words (joinLines cs) = words cs := by
  rw [words, foldr_push_joinLines, words]

end BeatShield.Text
