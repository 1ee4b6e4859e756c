import BeatShield.Proofs.Journal
import BeatShield.Proofs.Session.Opening
import BeatShield.Scene.Menu

/-! # Selection — the menu always points at one of its levels

    The selection is moved around the ends of the list by keys and pulled
    back into it when the levels are looked up again, so it is always the
    place of a level, or zero if there is none (`Menu.Valid`).

      * Each operation of the menu keeps this, whatever the files have
        become in the meantime, and so it holds of all menus that come
        about (`Reachable.valid`).
      * With it the selected level exists (`current?_of_valid`), choosing
        never fails, and the picture highlights one entry, the one of that
        level (`filter_highlight_ofMenu`). -/

namespace BeatShield

/-- Whether a call writes a highlighted text. -/
def Call.isHighlight : Call → Bool
  | .text _ _ colour _ _ => colour == .highlight
  | _ => false

namespace Scene

/-- The highlighted entry of a line of the menu. -/
def highlighted (line : Nat) (name : String) : Call :=
  .text menuText name .highlight 30 (70 + line * menuLine : Nat)

/-- No entry below the selected one is highlighted. -/
theorem filter_highlight_below (selected : Int) (line : Nat) (h : selected < line)
    (names : List String) : (menuNames selected line names).filter Call.isHighlight = [] := by
  induction names generalizing line with
  | nil => rfl
  | cons name rest ih =>
      have hplain : ¬ (line : Int) = selected := by omega
      have hrest := ih (line + 1) (by omega)
      rw [menuNames, if_neg hplain, List.filter_cons_of_neg (ne_true_of_eq_false rfl), hrest]

/-- Of the entries only the selected one is highlighted. -/
theorem filter_highlight_menuNames (line place : Nat) (names : List String) :
    (menuNames (line + place : Nat) line names).filter Call.isHighlight
      = names[place]?.toList.map (highlighted (line + place)) := by
  induction names generalizing line place with
  | nil => rfl
  | cons name rest ih =>
      -- the selected name is the first of the line, or further down by one
      cases place with
      | zero =>
          have hrest := filter_highlight_below (line + 0 : Nat) (line + 1) (by omega) rest
          rw [menuNames, if_pos (by omega), List.filter_cons_of_pos rfl, hrest]
          rfl
      | succ place =>
          have hplain : ¬ (line : Int) = (line + (place + 1) : Nat) := by omega
          have hrest := ih (line + 1) place
          rw [Nat.add_right_comm, Nat.add_assoc] at hrest
          rw [menuNames, if_neg hplain, List.filter_cons_of_neg (ne_true_of_eq_false rfl), hrest]
          rfl

/-- In the whole picture only the selected entry is highlighted. -/
theorem filter_highlight_ofMenu (screen : Screen) (names : List String) (place : Nat)
    (message : Option String) :
    (ofMenu screen names place message).filter Call.isHighlight
      = names[place]?.toList.map (highlighted place) := by
  have hnames := filter_highlight_menuNames 0 place names
  rw [Nat.zero_add] at hnames
  have hempty : (if names.isEmpty then [.text menuText "No levels found" .text 30 70]
      else []).filter Call.isHighlight = [] := by
    cases names.isEmpty <;> rfl
  have hmessage : (menuMessage screen message).filter Call.isHighlight = [] := by
    cases message with
    | none => rfl
    | some message =>
        rw [menuMessage]
        cases message.isEmpty <;> rfl
  rw [ofMenu, List.cons_append, List.cons_append, List.cons_append, List.cons_append,
    List.cons_append, List.cons_append, List.filter_cons_of_neg (by decide),
    List.filter_cons_of_neg (by decide), List.filter_append, List.filter_append,
    List.filter_append, hnames, hempty, hmessage]
  simp [Call.isHighlight]

end Scene

namespace Menu

/-- Whether the selection is the place of a level, or zero if there is
    none. -/
def Valid (menu : Menu) : Prop :=
  0 ≤ menu.selected ∧ menu.selected < max 1 (menu.levels.length : Int)

variable {menu : Menu}

/-! ## The operations -/

/-- A move around the ends of the list stays in it. -/
theorem valid_move (h : menu.levels ≠ []) (steps : Int) : (menu.move steps).Valid := by
  have hlength : 0 < menu.levels.length := List.length_pos_iff.mpr h
  have hpos : (0 : Int) < menu.levels.length := by omega
  have hlow : 0 ≤ (menu.selected + steps) % (menu.levels.length : Int) :=
    Int.emod_nonneg _ (by omega)
  have hhigh : (menu.selected + steps) % (menu.levels.length : Int) < menu.levels.length :=
    Int.emod_lt_of_pos _ hpos
  exact ⟨hlow, Int.lt_of_lt_of_le hhigh (Int.le_max_right _ _)⟩

/-- Among the levels the selected one is found at its place. -/
theorem current?_of_valid (hvalid : menu.Valid) (h : menu.levels ≠ []) :
    ∃ level, menu.levels[menu.selected.toNat]? = some level ∧ menu.current? = some level := by
  obtain ⟨hlow, hhigh⟩ := hvalid
  have hlength : 0 < menu.levels.length := List.length_pos_iff.mpr h
  have hplace : menu.selected.toNat < menu.levels.length := by omega
  refine ⟨menu.levels[menu.selected.toNat], List.getElem?_eq_getElem hplace, ?_⟩
  have hforward : ¬ menu.selected < 0 := by omega
  rw [current?, if_neg hforward, if_neg hforward, List.getElem?_eq_getElem hplace]

/-- Choosing takes the selected level and leaves the menu as it is. -/
theorem choose_of_valid (hvalid : menu.Valid) (h : menu.levels ≠ []) :
    ∃ level, menu.levels[menu.selected.toNat]? = some level ∧
      menu.choose.menu = menu ∧ menu.choose.chosen = .ok (some level) := by
  obtain ⟨level, hplace, hcurrent⟩ := current?_of_valid hvalid h
  refine ⟨level, hplace, ?_⟩
  rw [choose, hcurrent]
  exact ⟨rfl, rfl⟩

/-- Keys keep the selection among the levels, and no choice fails. -/
theorem act_of_valid (hvalid : menu.Valid) (h : menu.levels ≠ []) (inputs : List Input) :
    (menu.act inputs).menu.Valid ∧ ∃ chosen, (menu.act inputs).chosen = .ok chosen := by
  induction inputs generalizing menu with
  | nil => exact ⟨hvalid, none, rfl⟩
  | cons input rest ih =>
      rw [act]
      -- each key keeps the invariant, and the keys behind it go on from
      -- there
      cases input.menuAction? with
      | none => exact ih hvalid h
      | some action =>
          cases action with
          | back => exact ih (valid_move h (-1)) h
          | forth => exact ih (valid_move h 1) h
          | choose =>
              obtain ⟨level, -, hmenu, hchosen⟩ := choose_of_valid hvalid h
              refine ⟨?_, some level, hchosen⟩
              show menu.choose.menu.Valid
              rw [hmenu]
              exact hvalid

theorem handle_of_levels (h : menu.levels ≠ []) (inputs : List Input) :
    menu.handle inputs = menu.act inputs :=
  if_neg fun hempty => h (List.isEmpty_iff.mp hempty)

theorem handle_of_no_levels (h : menu.levels = []) (inputs : List Input) :
    menu.handle inputs = { menu, chosen := .ok none, notices := [] } :=
  if_pos (List.isEmpty_iff.mpr h)

/-- Whatever is pressed, the selection stays valid and no choice fails. -/
theorem handle_of_valid (hvalid : menu.Valid) (inputs : List Input) :
    (menu.handle inputs).menu.Valid ∧ ∃ chosen, (menu.handle inputs).chosen = .ok chosen := by
  by_cases h : menu.levels = []
  · rw [handle_of_no_levels h]
    exact ⟨hvalid, none, rfl⟩
  · rw [handle_of_levels h]
    exact act_of_valid hvalid h inputs

/-- If choosing is the first that a menu with levels is asked for, the
    selected level is chosen. -/
theorem handle_choosing (hvalid : menu.Valid) (h : menu.levels ≠ []) {before : List Input}
    (hbefore : ∀ input ∈ before, input.menuAction? = none) {key : Key}
    (hkey : key.menuAction? = some .choose) (rest : List Input) :
    ∃ level, menu.levels[menu.selected.toNat]? = some level ∧
      (menu.handle (before ++ .press key :: rest)).chosen = .ok (some level) := by
  -- keys without an effect are passed over
  have hact : menu.act (before ++ .press key :: rest) = menu.choose := by
    induction before with
    | nil =>
        rw [List.nil_append, act, show (Input.press key).menuAction? = some .choose from hkey]
    | cons input before ih =>
        obtain ⟨hinput, hothers⟩ := List.forall_mem_cons.mp hbefore
        rw [List.cons_append, act, hinput]
        exact ih hothers
  rw [handle_of_levels h, hact]
  obtain ⟨level, hplace, -, hchosen⟩ := choose_of_valid hvalid h
  exact ⟨level, hplace, hchosen⟩

/-- However the list of levels has changed, looking it up again leaves the
    selection in it. -/
theorem valid_of_refresh {files : Files} {next : Menu} (hvalid : menu.Valid)
    (h : (menu.refresh files).result = .ok next) : next.Valid := by
  obtain ⟨levels, -, hnext⟩ := Journal.bind_result_eq_ok.mp h
  obtain rfl := Except.ok.inj hnext
  obtain ⟨hlow, -⟩ := hvalid
  constructor
  · show 0 ≤ min menu.selected (max 0 ((levels.length : Int) - 1))
    omega
  · show min menu.selected (max 0 ((levels.length : Int) - 1)) < max 1 (levels.length : Int)
    omega

/-! ## Menus that come about -/

/-- The menus that come about: one that is built, and then whatever keys,
    messages and new lookups make of it.  The files may be others each time
    they are looked at. -/
inductive Reachable : Menu → Prop where
  | built {files : Files} {songs : Path} {menu : Menu}
      (h : (ofFolder files songs).result = .ok menu) : Reachable menu
  | handled {menu : Menu} (hreach : Reachable menu) (inputs : List Input) :
      Reachable (menu.handle inputs).menu
  | told {menu : Menu} (hreach : Reachable menu) (message : Option String) :
      Reachable { menu with message }
  | refreshed {menu next : Menu} (hreach : Reachable menu) {files : Files}
      (h : (menu.refresh files).result = .ok next) : Reachable next

/-- In every menu that comes about the selection is valid. -/
theorem Reachable.valid (h : Reachable menu) : menu.Valid := by
  induction h with
  | built h =>
      obtain ⟨levels, -, hmenu⟩ := Journal.bind_result_eq_ok.mp h
      obtain rfl := Except.ok.inj hmenu
      exact ⟨Int.le_refl 0, Int.lt_of_lt_of_le Int.one_pos (Int.le_max_left _ _)⟩
  | handled _ inputs ih => exact (handle_of_valid ih inputs).1
  | told _ _ ih => exact ih
  | refreshed _ h ih => exact valid_of_refresh ih h

/-- In every menu that comes about the selection is from zero to below the
    number of levels, or zero if there are none.  So no key fails; and if
    there are levels, the picture highlights the entry of one of them and
    nothing else, and this level is chosen by a key that chooses if no
    other key of the menu comes before it. -/
theorem selection_is_a_level (h : Reachable menu) :
    0 ≤ menu.selected ∧ menu.selected < max 1 (menu.levels.length : Int) ∧
    (∀ inputs, ∃ chosen, (menu.handle inputs).chosen = .ok chosen) ∧
    (menu.levels ≠ [] → ∃ level, menu.levels[menu.selected.toNat]? = some level ∧
      (∀ screen message, (Scene.ofMenu screen menu.names menu.selected message).filter
        Call.isHighlight = [Scene.highlighted menu.selected.toNat level.name]) ∧
      ∀ (before : List Input) (key : Key) (rest : List Input),
        (∀ input ∈ before, input.menuAction? = none) → key.menuAction? = some .choose →
          (menu.handle (before ++ .press key :: rest)).chosen = .ok (some level)) := by
  have hvalid := h.valid
  refine ⟨hvalid.1, hvalid.2, fun inputs => (handle_of_valid hvalid inputs).2, ?_⟩
  intro hlevels
  obtain ⟨level, hplace, -⟩ := current?_of_valid hvalid hlevels
  refine ⟨level, hplace, ?_, ?_⟩
  · intro screen message
    have hselected : ((menu.selected.toNat : Nat) : Int) = menu.selected :=
      Int.toNat_of_nonneg hvalid.1
    -- the highlighted entry and the chosen level are found at one place
    have hname : menu.names[menu.selected.toNat]? = some level.name := by
      rw [names, List.getElem?_map, hplace]
      rfl
    have hpicture := Scene.filter_highlight_ofMenu screen menu.names menu.selected.toNat message
    rw [hselected, hname] at hpicture
    exact hpicture
  · intro before key rest hbefore hkey
    obtain ⟨level', hplace', hchosen⟩ := handle_choosing hvalid hlevels hbefore hkey rest
    rw [hplace] at hplace'
    obtain rfl := Option.some.inj hplace'
    exact hchosen

/-- When the only level is gone and back again, it is selected as before. -/
theorem lost_level_is_selected_again :
    ∃ menu, Reachable menu ∧ menu.levels ≠ [] ∧ menu.selected = 0 ∧
      (menu.handle [.press .space]).chosen = .ok (some .sole) := by
  let songs : Path := { parts := ["songs"] }
  let files := Files.ofSheet "#bpm 60 #offset 0".toUTF8
  let menu : Menu := { songs, levels := [.sole], selected := 0, message := none }
  have hbuilt : (ofFolder (.alone .empty) songs).result = .ok { menu with levels := [] } :=
    Checked.eq_ok_of_toOption (by decide +kernel)
  have hfound : (({ menu with levels := [] } : Menu).refresh files).result = .ok menu :=
    Checked.eq_ok_of_toOption (by decide +kernel)
  have hreach : Reachable menu := .refreshed (.built hbuilt) hfound
  obtain ⟨-, -, -, hchoice⟩ := selection_is_a_level hreach
  obtain ⟨level, hplace, -, hchosen⟩ := hchoice (List.cons_ne_nil _ _)
  obtain rfl := Option.some.inj hplace
  exact ⟨menu, hreach, List.cons_ne_nil _ _, rfl, hchosen [] .space [] nofun rfl⟩

end Menu

end BeatShield
