import BeatShield.Proofs.Menu.Selection

/-! # Navigation — where the keys of a frame lead in the menu

    A menu takes the inputs of a frame one after the other and stops at
    the first that chooses.  What it has done by then depends on how often
    the keys that move the selection were pressed, not on their order.

      * Each input that does not choose moves the selection by its part of
        `steps`, with the ends of the list joined (`act_cons`), and moves
        add up (`move_move`).
      * So the inputs before the choice move it by all their steps
        (`act_append`).
      * Behind the choice nothing is looked at (`act_append_choice`).

    Together they give the result of every frame in closed form
    (`navigation_has_closed_form`). -/

namespace BeatShield

/-- Whether an input chooses the selected level: Enter or Space goes
    down. -/
def Input.Chooses (input : Input) : Prop := input = .press .enter ∨ input = .press .space

instance : DecidablePred Input.Chooses := fun input =>
  inferInstanceAs (Decidable (input = _ ∨ input = _))

namespace Menu

/-- The inputs before the first that chooses, or all if none does. -/
def untilChoice (inputs : List Input) : List Input :=
  inputs.takeWhile fun input => ¬ input.Chooses

/-- How far down the list inputs lead: the presses of Down and S, less
    those of Up and W. -/
def steps (inputs : List Input) : Int :=
  (inputs.count (.press .down) + inputs.count (.press .s) : Nat)
    - (inputs.count (.press .up) + inputs.count (.press .w) : Nat)

/-- The first key moves by itself, and the others from there. -/
theorem steps_cons (input : Input) (rest : List Input) :
    steps (input :: rest) = steps [input] + steps rest := by
  have hcount (a : Input) : ([input] ++ rest).count a = [input].count a + rest.count a :=
    List.count_append
  rw [← List.singleton_append]
  simp only [steps, hcount]
  omega

/-- If some input chooses, there is a first that does. -/
theorem exists_choice {inputs : List Input} (h : ∃ input ∈ inputs, input.Chooses) :
    ∃ before input rest, inputs = before ++ input :: rest ∧ input.Chooses ∧
      ∀ earlier ∈ before, ¬ Input.Chooses earlier := by
  have hfound : (inputs.find? fun input => input.Chooses).isSome := by
    rw [List.find?_isSome]
    simpa using h
  obtain ⟨input, hinput⟩ := Option.isSome_iff_exists.mp hfound
  obtain ⟨hchooses, before, rest, hsplit, hbefore⟩ := List.find?_eq_some_iff_append.mp hinput
  exact ⟨before, input, rest, hsplit, of_decide_eq_true hchooses,
    fun earlier hmem => by simpa using hbefore earlier hmem⟩

/-- Without a choice all keys are heeded. -/
theorem untilChoice_of_none {inputs : List Input} (h : ∀ input ∈ inputs, ¬ input.Chooses) :
    untilChoice inputs = inputs :=
  List.takeWhile_eq_self_iff.mpr fun input hmem => decide_eq_true (h input hmem)

/-- With one, those before it are. -/
theorem untilChoice_append {before : List Input} {input : Input} (rest : List Input)
    (hbefore : ∀ earlier ∈ before, ¬ earlier.Chooses) (hinput : input.Chooses) :
    untilChoice (before ++ input :: rest) = before := by
  rw [untilChoice, List.takeWhile_append_of_pos fun earlier hmem =>
    decide_eq_true (hbefore earlier hmem), List.takeWhile_cons_of_neg (by simpa using hinput),
    List.append_nil]

/-! ## Inputs one by one -/

theorem menuAction?_of_chooses {input : Input} (h : input.Chooses) :
    input.menuAction? = some .choose := by
  rcases h with rfl | rfl <;> rfl

/-- What the other inputs do is told by their steps. -/
theorem menuAction?_of_not_chooses {input : Input} (h : ¬ input.Chooses) :
    (input.menuAction? = some .back ∧ steps [input] = -1) ∨
      (input.menuAction? = some .forth ∧ steps [input] = 1) ∨
      (input.menuAction? = none ∧ steps [input] = 0) := by
  cases input with
  | press key => cases key <;> revert h <;> decide
  | close | other => decide

variable {menu : Menu}

/-- The selection of a valid menu is in its list already. -/
theorem move_zero (hvalid : menu.Valid) (h : menu.levels ≠ []) : menu.move 0 = menu := by
  obtain ⟨hlow, hhigh⟩ := hvalid
  have hlength : 0 < menu.levels.length := List.length_pos_iff.mpr h
  have hplace : (menu.selected + 0) % (menu.levels.length : Int) = menu.selected := by
    rw [Int.add_zero, Int.emod_eq_of_lt hlow (by omega)]
  rw [move, hplace]

/-- Moves add up, around the ends. -/
theorem move_move (menu : Menu) (a b : Int) : (menu.move a).move b = menu.move (a + b) := by
  have hplace : ((menu.selected + a) % menu.levels.length + b) % (menu.levels.length : Int)
      = (menu.selected + (a + b)) % menu.levels.length := by
    rw [Int.emod_add_emod, Int.add_assoc]
  simp only [move, hplace]

/-- An input that does not choose moves the selection by its steps. -/
theorem act_cons (hvalid : menu.Valid) (h : menu.levels ≠ []) {input : Input}
    (hinput : ¬ input.Chooses) (rest : List Input) :
    menu.act (input :: rest) = (menu.move (steps [input])).act rest := by
  rcases menuAction?_of_not_chooses hinput with
    ⟨haction, hsteps⟩ | ⟨haction, hsteps⟩ | ⟨haction, hsteps⟩
  · rw [act, haction, hsteps]
  · rw [act, haction, hsteps]
  · rw [act, haction, hsteps, move_zero hvalid h]

/-! ## Frames -/

/-- Inputs none of which chooses move the selection by all their steps. -/
theorem act_append (hvalid : menu.Valid) (h : menu.levels ≠ []) {before : List Input}
    (hbefore : ∀ input ∈ before, ¬ input.Chooses) (rest : List Input) :
    menu.act (before ++ rest) = (menu.move (steps before)).act rest := by
  induction before generalizing menu with
  | nil => rw [show steps [] = 0 from rfl, move_zero hvalid h, List.nil_append]
  | cons input before ih =>
      obtain ⟨hinput, hothers⟩ := List.forall_mem_cons.mp hbefore
      have hnext := valid_move h (steps [input])
      rw [List.cons_append, act_cons hvalid h hinput, ih hnext h hothers, move_move, ← steps_cons]

/-- The first input that chooses is the last that is looked at. -/
theorem act_append_choice (hvalid : menu.Valid) (h : menu.levels ≠ []) {before : List Input}
    (hbefore : ∀ input ∈ before, ¬ input.Chooses) {input : Input} (hinput : input.Chooses)
    (rest : List Input) :
    menu.act (before ++ input :: rest) = (menu.move (steps before)).choose := by
  rw [act_append hvalid h hbefore, act, menuAction?_of_chooses hinput]

/-- Nothing of a menu changes but its selection, wherever that points. -/
theorem act_menu (menu : Menu) (inputs : List Input) :
    ∃ selected, (menu.act inputs).menu = { menu with selected } := by
  induction inputs generalizing menu with
  | nil => exact ⟨menu.selected, rfl⟩
  | cons input rest ih =>
      rw [act]
      cases input.menuAction? with
      | none => exact ih menu
      | some action =>
          cases action with
          | back => exact ih (menu.move (-1))
          | forth => exact ih (menu.move 1)
          | choose =>
              -- a choice leaves the menu as it is, and what follows is not
              -- heeded
              refine ⟨menu.selected, ?_⟩
              show menu.choose.menu = menu
              rw [choose]
              cases menu.current? <;> rfl

/-- Keys change nothing of the menu but the selection. -/
theorem handle_menu (menu : Menu) (inputs : List Input) :
    ∃ selected, (menu.handle inputs).menu = { menu with selected } := by
  by_cases h : menu.levels = []
  · rw [handle_of_no_levels h]
    exact ⟨menu.selected, rfl⟩
  · rw [handle_of_levels h]
    exact act_menu menu inputs

/-- Inputs change nothing of a menu but the selection, and without levels
    nothing at all.  With levels, and one of them selected, the selection
    is moved by the steps of the inputs before the first that chooses, and
    the ends of the list are joined.  If no input chooses, no level is
    chosen; otherwise it is the one at the place so reached, and inputs
    that come later make no difference. -/
theorem navigation_has_closed_form (menu : Menu) (inputs : List Input) :
    (∃ selected, (menu.handle inputs).menu = { menu with selected }) ∧
    (menu.levels = [] → menu.handle inputs = { menu, chosen := .ok none, notices := [] }) ∧
    (menu.levels ≠ [] → menu.Valid →
      let place := (menu.selected + steps (untilChoice inputs)) % menu.levels.length
      let moved := { menu with selected := place }
      ((∀ input ∈ inputs, ¬ input.Chooses) →
        menu.handle inputs = { menu := moved, chosen := .ok none, notices := [] }) ∧
      ((∃ input ∈ inputs, input.Chooses) →
        ∃ level, menu.levels[place.toNat]? = some level ∧
          menu.handle inputs
            = { menu := moved, chosen := .ok (some level),
                notices := [.levelSelected level.name] } ∧
          ∀ later, menu.handle (inputs ++ later) = menu.handle inputs)) := by
  refine ⟨handle_menu menu inputs, fun h => handle_of_no_levels h inputs, ?_⟩
  intro h hvalid place moved
  refine ⟨fun hnone => ?_, fun hsome => ?_⟩
  · have hmoved : moved = menu.move (steps inputs) := by
      rw [← untilChoice_of_none hnone]
      rfl
    -- no key chooses, so all of them move
    have hact := act_append hvalid h hnone []
    rw [List.append_nil] at hact
    rw [handle_of_levels h, hact, hmoved]
    rfl
  · -- the list is split at its first choice: the keys before it have moved
    obtain ⟨before, input, rest, rfl, hinput, hbefore⟩ := exists_choice hsome
    have hmoved : moved = menu.move (steps before) := by
      rw [← untilChoice_append rest hbefore hinput]
      rfl
    have hact := act_append_choice hvalid h hbefore hinput
    obtain ⟨level, hplace, hcurrent⟩ := current?_of_valid (valid_move h (steps before)) h
    refine ⟨level, ?_, ?_, fun later => ?_⟩
    · rw [← hmoved] at hplace
      exact hplace
    · rw [handle_of_levels h, hact, choose, hcurrent, hmoved]
    · rw [List.append_assoc, List.cons_append, handle_of_levels h, handle_of_levels h, hact, hact]

/-- From the first of three levels up leads to the last and two downs from
    there to the second.  The keys behind Enter are not heard, whatever
    they would have done. -/
theorem keys_behind_enter_are_not_heard :
    let levels : List Level := ["a", "b", "c"].map (Level.named { parts := ["songs"] })
    let menu : Menu := { songs := { parts := ["songs"] }, levels, selected := 0, message := none }
    let inputs : List Input := [.press .up, .press .s, .other, .press .down, .press .enter,
      .press .w, .press .space]
    menu.levels ≠ [] ∧ menu.Valid ∧ (∃ input ∈ inputs, input.Chooses) ∧
      (menu.handle inputs).menu.selected = 1 ∧
      (menu.handle inputs).notices = [.levelSelected "b"] ∧
      ∀ later, menu.handle (inputs ++ later) = menu.handle inputs := by
  intro levels menu inputs
  have hlevels : menu.levels ≠ [] := List.cons_ne_nil _ _
  have hvalid : menu.Valid := ⟨by decide, by decide⟩
  have hchoice : ∃ input ∈ inputs, input.Chooses := by decide
  obtain ⟨-, -, hkeys⟩ := navigation_has_closed_form menu inputs
  obtain ⟨-, hchosen⟩ := hkeys hlevels hvalid
  obtain ⟨level, hplace, hresult, hlater⟩ := hchosen hchoice
  obtain rfl : Level.named { parts := ["songs"] } "b" = level := Option.some.inj hplace
  refine ⟨hlevels, hvalid, hchoice, ?_, ?_, hlater⟩
  · rw [hresult]
    rfl
  · rw [hresult]
    rfl

end Menu

end BeatShield
