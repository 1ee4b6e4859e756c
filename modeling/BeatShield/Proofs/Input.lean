import BeatShield.Input

/-! # Input — what a frame asks for, whatever the order of its inputs

    `Controls.collect` looks for each thing that may be asked for among all
    inputs of a frame, so what it finds is a matter of which inputs there
    are (`collect_eq`).

      * The same inputs ask for the same, in whatever order and however
        often they occur (`collect_congr`).
      * What two lists of inputs ask for together is what either of them
        asks for (`collect_append`).
      * The same comes about if the inputs are heeded one after the other
        (`collect_eq_foldl`).  No key has two meanings, so it makes no
        difference which meaning is tried first. -/

namespace BeatShield

theorem Direction.mem_all (side : Direction) : side ∈ all := by cases side <;> decide

namespace Input

/-- The side that an input turns the shield to. -/
def side? : Input → Option Direction
  | .press key => key.side?
  | .close | .other => none

/-- Whether an input is the press of a key that is looked for. -/
def presses (wanted : Key → Bool) : Input → Bool
  | .press key => wanted key
  | .close | .other => false

/-- A key is pressed by the input that presses it. -/
theorem presses_eq_iff {key : Key} {input : Input} :
    input.presses (· == key) = true ↔ input = .press key := by
  cases input <;> simp [presses]

theorem presses_side_iff {side : Direction} {input : Input} :
    input.presses (·.side? == some side) = true ↔ input.side? = some side := by
  cases input <;> simp [presses, side?]

end Input

namespace Controls

/-! ## Collecting -/

/-- A test of inputs that only presses can pass. -/
theorem eq_presses {test : Input → Bool} {wanted : Key → Bool}
    (hpress : ∀ key, test (.press key) = wanted key) (hclose : test .close = false)
    (hother : test .other = false) : test = Input.presses wanted := by
  funext input
  cases input with
  | press key => exact hpress key
  | close => exact hclose
  | other => exact hother

/-- Whether something is pressed depends on which inputs occur, and not on
    where. -/
private theorem collect_eq_any (inputs : List Input) :
    collect inputs =
      { presses :=
          { sides := Direction.all.filter fun side =>
              inputs.any (Input.presses (·.side? == some side))
            restart := inputs.any (Input.presses (· == .r)) }
        back := inputs.any (Input.presses (· == .escape))
        quit := inputs.contains .close } := by
  simp only [collect]
  congr 2
  · refine List.filter_congr fun side _ => congrArg inputs.any ?_
    exact eq_presses (fun _ => rfl) rfl rfl
  · exact congrArg inputs.any (eq_presses (fun _ => rfl) rfl rfl)
  · exact eq_presses (fun _ => rfl) rfl rfl

/-- A side is pressed, or a restart, the way back or the end asked for, if
    some input says so. -/
theorem collect_eq (inputs : List Input) :
    collect inputs =
      { presses :=
          { sides := Direction.all.filter (· ∈ inputs.filterMap Input.side?)
            restart := decide (.press .r ∈ inputs) }
        back := decide (.press .escape ∈ inputs)
        quit := decide (.close ∈ inputs) } := by
  have hkey (key : Key) :
      inputs.any (Input.presses (· == key)) = decide (.press key ∈ inputs) := by
    rw [Bool.eq_iff_iff]
    simp [Input.presses_eq_iff]
  have hside (side : Direction) :
      inputs.any (Input.presses (·.side? == some side))
        = decide (side ∈ inputs.filterMap Input.side?) := by
    rw [Bool.eq_iff_iff]
    simp [Input.presses_side_iff]
  simp only [collect_eq_any, hkey, hside, List.contains_eq_mem]

variable {inputs : List Input}

/-- The sides pressed are those of the inputs. -/
theorem mem_sides_collect {side : Direction} :
    side ∈ (collect inputs).presses.sides ↔ side ∈ inputs.filterMap Input.side? := by
  simp [collect_eq, side.mem_all]

/-- Inputs ask for the same if they are the same ones, in whatever order
    and however often each of them occurs. -/
theorem collect_congr {other : List Input} (h : ∀ input, input ∈ inputs ↔ input ∈ other) :
    collect inputs = collect other := by
  simp only [collect_eq, List.mem_filterMap, h]

/-! ## Several lists of inputs -/

/-- What either of two frames asks for. -/
def union (one two : Controls) : Controls :=
  { presses :=
      { sides := Direction.all.filter fun side =>
          side ∈ one.presses.sides ∨ side ∈ two.presses.sides
        restart := one.presses.restart || two.presses.restart }
    back := one.back || two.back
    quit := one.quit || two.quit }

/-- Inputs in a row press what either part presses. -/
theorem collect_append (first second : List Input) :
    collect (first ++ second) = (collect first).union (collect second) := by
  rw [union]
  simp only [mem_sides_collect]
  simp only [collect_eq, List.filterMap_append, List.mem_append, Bool.decide_or]

/-! ## One input after the other -/

/-- Nothing is asked for. -/
def idle : Controls := { presses := {}, back := false, quit := false }

/-- What is asked for after one more input. -/
def heed (controls : Controls) : Input → Controls
  | .close => { controls with quit := true }
  | .press key =>
      match key.side? with
      | some side =>
          { controls with
            presses.sides := Direction.all.filter fun s => s ∈ controls.presses.sides ∨ s = side }
      | none =>
          if key = .r then { controls with presses.restart := true }
          else if key = .escape then { controls with back := true }
          else controls
  | .other => controls

/-- One more input presses what it stands for. -/
theorem collect_concat (inputs : List Input) (input : Input) :
    collect (inputs ++ [input]) = (collect inputs).heed input := by
  cases input with
  | close => simp [collect_eq, heed, Input.side?]
  | other => simp [collect_eq, heed, Input.side?]
  | press key => cases key <;> simp [collect_eq, heed, Input.side?, Key.side?, Direction.mem_all]

/-- Collecting is heeding the inputs one after the other. -/
theorem collect_eq_foldl (inputs : List Input) : collect inputs = inputs.foldl heed idle := by
  have hfrom : ∀ earlier later : List Input,
      collect (earlier ++ later) = later.foldl heed (collect earlier) := by
    intro earlier later
    induction later generalizing earlier with
    | nil => rw [List.append_nil, List.foldl_nil]
    | cons input rest ih => rw [List.append_cons, ih, collect_concat, List.foldl_cons]
  exact hfrom [] inputs

end Controls

end BeatShield
