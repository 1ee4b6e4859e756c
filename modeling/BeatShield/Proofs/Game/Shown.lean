import BeatShield.Proofs.Game.Following
import BeatShield.Proofs.Menu.Selection
import BeatShield.Proofs.Session.Picture
import BeatShield.Proofs.Session.Trace

/-! # Shown — the scenes that turns show

    A turn leaves in the journal what its picture is drawn from: the names,
    the selection and the message of the menu, or the run of a level with
    the label of its position.  That this is the picture is shown here.

      * A menu turn shows the scene of the menu it leads to, as its only
        picture and at its end (`menuTurn_shows`).
      * A turn in a level shows the scene of its run after the frame: the
        label stands in the scene and in the journal, and if there is none
        both stop with the same fault (`Shows`, `levelTurn_shows`).

    A scene stops at nothing but the label as long as the session is
    within bounds, and a menu highlights one of its levels as long as its
    selection is one.  Both hold between all turns of a game whose frames
    last at most a second (`Tended`, kept by `tended_turn`). -/

namespace BeatShield

open Checked Double

/-! ## What is not a picture -/

/-- Whether an entry is a line of the log or a sound. -/
def Entry.isUnseen : Entry → Bool
  | .log _ => true
  | .sound _ => true
  | _ => false

/-- The picture of the menu that an entry stands for. -/
def Entry.menuScene? (screen : Screen) : Entry → Option (List Call)
  | .showedMenu names selected message => some (Scene.ofMenu screen names selected message)
  | _ => none

/-- Whether an activity shows nothing. -/
def Activity.Unseen {α : Type} (x : Activity α) : Prop := Journal.Only (·.isUnseen = true) x

/-- Lines of the log and sounds are no pictures. -/
theorem Entry.menuScene?_of_isUnseen (screen : Screen) {entry : Entry}
    (h : entry.isUnseen = true) : entry.menuScene? screen = none := by
  cases entry with
  | log notice => rfl
  | sound act => rfl
  | _ => exact nomatch h

namespace Session

open Activity

variable {host : Host} {level : Level} {menu : Menu} {draws : Draws Float}

/-- Nothing is shown while a level is loaded: each of the three ways in
    which loading ends leaves lines and sounds alone. -/
theorem unseen_load (host : Host) (level : Level) (draws : Draws Float) :
    Unseen (load host level draws) := by
  have hsounds : ∀ acts : List SoundAct, ∀ entry ∈ acts.map Entry.sound,
      entry.isUnseen = true := by
    intro acts entry hmem
    obtain ⟨act, -, rfl⟩ := List.mem_map.mp hmem
    rfl
  intro entry hmem
  have hloading := loading host level draws
  -- the journal of each ending is known, so its entries are gone through
  generalize load host level draws = x at hloading hmem
  cases hloading with
  | unread hchart => exact nomatch hmem
  | silent hchart hfiles hbefore hcause =>
      rcases List.mem_cons.mp hmem with rfl | hmem
      · rfl
      · exact hsounds _ entry hmem
  | complete hchart =>
      rcases List.mem_append.mp hmem with hmem | hmem
      · rcases List.mem_cons.mp hmem with rfl | hmem
        · rfl
        · exact hsounds _ entry hmem
      · obtain rfl := List.mem_singleton.mp hmem
        rfl

/-- Nor is anything shown while a level is entered. -/
theorem unseen_enter (host : Host) (level : Level) (menu : Menu) (draws : Draws Float) :
    Unseen (enter host level menu draws) := by
  have hload : Unseen (Journal.attempt (load host level draws) : Activity _) :=
    unseen_load host level draws
  refine Journal.Only.bind hload fun loaded => ?_
  -- a started level plays its song, a fault is reported or ends the game
  cases loaded with
  | ok session =>
      intro entry hmem
      have hstart : entry ∈ [.log (.levelStarted session.level.name),
          .sound (.play session.sounds.song)] := hmem
      rcases List.mem_pair.mp hstart with rfl | rfl
      · rfl
      · rfl
  | error fault =>
      dsimp only
      cases fault.report? level.name with
      | none => exact Journal.only_fail fault
      | some notice =>
          exact Journal.Only.bind (Journal.only_write rfl) fun _ => Journal.only_pure _

/-! ## Sessions within bounds -/

/-- A level that is read in is within bounds. -/
theorem steady_of_load {session : Session} (hdraws : draws.Proper)
    (h : (load host level draws).result = .ok session) : session.Steady := by
  obtain ⟨chart, -, h⟩ := Journal.bind_result_eq_ok.mp h
  obtain ⟨sounds, -, h⟩ := Journal.bind_result_eq_ok.mp h
  obtain rfl := Except.ok.inj h
  exact ⟨Run.timed_ofChart chart, Particles.bounded_empty, hdraws⟩

/-- Where no level is open, all that are open are within bounds. -/
theorem steady_of_none (session : Session) (h : none = some session) : session.Steady :=
  absurd h.symm (Option.some_ne_none session)

/-- Entering a level tells the menu something, and the session that opens
    is within bounds. -/
theorem of_enter_eq_ok {next : Menu} {opened : Option Session} (hdraws : draws.Proper)
    (h : (enter host level menu draws).result = .ok (next, opened)) :
    (∃ message, next = { menu with message }) ∧
      ∀ session, opened = some session → session.Steady := by
  rcases hload : load host level draws with ⟨entries, result⟩
  cases result with
  | ok loaded =>
      have hsteady := steady_of_load hdraws (congrArg Journal.result hload)
      rw [enter_of_ok hload] at h
      obtain ⟨rfl, rfl⟩ := Prod.mk.inj (Except.ok.inj h)
      refine ⟨⟨none, rfl⟩, ?_⟩
      rintro session hsession
      rw [← Option.some.inj hsession]
      exact hsteady
  | error fault =>
      obtain ⟨notice, -, rfl, hnext, -⟩ := exists_notice_of_enter hload h
      exact ⟨⟨_, hnext⟩, steady_of_none⟩

/-- What a session is drawn as. -/
def scene (session : Session) (screen : Screen) (camera : Draws Float) :
    Drawing (Draws Float) :=
  Scene.ofRun screen session.chart session.run session.particles camera

/-- What a picture of a session leaves in the journal. -/
def shown (session : Session) (label : String) : Entry :=
  .showedRun session.run session.particles.count label

end Session

namespace Game

open Activity

variable {host : Host} {game next : Game} {inputs : List Input}

/-- The invariant between turns: the menu is one that comes about, a level
    that is open is within bounds, and so is what the next one draws from
    and the frame to come. -/
structure Tended (game : Game) : Prop where
  menu : game.menu.Reachable
  session : ∀ session, game.session = some session → session.Steady
  units : game.draws.Proper
  frame : Within 0.0 1.0 game.frameTime

/-! ## Turns in the menu -/

theorem unseen_enterChosen (host : Host) (menu : Menu) (draws : Draws Float)
    (chosen : Option Level) : Unseen (enterChosen host menu draws chosen) := by
  cases chosen with
  | none => exact Journal.only_pure _
  | some level => exact Session.unseen_enter host level menu draws

/-- A menu that comes about, with a level within bounds if one is open. -/
structure Ready (opened : Menu × Option Session) : Prop where
  menu : opened.1.Reachable
  session : ∀ session, opened.2 = some session → session.Steady

/-- Every choice leads to this. -/
theorem ready_enterChosen {menu : Menu} {draws : Draws Float} {chosen : Option Level}
    {opened : Menu × Option Session} (hmenu : menu.Reachable) (hdraws : draws.Proper)
    (h : (enterChosen host menu draws chosen).result = .ok opened) : Ready opened := by
  cases chosen with
  | none =>
      obtain rfl := Except.ok.inj h
      exact ⟨hmenu, Session.steady_of_none⟩
  | some level =>
      obtain ⟨⟨message, hnext⟩, hsteady⟩ := Session.of_enter_eq_ok hdraws h
      refine ⟨?_, hsteady⟩
      rw [hnext]
      exact hmenu.told message

/-- A turn in the menu that goes on, step by step. -/
theorem exists_of_menuTurn_eq_ok (h : (menuTurn host game inputs).result = .ok (some next)) :
    ∃ chosen opened,
      (enterChosen host (game.menu.handle inputs).menu game.draws chosen).result = .ok opened ∧
      next = { game with menu := opened.1, session := opened.2 } ∧
      (menuTurn host game inputs).entries
        = (game.menu.handle inputs).notices.map .log
          ++ (enterChosen host (game.menu.handle inputs).menu game.draws chosen).entries
          ++ [.showedMenu next.menu.names next.menu.selected next.menu.message] := by
  by_cases hclose : inputs.contains .close = true
  · rw [menuTurn_of_close host game hclose] at h
    exact nomatch h
  · rw [menuTurn_of_not_close host game hclose] at h ⊢
    obtain ⟨_, hnotices, h⟩ := Journal.bind_result_eq_ok.mp h
    obtain ⟨chosen, hchosen, h⟩ := Journal.bind_result_eq_ok.mp h
    obtain ⟨opened, hopened, h⟩ := Journal.bind_result_eq_ok.mp h
    obtain rfl := Option.some.inj (Except.ok.inj h)
    refine ⟨chosen, opened, hopened, rfl, ?_⟩
    rw [Journal.bind_of_ok hnotices, Journal.bind_of_ok hchosen, Journal.bind_of_ok hopened]
    show _ ++ ([] ++ (_ ++ [_])) = _
    rw [List.nil_append, ← List.append_assoc]
    rfl

/-- A turn in the menu shows the scene of the menu it leads to, as its only
    picture. -/
theorem menuTurn_shows (screen : Screen)
    (h : (menuTurn host game inputs).result = .ok (some next)) :
    (menuTurn host game inputs).entries.filterMap (Entry.menuScene? screen)
      = [Scene.ofMenu screen next.menu.names next.menu.selected next.menu.message] := by
  obtain ⟨chosen, opened, -, -, hentries⟩ := exists_of_menuTurn_eq_ok h
  -- all but the last entry are lines and sounds
  have hnone : ∀ {entries : List Entry}, (∀ entry ∈ entries, entry.isUnseen = true) →
      entries.filterMap (Entry.menuScene? screen) = [] := fun hunseen =>
    List.filterMap_eq_nil_iff.mpr fun entry hmem =>
      Entry.menuScene?_of_isUnseen screen (hunseen entry hmem)
  have hnotices : ∀ entry ∈ (game.menu.handle inputs).notices.map Entry.log,
      entry.isUnseen = true := by
    intro entry hmem
    obtain ⟨notice, -, rfl⟩ := List.mem_map.mp hmem
    rfl
  rw [hentries, List.filterMap_append, List.filterMap_append, hnone hnotices,
    hnone (unseen_enterChosen _ _ _ _)]
  rfl

/-- A turn in the menu keeps the invariant. -/
theorem tended_menuTurn (htended : Tended game)
    (h : (menuTurn host game inputs).result = .ok (some next)) : Tended next := by
  obtain ⟨chosen, opened, hopened, rfl, -⟩ := exists_of_menuTurn_eq_ok h
  have hready := ready_enterChosen (htended.menu.handled inputs) htended.units hopened
  exact ⟨hready.menu, hready.session, htended.units, htended.frame⟩

/-! ## Turns in a level -/

/-- The frame that a turn asks a level for. -/
def moment (game : Game) (inputs : List Input) : Session.Moment :=
  { dt := game.frameTime, presses := (Controls.collect inputs).presses }

/-- Leaves a level for the menu, if that is asked for. -/
def leaveOrStay (host : Host) (game : Game) (back : Bool) (session : Session) :
    Activity (Option Game) := do
  if back then
    let session ← session.stop
    Activity.log (.levelLeft session.level.name session.run.score)
    let menu ← game.menu.refresh host.files
    return some { game with menu, session := none, draws := session.draws }
  else
    return some { game with session := some session }

variable {session : Session}

/-- A turn in a level that does not quit has four steps. -/
theorem levelTurn_of_stay (host : Host) (game : Game) (session : Session)
    (hstay : (Controls.collect inputs).quit = false) :
    levelTurn host game session inputs = (do
      let after ← session.frame (game.moment inputs).dt (game.moment inputs).presses
      let label ← Journal.ofExcept ((after.run.label after.chart.tempo).mapError .number)
      Journal.write (after.shown label)
      leaveOrStay host game (Controls.collect inputs).back after) :=
  if_neg (Bool.eq_false_iff.mp hstay)

/-- With a label the turn shows the run after the frame, and then leaves
    the level or stays. -/
theorem levelTurn_of_label (hstay : (Controls.collect inputs).quit = false) {label : String}
    (h : (session.advance (game.moment inputs)).run.label session.chart.tempo = .ok label) :
    let after := session.advance (game.moment inputs)
    let later := leaveOrStay host game (Controls.collect inputs).back after
    levelTurn host game session inputs
      = ⟨session.written (game.moment inputs) ++ after.shown label :: later.entries,
          later.result⟩ := by
  intro after later
  have hlabel : (after.run.label after.chart.tempo).mapError Fault.number = .ok label :=
    congrArg (Except.mapError Fault.number) h
  rw [levelTurn_of_stay host game session hstay, Session.frame_eq, Journal.bind_of_ok rfl,
    hlabel]
  rfl

/-- Without one it ends the game after the frame. -/
theorem levelTurn_of_no_label (hstay : (Controls.collect inputs).quit = false)
    {cause : NumberError}
    (h : (session.advance (game.moment inputs)).run.label session.chart.tempo = .error cause) :
    levelTurn host game session inputs
      = ⟨session.written (game.moment inputs), .error (.number cause)⟩ := by
  let after := session.advance (game.moment inputs)
  have hlabel : (after.run.label after.chart.tempo).mapError Fault.number
      = .error (.number cause) := congrArg (Except.mapError Fault.number) h
  rw [levelTurn_of_stay host game session hstay, Session.frame_eq, Journal.bind_of_ok rfl,
    hlabel, Journal.bind_of_error rfl]
  exact congrArg (Journal.mk · _) (List.append_nil _)

/-- How a turn in a level and the scene of its session go together.  Either
    the scene is drawn, and the label at its end is the one that the turn
    leaves after all that its frame has written; or both stop with one
    fault. -/
inductive Shows (screen : Screen) (written : List Entry) (session : Session) :
    Activity (Option Game) → Drawing (Draws Float) → Prop where
  | drawn (label : String) (later : List Entry) (result : Except Fault (Option Game))
      (front : List Call) (rest : Draws Float) :
      Shows screen written session ⟨written ++ session.shown label :: later, result⟩
        ⟨front ++ [Scene.caption label ((screen.width : Int) - 200) 15, .flip], .ok rest⟩
  | stopped (cause : NumberError) (calls : List Call) :
      Shows screen written session ⟨written, .error (.number cause)⟩
        ⟨calls, .error (.number cause)⟩

/-- A turn in a level shows the scene of its run after the frame. -/
theorem levelTurn_shows (host : Host) (htended : Tended game)
    (hsession : game.session = some session) (hstay : (Controls.collect inputs).quit = false)
    (screen : Screen) (camera : Draws Float) :
    Shows screen (session.written (game.moment inputs)) (session.advance (game.moment inputs))
      (levelTurn host game session inputs)
      ((session.advance (game.moment inputs)).scene screen camera) := by
  let after := session.advance (game.moment inputs)
  have hsteady : after.Steady := (htended.session session hsession).advance htended.frame
  -- turn and scene both ask for the same label, and go apart on nothing else
  cases hlabel : after.run.label session.chart.tempo with
  | ok label =>
      obtain ⟨front, rest, hscene⟩ := Scene.ofRun_of_label screen session.chart camera
        hsteady.clocks hsteady.sparks hlabel
      rw [levelTurn_of_label hstay hlabel, Session.scene]
      exact hscene ▸ .drawn label _ _ front rest
  | error cause =>
      have hscene := Scene.ofRun_of_no_label screen session.chart camera
        hsteady.clocks hsteady.sparks hlabel
      rw [levelTurn_of_no_label hstay hlabel]
      generalize hdrawing : after.scene screen camera = drawing
      obtain ⟨calls, result⟩ := drawing
      obtain rfl : result = .error (.number cause) :=
        (congrArg Journal.result hdrawing).symm.trans hscene
      exact .stopped cause calls

/-- Leaving a level keeps the invariant, and so does staying. -/
theorem tended_leaveOrStay {back : Bool} (htended : Tended game) (hsteady : session.Steady)
    (h : (leaveOrStay host game back session).result = .ok (some next)) : Tended next := by
  cases back with
  | false =>
      obtain rfl := Option.some.inj (Except.ok.inj h)
      refine ⟨htended.menu, ?_, htended.units, htended.frame⟩
      intro current hcurrent
      obtain rfl : session = current := Option.some.inj hcurrent
      exact hsteady
  | true =>
      -- stopping leaves the session as it is, so its units are still proper
      obtain ⟨stopped, hstopped, h⟩ := Journal.bind_result_eq_ok.mp h
      obtain ⟨_, -, h⟩ := Journal.bind_result_eq_ok.mp h
      obtain ⟨menu, hmenu, h⟩ := Journal.bind_result_eq_ok.mp h
      obtain rfl := Except.ok.inj hstopped
      obtain rfl := Option.some.inj (Except.ok.inj h)
      exact ⟨htended.menu.refreshed hmenu, Session.steady_of_none, hsteady.units, htended.frame⟩

/-- So does a whole turn in a level. -/
theorem tended_levelTurn (htended : Tended game) (hsession : game.session = some session)
    (h : (levelTurn host game session inputs).result = .ok (some next)) : Tended next := by
  cases hquit : (Controls.collect inputs).quit with
  | true =>
      rw [levelTurn_of_quit host game session hquit] at h
      exact nomatch h
  | false =>
      have hsteady : (session.advance (game.moment inputs)).Steady :=
        (htended.session session hsession).advance htended.frame
      -- without a label there is no next game to look at
      cases hlabel : (session.advance (game.moment inputs)).run.label session.chart.tempo with
      | ok label =>
          rw [levelTurn_of_label hquit hlabel] at h
          exact tended_leaveOrStay htended hsteady h
      | error cause =>
          rw [levelTurn_of_no_label hquit hlabel] at h
          exact nomatch h

/-! ## Whole games -/

/-- One turn keeps the invariant, wherever it begins. -/
theorem tended_turn (htended : Tended game)
    (h : (turn host game inputs).result = .ok (some next)) : Tended next := by
  cases hsession : game.session with
  | none =>
      rw [turn_of_menu host hsession] at h
      exact tended_menuTurn htended h
  | some session =>
      rw [turn_of_level host hsession] at h
      exact tended_levelTurn htended hsession h

/-- Any number of turns keep it, if none is waited for longer than a second. -/
theorem tended_follow {turns : List Turn}
    (hturns : ∀ now ∈ turns, Within 0.0 1.0 (now.milliseconds / 1000.0)) (htended : Tended game)
    (h : (follow host game turns).result = .ok (some next)) : Tended next := by
  -- the game changes from turn to turn, and the invariant goes with it
  induction turns generalizing game with
  | nil =>
      obtain rfl := Option.some.inj (Except.ok.inj h)
      exact htended
  | cons now later ih =>
      obtain ⟨hnow, hlater⟩ := List.forall_mem_cons.mp hturns
      obtain ⟨after, hafter, h⟩ := Journal.bind_result_eq_ok.mp h
      cases after with
      | none => exact nomatch h
      | some after =>
          obtain ⟨_, -, h⟩ := Journal.bind_result_eq_ok.mp h
          have hturned := tended_turn htended hafter
          -- the wait sets the time of the next frame, and nothing else
          have hwaited : Tended { after with frameTime := now.milliseconds / 1000.0 } :=
            ⟨hturned.menu, hturned.session, hturned.units, hnow⟩
          exact ih hlater hwaited h

/-- A level that the arguments name leads to the same as a choice. -/
theorem ready_enterNamed {menu : Menu} {draws : Draws Float} {level : Setting String}
    {opened : Menu × Option Session} (hmenu : menu.Reachable) (hdraws : draws.Proper)
    (h : (enterNamed host menu draws level).result = .ok opened) : Ready opened := by
  have hentering (chosen : Option Level) :
      (enterChosen host menu draws chosen).result = .ok opened → Ready opened :=
    ready_enterChosen hmenu hdraws
  cases level with
  | given name =>
      by_cases hname : name.isEmpty = true
      · simp only [enterNamed, if_pos hname] at h
        exact hentering none h
      · simp only [enterNamed, if_neg hname] at h
        exact hentering (some _) h
  | unset => exact hentering none h
  | emptied => exact hentering none h

/-- The game that is set up satisfies it. -/
theorem tended_setUp {options : Options} {draws : Draws Float} (hdraws : draws.Proper)
    (h : (setUp host options draws).result = .ok game) : Tended game := by
  cases hsongs : options.songs with
  | given songs =>
      rw [setUp_of_songs host draws hsongs] at h
      obtain ⟨menu, hmenu, h⟩ := Journal.bind_result_eq_ok.mp h
      obtain ⟨opened, hopened, h⟩ := Journal.bind_result_eq_ok.mp h
      obtain rfl := Except.ok.inj h
      have hready := ready_enterNamed (.built hmenu) hdraws hopened
      exact ⟨hready.menu, hready.session, hdraws, .zero⟩
  | unset | emptied =>
      simp only [setUp, hsongs] at h
      cases h

theorem tended_opening {arguments : List String} {draws : Draws Float} (hdraws : draws.Proper)
    (h : (opening host arguments draws).result = .ok game) : Tended game := by
  unfold opening at h
  cases hread : Options.read arguments with
  | error exit =>
      rw [hread] at h
      exact nomatch h
  | ok options =>
      rw [hread] at h
      obtain ⟨_, -, h⟩ := Journal.bind_result_eq_ok.mp h
      obtain ⟨_, -, h⟩ := Journal.bind_result_eq_ok.mp h
      exact tended_setUp hdraws h

/-- The invariant holds between all turns of all games whose frames last
    at most a second. -/
theorem tended_reach {arguments : List String} {draws : Draws Float} (hdraws : draws.Proper)
    {turns : List Turn} (hturns : ∀ now ∈ turns, Within 0.0 1.0 (now.milliseconds / 1000.0))
    (h : (reach host arguments draws turns).result = .ok (some game)) : Tended game := by
  obtain ⟨start, hstart, hfollow⟩ := Journal.bind_result_eq_ok.mp h
  exact tended_follow hturns (tended_opening hdraws hstart) hfollow

/-- In every game whose frames last at most a second, every turn shows the
    scene it should.  One that begins in the menu shows, if the game goes
    on, the scene of the menu it leads to, and this menu is one of those
    that come about.  One that begins in a level and does not quit shows
    the scene of the run after the frame, or ends with what stops it. -/
theorem turns_show_scenes (host : Host) {arguments : List String} {draws : Draws Float}
    (hdraws : draws.Proper) {before : List Turn}
    (hbefore : ∀ now ∈ before, Within 0.0 1.0 (now.milliseconds / 1000.0))
    (hgame : (reach host arguments draws before).result = .ok (some game))
    (inputs : List Input) (screen : Screen) :
    (game.session = none → ∀ next, (turn host game inputs).result = .ok (some next) →
      next.menu.Reachable ∧
      (turn host game inputs).entries.filterMap (Entry.menuScene? screen)
        = [Scene.ofMenu screen next.menu.names next.menu.selected next.menu.message]) ∧
    ∀ session, game.session = some session → (Controls.collect inputs).quit = false →
      ∀ camera, Shows screen (session.written (game.moment inputs))
        (session.advance (game.moment inputs)) (turn host game inputs)
        ((session.advance (game.moment inputs)).scene screen camera) := by
  have htended := tended_reach hdraws hbefore hgame
  refine ⟨fun hsession next hnext => ?_, fun session hsession hstay camera => ?_⟩
  · rw [turn_of_menu host hsession] at hnext ⊢
    exact ⟨(tended_menuTurn htended hnext).menu, menuTurn_shows screen hnext⟩
  · rw [turn_of_level host hsession]
    exact levelTurn_shows host htended hsession hstay screen camera

end Game

end BeatShield
