import BeatShield.Game
import BeatShield.Proofs.Checked
import BeatShield.Proofs.Game.Switching

/-! # In tune — the song follows the session

    The invariant of the game: with a level open, its song and no other is
    playing, unless its run is dying; without one no song is playing
    (`Session.InTune`).  Each part of the game is given a triple for it:

      * looking for levels, charts and sounds is quiet, and leaves the
        menu silent whether or not it fails;
      * carrying out commands switches the song as they say
        (`Session.plays_apply`), so starting, stopping and every frame of
        a session keep it in tune;
      * a turn keeps the game in tune (`Game.plays_turn`). -/

namespace BeatShield

open Entry Activity

variable {playing : List String}

/-- The invariant.  With a level open its own sounds are in use, and its
    song is on exactly if the run is not dying. -/
def Session.InTune : Option Session → List String → Prop
  | none, playing => playing = []
  | some session, playing =>
      session.sounds = session.level.sounds ∧
        playing = session.level.heard (!session.run.isDying)

/-- The invariant between turns.  Nothing is playing once the game is
    over. -/
def Game.InTune : Option Game → List String → Prop
  | none, playing => playing = []
  | some game, playing => Session.InTune game.session playing

/-! ## Quiet parts -/

/-- Whether an activity neither plays nor stops a sound. -/
def Activity.Quiet {α : Type} (x : Activity α) : Prop := Journal.Only (·.isQuiet = true) x

theorem Activity.quiet_write {entry : Entry} (h : entry.isQuiet = true) :
    Quiet (Journal.write entry) := Journal.only_write h

theorem Activity.quiet_log (notice : Notice) : Quiet (Activity.log notice) := quiet_write rfl

/-- Reading a chart is quiet. -/
theorem Chart.quiet_load (files : Files) (path : Path) (shown : String) :
    Quiet (Chart.load files path shown) :=
  (Journal.only_ofExcept _).bind fun _ =>
    (Journal.only_ofExcept _).bind fun _ =>
      (quiet_log _).bind fun _ => Journal.only_pure _

/-- Looking for levels is quiet, whether or not the folder is there. -/
theorem Menu.quiet_findLevels (files : Files) (songs : Path) :
    Quiet (Menu.findLevels files songs) := by
  refine (Journal.only_ofExcept _).bind fun levels => ?_
  cases levels with
  | some levels => exact Journal.only_pure levels
  | none => exact (quiet_log _).bind fun _ => Journal.only_pure _

theorem Menu.quiet_ofFolder (files : Files) (songs : Path) :
    Quiet (Menu.ofFolder files songs) :=
  (Menu.quiet_findLevels files songs).bind fun _ => Journal.only_pure _

theorem Menu.quiet_refresh (menu : Menu) (files : Files) : Quiet (menu.refresh files) :=
  (Menu.quiet_findLevels files menu.songs).bind fun _ => Journal.only_pure _

namespace SoundBank

/-- A sound that is made is not heard yet. -/
theorem quiet_make (speakers : Speakers) (file : String) : Quiet (make speakers file) := by
  refine (quiet_write rfl).bind fun _ => ?_
  cases speakers file with
  | none => exact Journal.only_pure ()
  | some error => exact Journal.only_fail _

/-- Nor are the three sounds of a level. -/
theorem quiet_load (speakers : Speakers) (bank : SoundBank) : Quiet (load speakers bank) :=
  (quiet_make speakers bank.song).bind fun _ =>
    (quiet_make speakers bank.kick).bind fun _ =>
      (quiet_make speakers bank.death).bind fun _ =>
        (quiet_log _).bind fun _ => Journal.only_pure _

/-- Sounds that were made are those that were asked for. -/
theorem eq_of_load_eq_ok {speakers : Speakers} {bank bank' : SoundBank}
    (h : (load speakers bank).result = .ok bank') : bank = bank' := by
  obtain ⟨_, -, h⟩ := Journal.bind_result_eq_ok.mp h
  obtain ⟨_, -, h⟩ := Journal.bind_result_eq_ok.mp h
  obtain ⟨_, -, h⟩ := Journal.bind_result_eq_ok.mp h
  obtain ⟨_, -, h⟩ := Journal.bind_result_eq_ok.mp h
  exact Except.ok.inj h

end SoundBank

namespace Session

/-- Loading a level is quiet, also when it fails. -/
theorem quiet_load (host : Host) (level : Level) (draws : Draws Float) :
    Quiet (load host level draws) :=
  (Chart.quiet_load _ _ _).bind fun _ =>
    (SoundBank.quiet_load _ _).bind fun _ => Journal.only_pure _

/-- A level that is read in is at the start of its run, with its own
    sounds. -/
theorem of_load_eq_ok {host : Host} {level : Level} {draws : Draws Float} {session : Session}
    (h : (load host level draws).result = .ok session) :
    session.level = level ∧ session.sounds = level.sounds ∧ session.run.isDying = false := by
  obtain ⟨chart, -, h⟩ := Journal.bind_result_eq_ok.mp h
  obtain ⟨bank, hbank, h⟩ := Journal.bind_result_eq_ok.mp h
  obtain rfl := SoundBank.eq_of_load_eq_ok hbank
  obtain rfl := Except.ok.inj h
  exact ⟨rfl, rfl, rfl⟩

/-! ## Sessions -/

/-- Commands change the particles of a session and nothing else, and the
    song as they say. -/
theorem plays_apply {session : Session} (hsounds : session.sounds = session.level.sounds)
    {commands : List (Command Float)} {on after : Bool}
    (h : session.level.Switches commands on after) :
    Plays (session.level.heard on) (session.apply commands) fun next last =>
      (next.level = session.level ∧ next.sounds = session.sounds ∧ next.run = session.run) ∧
        last = session.level.heard after := by
  simp only [Session.apply, hsounds]
  refine Plays.bind (Plays.writeAll h) fun _ last hlast => ?_
  exact Plays.pure ⟨⟨rfl, rfl, rfl⟩, hlast⟩

/-- From silence, starting a session starts its song. -/
theorem plays_start {session : Session} (hsounds : session.sounds = session.level.sounds)
    (halive : session.run.isDying = false) :
    Plays [] session.start fun next last => InTune (some next) last := by
  refine Plays.bind (Plays.write trivial) fun _ last hlast => ?_
  obtain rfl : last = session.level.heard false := hlast
  refine (plays_apply hsounds session.level.switches_start).weaken ?_
  rintro next last ⟨⟨hlevel, hbank, hrun⟩, rfl⟩
  refine ⟨?_, ?_⟩
  · rw [hbank, hlevel, hsounds]
  · rw [hlevel, hrun, halive]
    rfl

/-- Stopping a session leaves silence, also when its run was dying. -/
theorem plays_stop {session : Session} (h : InTune (some session) playing) :
    Plays playing session.stop fun _ last => last = [] := by
  obtain ⟨hsounds, rfl⟩ := h
  exact (plays_apply hsounds (session.level.switches_stop _)).weaken fun _ _ hlast => hlast.2

/-- A frame keeps a session in tune, whatever happens in it. -/
theorem plays_frame {session : Session} (h : InTune (some session) playing) (dt : Float)
    (presses : Presses) :
    Plays playing (session.frame dt presses) fun next last => InTune (some next) last := by
  obtain ⟨hsounds, rfl⟩ := h
  have hnotices : ∀ entry ∈
      (session.run.frame session.chart dt presses).notices.map (fun n => Entry.log (.run n)),
      Idle (session.level.heard (!session.run.isDying)) entry := by
    intro entry hmem
    obtain ⟨notice, -, rfl⟩ := List.mem_map.mp hmem
    exact idle_log _ _
  -- the notices come first; then the commands switch the song as the run says
  refine Plays.bind (Plays.writeAll (.of_idle hnotices)) ?_
  rintro _ _ rfl
  have hswitches := Run.frame_switches session.level session.run session.chart dt presses
  let moved : Session := { session with
    run := (session.run.frame session.chart dt presses).run }
  have hmoved : moved.sounds = moved.level.sounds := hsounds
  -- the commands are those of the run, so the song follows its dying
  refine Plays.bind (plays_apply hmoved hswitches) ?_
  rintro next last ⟨⟨hlevel, hbank, hrun⟩, rfl⟩
  refine Plays.pure ⟨?_, ?_⟩
  · show next.sounds = next.level.sounds
    rw [hbank, hlevel, hsounds]
  · show _ = next.level.heard (!next.run.isDying)
    rw [hlevel, hrun]

/-- From silence, entering a level starts its song or leaves the silence. -/
theorem plays_enter (host : Host) (level : Level) (menu : Menu) (draws : Draws Float) :
    Plays [] (enter host level menu draws) fun next last => InTune next.2 last := by
  -- whatever goes wrong while loading goes wrong in silence
  have hquiet : Quiet (Journal.attempt (load host level draws) : Activity _) :=
    quiet_load host level draws
  refine Plays.bind (Plays.of_isQuiet hquiet) ?_
  rintro loaded _ ⟨hloaded, rfl⟩
  obtain rfl := Except.ok.inj hloaded
  -- a level that loads is started; a fault leaves the silence, reported or not
  cases hload : (load host level draws).result with
  | ok session =>
      obtain ⟨hlevel, hsounds, halive⟩ := of_load_eq_ok hload
      rw [← hlevel] at hsounds
      exact Plays.bind (plays_start hsounds halive) fun next last h => Plays.pure h
  | error fault =>
      dsimp only
      cases fault.report? level.name with
      | none => exact Plays.fail fault
      | some notice =>
          refine Plays.bind (Plays.write trivial) fun _ last hlast => Plays.pure ?_
          exact hlast

end Session

/-! ## Turns -/

namespace Game

/-- What a choice in the menu leads to. -/
def enterChosen (host : Host) (menu : Menu) (draws : Draws Float) :
    Option Level → Activity (Menu × Option Session)
  | none => pure (menu, none)
  | some level => Session.enter host level menu draws

/-- Shows the menu at the end of a turn. -/
def showMenu (game : Game) (next : Menu × Option Session) : Activity (Option Game) := do
  Journal.write (.showedMenu next.1.names next.1.selected next.1.message)
  return some { game with menu := next.1, session := next.2 }

/-- Closing the window in the menu ends the game without a trace. -/
theorem menuTurn_of_close (host : Host) (game : Game) {inputs : List Input}
    (h : inputs.contains .close = true) : menuTurn host game inputs = pure none := if_pos h

/-- Otherwise a turn in the menu has four steps. -/
theorem menuTurn_of_not_close (host : Host) (game : Game) {inputs : List Input}
    (h : ¬ inputs.contains .close = true) :
    menuTurn host game inputs = (do
      Journal.writeAll ((game.menu.handle inputs).notices.map .log)
      let chosen ← Journal.ofExcept (game.menu.handle inputs).chosen
      let next ← enterChosen host (game.menu.handle inputs).menu game.draws chosen
      game.showMenu next) := by
  simp only [menuTurn, if_neg h]
  congr 1
  funext _
  congr 1
  funext chosen
  cases chosen <;> rfl

theorem quiet_notices (notices : List Notice) :
    Quiet (Journal.writeAll (notices.map .log) : Activity Unit) := by
  intro entry hmem
  obtain ⟨notice, -, rfl⟩ := List.mem_map.mp hmem
  rfl

/-- From silence, a choice starts the song of a level or leaves the silence. -/
theorem plays_enterChosen (host : Host) (menu : Menu) (draws : Draws Float)
    (chosen : Option Level) :
    Plays [] (enterChosen host menu draws chosen) fun next last =>
      Session.InTune next.2 last := by
  cases chosen with
  | none => exact Plays.pure rfl
  | some level => exact Session.plays_enter host level menu draws

theorem plays_showMenu (game : Game) {next : Menu × Option Session}
    (h : Session.InTune next.2 playing) : Plays playing (game.showMenu next) InTune := by
  refine Plays.bind (Plays.write trivial) ?_
  rintro _ _ rfl
  exact Plays.pure h

/-- A turn in the menu begins in silence, and leaves the game in tune. -/
theorem plays_menuTurn (host : Host) (game : Game) (inputs : List Input) :
    Plays [] (menuTurn host game inputs) InTune := by
  by_cases hclose : inputs.contains .close = true
  · rw [menuTurn_of_close host game hclose]
    exact Plays.pure rfl
  · rw [menuTurn_of_not_close host game hclose]
    refine Plays.bind (Plays.of_isQuiet (quiet_notices _)) ?_
    rintro _ _ ⟨-, rfl⟩
    refine Plays.bind (Plays.ofExcept _) ?_
    rintro chosen _ ⟨-, rfl⟩
    exact Plays.bind (plays_enterChosen _ _ _ _) fun next last h => plays_showMenu game h

theorem turn_of_menu (host : Host) {game : Game} (h : game.session = none)
    (inputs : List Input) : turn host game inputs = menuTurn host game inputs := by
  simp only [turn, h]

theorem turn_of_level (host : Host) {game : Game} {session : Session}
    (h : game.session = some session) (inputs : List Input) :
    turn host game inputs = levelTurn host game session inputs := by
  simp only [turn, h]

/-- Closing the window in a level stops the song and ends the game. -/
theorem levelTurn_of_quit (host : Host) (game : Game) (session : Session) {inputs : List Input}
    (h : (Controls.collect inputs).quit = true) :
    levelTurn host game session inputs = (do
      let _ ← session.stop
      return none) := if_pos h

/-- A turn in a level keeps the game in tune. -/
theorem plays_levelTurn (host : Host) (game : Game) {session : Session}
    (h : Session.InTune (some session) playing) (inputs : List Input) :
    Plays playing (levelTurn host game session inputs) InTune := by
  by_cases hquit : (Controls.collect inputs).quit = true
  · rw [levelTurn_of_quit host game session hquit]
    exact Plays.bind (Session.plays_stop h) fun _ last hlast => Plays.pure hlast
  · simp only [levelTurn, if_neg hquit]
    refine Plays.bind (Session.plays_frame h _ _) fun next last hnext => ?_
    refine Plays.bind (Plays.ofExcept _) ?_
    rintro label _ ⟨-, rfl⟩
    refine Plays.bind (Plays.write trivial) ?_
    rintro _ _ rfl
    by_cases hback : (Controls.collect inputs).back = true
    · rw [if_pos hback]
      -- the frame may have restarted the song, so the stop comes after it
      refine Plays.bind (Session.plays_stop hnext) ?_
      rintro left _ rfl
      refine Plays.bind (Plays.write trivial) ?_
      rintro _ _ rfl
      refine Plays.bind (Plays.of_isQuiet (game.menu.quiet_refresh host.files)) ?_
      rintro menu _ ⟨-, rfl⟩
      exact Plays.pure rfl
    · rw [if_neg hback]
      exact Plays.pure hnext

/-- A turn keeps the game in tune. -/
theorem plays_turn (host : Host) {game : Game} (h : Session.InTune game.session playing)
    (inputs : List Input) : Plays playing (turn host game inputs) InTune := by
  cases hsession : game.session with
  | none =>
      rw [hsession] at h
      obtain rfl : playing = [] := h
      rw [turn_of_menu host hsession]
      exact plays_menuTurn host game inputs
  | some session =>
      rw [hsession] at h
      rw [turn_of_level host hsession]
      exact plays_levelTurn host game h inputs

/-- Closing the window silences the game. -/
theorem plays_turn_close (host : Host) {game : Game} (h : Session.InTune game.session playing) :
    Plays playing (turn host game [.close]) fun _ last => last = [] := by
  cases hsession : game.session with
  | none =>
      rw [hsession] at h
      rw [turn_of_menu host hsession, menuTurn_of_close host game rfl]
      exact Plays.pure h
  | some session =>
      rw [hsession] at h
      rw [turn_of_level host hsession, levelTurn_of_quit host game session rfl]
      exact Plays.bind (Session.plays_stop h) fun _ last hlast => Plays.pure hlast

/-- The level that the arguments ask for, if any. -/
def enterNamed (host : Host) (menu : Menu) (draws : Draws Float) :
    Setting String → Activity (Menu × Option Session)
  | .given name =>
      if name.isEmpty then pure (menu, none)
      else Session.enter host (Level.named menu.songs name) menu draws
  | _ => pure (menu, none)

/-- With a songs folder the game is set up in three steps. -/
theorem setUp_of_songs (host : Host) {options : Options} (draws : Draws Float) {songs : String}
    (h : options.songs = .given songs) :
    setUp host options draws = (do
      let menu ← Menu.ofFolder host.files (Path.ofString songs)
      let next ← enterNamed host menu draws options.level
      return { options, menu := next.1, session := next.2, draws, frameTime := 0.0 }) := by
  simp only [setUp, h]
  congr 1
  funext menu
  cases options.level with
  | given name =>
      by_cases hname : name.isEmpty = true
      · simp only [enterNamed, if_pos hname]
      · simp only [enterNamed, if_neg hname]
  | _ => rfl

/-- So does a level that the arguments name: its song starts, or there is
    silence. -/
theorem plays_enterNamed (host : Host) (menu : Menu) (draws : Draws Float)
    (level : Setting String) :
    Plays [] (enterNamed host menu draws level) fun next last =>
      Session.InTune next.2 last := by
  cases level with
  | given name =>
      by_cases hname : name.isEmpty = true
      · simp only [enterNamed, if_pos hname]
        exact Plays.pure rfl
      · simp only [enterNamed, if_neg hname]
        exact Session.plays_enter host _ menu draws
  | _ => exact Plays.pure rfl

/-- The game is in tune before its first turn. -/
theorem plays_setUp (host : Host) (options : Options) (draws : Draws Float) :
    Plays [] (setUp host options draws) fun game last => Session.InTune game.session last := by
  cases h : options.songs with
  | given songs =>
      rw [setUp_of_songs host draws h]
      refine Plays.bind (Plays.of_isQuiet (Menu.quiet_ofFolder _ _)) ?_
      rintro menu _ ⟨-, rfl⟩
      exact Plays.bind (plays_enterNamed _ _ _ _) fun next last h => Plays.pure h
  | _ =>
      simp only [setUp, h]
      exact Plays.fail .noSongs

end Game

end BeatShield
