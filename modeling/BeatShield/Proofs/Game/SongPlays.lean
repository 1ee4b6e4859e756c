import BeatShield.Proofs.Game.Following
import BeatShield.Proofs.Game.InTune

/-! # The song plays exactly when it should

    Over every run of the program, whatever the arguments, the files, the
    sounds, the inputs and the frame times:

      * no song is played while one is playing, and no sound is loaded
        then (`Activity.Plays`, carried from turn to turn by
        `plays_follow`);
      * after every turn with a level open its song is playing exactly if
        the run is not dying (`songsPlaying_turn`);
      * in the menu no song is playing before a level is started
        (`songsPlaying_menu`);
      * when the program returns no song is playing (`plays_run`). -/

namespace BeatShield

open Entry Activity

/-! ## Nothing before a level is started -/

/-- Whether only quiet entries are written until a level is started. -/
def Entry.Announced (entries : List Entry) : Prop :=
  ∀ part, part <+: entries → (∀ name, Entry.log (.levelStarted name) ∉ part) →
    ∀ entry ∈ part, entry.isQuiet = true

/-- Entries in a row are announced if both parts are. -/
theorem Entry.announced_append {first second : List Entry} (hfirst : Announced first)
    (hsecond : Announced second) : Announced (first ++ second) := by
  rintro part ⟨later, hpart⟩ hnone
  rcases List.append_eq_append_iff.mp hpart with
    ⟨between, hshort, -⟩ | ⟨more, rfl, hmore⟩
  · exact hfirst part ⟨between, hshort.symm⟩ hnone
  · -- all of the first entries are in the part, so none of them starts a level
    intro entry hmem
    rcases List.mem_append.mp hmem with hmem | hmem
    · exact hfirst first List.prefix_rfl
        (fun name h => hnone name (List.mem_append_left more h)) entry hmem
    · exact hsecond more ⟨later, hmore.symm⟩
        (fun name h => hnone name (List.mem_append_right first h)) entry hmem

/-- Once a level is started there is nothing left to show. -/
theorem Entry.announced_started (name : String) (entries : List Entry) :
    Announced (.log (.levelStarted name) :: entries) := by
  intro part hpart hnone
  rcases List.prefix_cons_iff.mp hpart with rfl | ⟨more, rfl, -⟩
  · exact fun entry hmem => nomatch hmem
  · exact absurd List.mem_cons_self (hnone name)

namespace Activity

variable {α β : Type} {x : Activity α} {f : α → Activity β}

theorem Quiet.announced (h : Quiet x) : Announced x.entries :=
  fun _ hpart _ entry hmem => h entry (hpart.subset hmem)

theorem announced_bind (hx : Announced x.entries) (hf : ∀ a, Announced (f a).entries) :
    Announced (x >>= f).entries := by
  cases h : x.result with
  | error e =>
      rw [Journal.bind_of_error h]
      exact hx
  | ok a =>
      rw [Journal.bind_of_ok h]
      exact announced_append hx (hf a)

theorem announced_pure (a : α) : Announced (pure a : Activity α).entries :=
  Quiet.announced (x := pure a) (Journal.only_pure a)

end Activity

/-- The first thing a session writes is that its level is started. -/
theorem Session.announced_start (session : Session) : Announced session.start.entries :=
  announced_started _ _

/-- Entering a level is quiet up to that. -/
theorem Session.announced_enter (host : Host) (level : Level) (menu : Menu)
    (draws : Draws Float) : Announced (enter host level menu draws).entries := by
  have hquiet : Quiet (Journal.attempt (load host level draws) : Activity _) :=
    quiet_load host level draws
  refine announced_bind hquiet.announced fun loaded => ?_
  cases loaded with
  | ok session => exact announced_bind session.announced_start fun _ => announced_pure _
  | error fault =>
      dsimp only
      cases fault.report? level.name with
      | none => exact Quiet.announced (x := Journal.fail fault) (Journal.only_fail fault)
      | some notice =>
          exact announced_bind (quiet_log notice).announced fun _ => announced_pure _

namespace Game

theorem announced_enterChosen (host : Host) (menu : Menu) (draws : Draws Float)
    (chosen : Option Level) : Announced (enterChosen host menu draws chosen).entries := by
  cases chosen with
  | none => exact announced_pure (menu, none)
  | some level => exact Session.announced_enter host level menu draws

theorem announced_menuTurn (host : Host) (game : Game) (inputs : List Input) :
    Announced (menuTurn host game inputs).entries := by
  by_cases hclose : inputs.contains .close = true
  · rw [menuTurn_of_close host game hclose]
    exact announced_pure none
  · have hchosen : Quiet (Journal.ofExcept (game.menu.handle inputs).chosen) :=
      Journal.only_ofExcept _
    rw [menuTurn_of_not_close host game hclose]
    refine announced_bind (quiet_notices _).announced fun _ => ?_
    refine announced_bind hchosen.announced fun chosen => ?_
    refine announced_bind (announced_enterChosen _ _ _ _) fun next => ?_
    exact announced_bind (x := Journal.write _) (quiet_write rfl).announced
      fun _ => announced_pure _

/-! ## Turn after turn -/

variable {playing : List String}

/-- A run is in tune once it is opened. -/
theorem plays_opening (host : Host) (arguments : List String) (draws : Draws Float) :
    Plays [] (opening host arguments draws) fun game last =>
      Session.InTune game.session last := by
  unfold opening
  cases Options.read arguments with
  | error exit => exact Plays.fail _
  | ok options =>
      refine Plays.bind (Plays.write trivial) ?_
      rintro _ _ rfl
      refine Plays.bind (Plays.write trivial) ?_
      rintro _ _ rfl
      exact plays_setUp host options draws

/-- Turn after turn keeps the game in tune. -/
theorem plays_follow (host : Host) {game : Game} (h : Session.InTune game.session playing)
    (turns : List Turn) : Plays playing (follow host game turns) InTune := by
  -- the game changes from turn to turn, and the songs with it
  induction turns generalizing game playing with
  | nil => exact Plays.pure h
  | cons now later ih =>
      refine Plays.bind (plays_turn host h now.inputs) fun next last hnext => ?_
      cases next with
      | none => exact Plays.pure hnext
      | some next =>
          refine Plays.bind (Plays.write trivial) ?_
          rintro _ _ rfl
          exact ih hnext

/-- However far a run has got, the game is in tune. -/
theorem plays_reach (host : Host) (arguments : List String) (draws : Draws Float)
    (turns : List Turn) : Plays [] (reach host arguments draws turns) InTune :=
  Plays.bind (plays_opening host arguments draws) fun _ _ h => plays_follow host h turns

/-- What is left when the script ends closes the window, and leaves silence. -/
theorem plays_rest (host : Host) {next : Option Game} (h : InTune next playing) :
    Plays playing (rest host [] next) fun _ last => last = [] := by
  cases next with
  | none => exact Plays.pure h
  | some game =>
      refine Plays.bind (Plays.write trivial) ?_
      rintro _ _ rfl
      exact Plays.bind (plays_turn_close host h) fun _ last hlast => Plays.pure hlast

/-- A whole run begins in silence and ends in silence. -/
theorem plays_run (host : Host) (arguments : List String) (draws : Draws Float)
    (script : List Turn) :
    Plays [] (run host arguments draws script) fun _ last => last = [] := by
  -- the script is played to its end, and what is left is to close the window
  rw [← List.append_nil script, run_append]
  refine Plays.bind (plays_reach host arguments draws script) fun next last hnext => ?_
  refine Plays.bind (plays_rest host hnext) ?_
  rintro _ _ rfl
  exact Plays.write trivial

/-! ## The whole course of a game -/

section Reached

variable {host : Host} {arguments : List String} {draws : Draws Float} {before : List Turn}
  {game : Game}

/-- After a turn with a level open, its song is playing unless the run is
    dying. -/
theorem songsPlaying_turn
    (hgame : (reach host arguments draws before).result = .ok (some game)) {inputs : List Input}
    {next : Game} {session : Session} (hnext : (turn host game inputs).result = .ok (some next))
    (hsession : next.session = some session) :
    songsPlaying ((reach host arguments draws before).entries ++ (turn host game inputs).entries)
      = if session.run.isDying then [] else [session.level.songPath.text] := by
  -- the triple of the turns so far, and then that of the turn itself
  obtain ⟨playing, hreach, hpost⟩ := plays_reach host arguments draws before
  have hintune : Session.InTune game.session playing := hpost (some game) hgame
  obtain ⟨after, hturn, hafter⟩ := plays_turn host hintune inputs
  have hopen : Session.InTune next.session after := hafter (some next) hnext
  rw [hsession] at hopen
  obtain ⟨-, hheard⟩ := hopen
  have hplaying := (hreach.append hturn).songsAfter_eq
  rw [songsPlaying, hplaying, hheard]
  cases session.run.isDying <;> rfl

/-- In the menu no song is playing until a level is started. -/
theorem songsPlaying_menu
    (hgame : (reach host arguments draws before).result = .ok (some game))
    (hsession : game.session = none) {inputs : List Input} {part : List Entry}
    (hpart : part <+: (turn host game inputs).entries)
    (hnone : ∀ name, .log (.levelStarted name) ∉ part) :
    songsPlaying ((reach host arguments draws before).entries ++ part) = [] := by
  obtain ⟨playing, hreach, hpost⟩ := plays_reach host arguments draws before
  have hintune : Session.InTune game.session playing := hpost (some game) hgame
  rw [hsession] at hintune
  obtain rfl : playing = [] := hintune
  rw [turn_of_menu host hsession] at hpart
  have hquiet := announced_menuTurn host game inputs part hpart hnone
  -- up to here only quiet entries were written, so the silence has lasted
  have hsilent : Playback [] part [] :=
    .of_idle fun entry hmem => idle_of_isQuiet (hquiet entry hmem)
  exact (hreach.append hsilent).songsAfter_eq

end Reached

/-- Over every run of the program: no song is ever played, and no sound is
    ever loaded, while a song is playing.  After every turn that leaves a
    level open the level's own song is playing if the run is not dying, and
    no song is if it is.  In a turn that begins in the menu no song is
    playing until a level is started.  When the program returns no song is
    playing. -/
theorem song_plays_exactly_when_it_should (host : Host) (arguments : List String)
    (draws : Draws Float) (script : List Turn) :
    let journal := run host arguments draws script
    (∀ before file after, journal.entries = before ++ .sound (.play file) :: after →
      SoundBank.isSong file = true → songsPlaying before = []) ∧
    (∀ before file after, journal.entries = before ++ .sound (.load file) :: after →
      songsPlaying before = []) ∧
    (∀ before now later game, script = before ++ now :: later →
      (reach host arguments draws before).result = .ok (some game) →
        let earlier := (reach host arguments draws before).entries
        let turn := turn host game now.inputs
        earlier ++ turn.entries <+: journal.entries ∧
        (∀ next session, turn.result = .ok (some next) → next.session = some session →
          songsPlaying (earlier ++ turn.entries)
            = if session.run.isDying then [] else [session.level.songPath.text]) ∧
        (game.session = none → ∀ part, part <+: turn.entries →
          (∀ name, .log (.levelStarted name) ∉ part) → songsPlaying (earlier ++ part) = [])) ∧
    (journal.result = .ok () → songsPlaying journal.entries = []) := by
  intro journal
  obtain ⟨last, hplayback, hlast⟩ := plays_run host arguments draws script
  refine ⟨?_, ?_, ?_, ?_⟩
  · intro before file after hsplit
    exact hplayback.allowed before (.sound (.play file)) after hsplit
  · intro before file after hsplit
    exact hplayback.allowed before (.sound (.load file)) after hsplit
  · -- between two turns the game is what `reach` says, and the turn goes on
    -- from there
    rintro before now later game rfl hgame earlier turn
    refine ⟨turn_isPrefix hgame now later, ?_, ?_⟩
    · intro next session hnext hsession
      exact songsPlaying_turn hgame hnext hsession
    · intro hsession part hpart hnone
      exact songsPlaying_menu hgame hsession hpart hnone
  · intro hok
    exact hplayback.songsAfter_eq.trans (hlast () hok)

/-- When the only level of a folder is entered, its song is heard. -/
theorem entered_level_is_heard :
    let sheet := FileTree.file "#bpm 60 #offset 0".toUTF8
    let files := FileTree.folder [("songs", .folder [("a", .folder [("sheet.sht", sheet)])])]
    let host : Host := { files, speakers := fun _ => none }
    let start := reach host [] (Draws.cycle #[]) []
    ∃ game next session, start.result = .ok (some game) ∧
      (turn host game [.press .enter]).result = .ok (some next) ∧
      next.session = some session ∧
      songsPlaying (start.entries ++ (turn host game [.press .enter]).entries)
        = ["songs/a/song.wav"] := by
  intro sheet files host start
  let now : Turn := { inputs := [.press .enter], milliseconds := 16.0 }
  have hsong : ((reach host [] (Draws.cycle #[]) [now]).result.toOption.join.bind
      Game.session).map (fun s => (s.run.isDying, s.level.songPath.text))
        = some (false, "songs/a/song.wav") := by decide +kernel
  obtain ⟨session, hsession, hfacts⟩ := Option.map_eq_some_iff.mp hsong
  obtain ⟨hdying, hfile⟩ := Prod.mk.inj hfacts
  obtain ⟨last, hlast, hopen⟩ := Option.bind_eq_some_iff.mp hsession
  have hreach : (reach host [] (Draws.cycle #[]) [now]).result = .ok (some last) := by
    cases h : (reach host [] (Draws.cycle #[]) [now]).result with
    | error fault =>
        rw [h] at hlast
        exact nomatch hlast
    | ok next =>
        rw [h] at hlast
        exact congrArg Except.ok (Option.some.inj (Option.join_eq_some_iff.mp hlast))
  -- the one turn of the script is taken apart again
  obtain ⟨game, hgame, hfollow⟩ := Journal.bind_result_eq_ok.mp hreach
  obtain ⟨next, hturn, hnext⟩ := Journal.bind_result_eq_ok.mp hfollow
  cases next with
  | none => exact nomatch hnext
  | some next =>
      obtain rfl := Option.some.inj (Except.ok.inj hnext)
      have hstart : start.result = .ok (some game) :=
        Journal.bind_result_eq_ok.mpr ⟨game, hgame, rfl⟩
      obtain ⟨-, -, hturns, -⟩ :=
        song_plays_exactly_when_it_should host [] (Draws.cycle #[]) [now]
      obtain ⟨-, hplaying, -⟩ := hturns [] now [] game rfl hstart
      refine ⟨game, next, session, hstart, hturn, hopen, ?_⟩
      rw [hplaying next session hturn hopen, hdying, hfile]
      rfl

end Game

end BeatShield
