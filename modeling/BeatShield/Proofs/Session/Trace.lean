import BeatShield.Proofs.Session.Opening

/-! # Trace — what opening a level leaves behind

    A level is opened stage by stage, and a stage that fails is the last.
    What each has written by its end is known exactly:

      * reading the chart writes one line of the log, and nothing if it
        fails (`Chart.load_of_ok`, `Chart.load_of_error`);
      * sounds are made one after the other up to the first that fails
        (`SoundBank.forM_make`, `SoundBank.forM_make_failing`);
      * so loading ends in one of three ways, each with its whole journal
        (`Session.Loading`, `Session.loading`), off which one reads the
        lines and sounds it leaves behind (`Loading.of_error`,
        `Loading.of_ok`);
      * what is loaded is started, which plays the song, and a foreseen
        fault is reported in one line and on the menu
        (`Session.enter_of_ok`, `Session.enter_of_error`).

    Hence a level that fails to open leaves no trace but the message, and
    the sounds that had been made (`failed_opening_leaves_only_a_message`). -/

namespace BeatShield

/-! ## Charts -/

namespace Chart

variable {files : Files} {path : Path} {shown : String}

/-- A chart that is read leaves one line of the log. -/
theorem load_of_ok {chart : Chart Float} (h : (load files path shown).result = .ok chart) :
    load files path shown
      = ⟨[.log (.chartLoaded shown chart.events.length chart.tempo)], .ok chart⟩ := by
  obtain ⟨content, hcontent, hchart⟩ := Journal.bind_result_eq_ok.mp h
  obtain ⟨chart', hchart', hlast⟩ := Journal.bind_result_eq_ok.mp hchart
  obtain ⟨_, -, hlast⟩ := Journal.bind_result_eq_ok.mp hlast
  obtain rfl := Except.ok.inj hlast
  rw [load, Journal.bind_of_ok hcontent, Journal.bind_of_ok hchart']
  rfl

/-- One that is not read leaves nothing. -/
theorem load_of_error {fault : Fault} (h : (load files path shown).result = .error fault) :
    load files path shown = ⟨[], .error fault⟩ := by
  rcases Journal.bind_result_eq_error.mp h with hcontent | ⟨content, hcontent, hchart⟩
  · rw [load, Journal.bind_of_error hcontent]
    rfl
  · rcases Journal.bind_result_eq_error.mp hchart with hchart | ⟨chart, -, hlast⟩
    · rw [load, Journal.bind_of_ok hcontent, Journal.bind_of_error hchart]
      rfl
    · exact nomatch hlast

end Chart

/-! ## Sounds -/

namespace SoundBank

/-- The files of the sounds, in the order in which they are made. -/
def files (bank : SoundBank) : List String := [bank.song, bank.kick, bank.death]

variable {speakers : Speakers} {files before after : List String} {file : String}
  {cause : SoundError}

/-- A sound that can be made is made. -/
theorem make_of_none (h : speakers file = none) :
    make speakers file = ⟨[.sound (.load file)], .ok ()⟩ := by
  unfold make
  rw [h]
  rfl

/-- One that cannot has been tried all the same. -/
theorem make_of_some (h : speakers file = some cause) :
    make speakers file = ⟨[.sound (.load file)], .error (.sound cause)⟩ := by
  unfold make
  rw [h]
  rfl

/-- If none fails, all sounds are made. -/
theorem forM_make (h : ∀ file ∈ files, speakers file = none) :
    files.forM (make speakers) = ⟨(files.map .load).map .sound, .ok ()⟩ := by
  induction files with
  | nil => rfl
  | cons file rest ih =>
      obtain ⟨hfile, hrest⟩ := List.forall_mem_cons.mp h
      show (make speakers file >>= fun _ => rest.forM (make speakers)) = _
      rw [make_of_none hfile, ih hrest, Journal.bind_of_ok rfl]
      rfl

/-- The first sound that fails is the last that is tried. -/
theorem forM_make_failing (hbefore : ∀ earlier ∈ before, speakers earlier = none)
    (h : speakers file = some cause) (after : List String) :
    (before ++ file :: after).forM (make speakers)
      = ⟨((before ++ [file]).map .load).map .sound, .error (.sound cause)⟩ := by
  induction before with
  | nil =>
      show (make speakers file >>= fun _ => after.forM (make speakers)) = _
      rw [make_of_some h, Journal.bind_of_error rfl]
      rfl
  | cons earlier before ih =>
      obtain ⟨hearlier, hothers⟩ := List.forall_mem_cons.mp hbefore
      show (make speakers earlier >>= fun _ => (before ++ file :: after).forM _) = _
      rw [make_of_none hearlier, ih hothers, Journal.bind_of_ok rfl]
      rfl

/-- Either no file fails, or there is a first that does. -/
theorem none_or_first (speakers : Speakers) (files : List String) :
    (∀ file ∈ files, speakers file = none) ∨
      ∃ before file after cause, files = before ++ file :: after ∧
        (∀ earlier ∈ before, speakers earlier = none) ∧ speakers file = some cause := by
  induction files with
  | nil => exact .inl nofun
  | cons file rest ih =>
      cases hfile : speakers file with
      | some cause => exact .inr ⟨[], file, rest, cause, rfl, nofun, hfile⟩
      | none =>
          rcases ih with hrest | ⟨before, failing, after, cause, rfl, hbefore, hcause⟩
          · exact .inl (List.forall_mem_cons.mpr ⟨hfile, hrest⟩)
          · exact .inr ⟨file :: before, failing, after, cause, rfl,
              List.forall_mem_cons.mpr ⟨hfile, hbefore⟩, hcause⟩

/-- The sounds are made one after the other, and then the song is reported. -/
theorem load_eq (speakers : Speakers) (bank : SoundBank) :
    load speakers bank = (do
      bank.files.forM (make speakers)
      Activity.log (.songLoaded bank.song)
      return bank) := by
  show _ = ((make speakers bank.song >>= fun _ => make speakers bank.kick >>= fun _ =>
    make speakers bank.death >>= fun _ => pure ()) >>= fun _ => _)
  simp only [load, bind_assoc, pure_bind]

variable {bank : SoundBank}

/-- If none fails, all are made and the song is reported. -/
theorem load_of_none (h : ∀ file ∈ bank.files, speakers file = none) :
    load speakers bank
      = ⟨(bank.files.map .load).map .sound ++ [.log (.songLoaded bank.song)],
          .ok bank⟩ := by
  rw [load_eq, forM_make h, Journal.bind_of_ok rfl]
  rfl

/-- If one fails, those before it were made and nothing is reported. -/
theorem load_failing (hfiles : bank.files = before ++ file :: after)
    (hbefore : ∀ earlier ∈ before, speakers earlier = none) (h : speakers file = some cause) :
    load speakers bank
      = ⟨((before ++ [file]).map .load).map .sound, .error (.sound cause)⟩ := by
  rw [load_eq, hfiles, forM_make_failing hbefore h, Journal.bind_of_error rfl]

end SoundBank

/-! ## What is written -/

/-- What is reported of a fault is an error. -/
theorem Fault.severity_of_report? {name : String} {fault : Fault} {notice : Notice}
    (h : fault.report? name = some notice) : notice.severity = .error := by
  -- every line that is reported of a fault is worded as an error
  unfold report? at h
  split at h
  · exact nomatch h
  · cases h
    rfl
  · split at h
    · exact nomatch h
    · cases h
      rfl
  · split at h
    · exact nomatch h
    · cases h
      rfl
  · exact nomatch h

namespace Session

variable {host : Host} {level : Level} {draws : Draws Float} {menu : Menu}

/-- The lines of a log that are errors. -/
def errorsOf (entries : List Entry) : List Notice :=
  (Entry.notices entries).filter (·.severity = .error)

theorem errorsOf_append (before after : List Entry) :
    errorsOf (before ++ after) = errorsOf before ++ errorsOf after := by
  rw [errorsOf, Entry.notices, List.filterMap_append, List.filter_append]
  rfl

theorem errorsOf_sounds (acts : List SoundAct) : errorsOf (acts.map .sound) = [] := by
  have hnone : Entry.notices (acts.map .sound) = [] :=
    List.filterMap_eq_nil_iff.mpr fun entry hmem => by
      obtain ⟨act, -, rfl⟩ := List.mem_map.mp hmem
      rfl
  rw [errorsOf, hnone, List.filter_nil]

theorem errorsOf_report {fault : Fault} {name : String} {notice : Notice}
    (h : fault.report? name = some notice) : errorsOf [.log notice] = [notice] :=
  List.filter_cons_of_pos (decide_eq_true (Fault.severity_of_report? h))

theorem soundActs_append (before after : List Entry) :
    Entry.soundActs (before ++ after) = Entry.soundActs before ++ Entry.soundActs after :=
  List.filterMap_append

/-! ## Loading -/

/-- What reading the chart of a level comes to. -/
def reading (host : Host) (level : Level) : Except Fault (Chart Float) :=
  (Chart.load host.files level.chartPath level.chartPath.text).result

/-- The line of the log for a chart that was read. -/
def readNotice (level : Level) (chart : Chart Float) : Entry :=
  .log (.chartLoaded level.chartPath.text chart.events.length chart.tempo)

/-- A level's session before its song is started. -/
def fresh (level : Level) (chart : Chart Float) (draws : Draws Float) : Session :=
  { level, chart, run := Run.ofChart chart, sounds := level.sounds, particles := .empty, draws }

/-- The three ways in which loading a level ends: its chart is not read, a
    sound is not made, or all is there. -/
inductive Loading (host : Host) (level : Level) (draws : Draws Float) :
    Activity Session → Prop where
  | unread {fault : Fault} (hchart : reading host level = .error fault) :
      Loading host level draws ⟨[], .error fault⟩
  | silent {chart : Chart Float} {before after : List String} {file : String}
      {cause : SoundError} (hchart : reading host level = .ok chart)
      (hfiles : level.sounds.files = before ++ file :: after)
      (hbefore : ∀ earlier ∈ before, host.speakers earlier = none)
      (hcause : host.speakers file = some cause) :
      Loading host level draws
        ⟨readNotice level chart :: ((before ++ [file]).map .load).map .sound,
          .error (.sound cause)⟩
  | complete {chart : Chart Float} (hchart : reading host level = .ok chart) :
      Loading host level draws
        ⟨readNotice level chart :: (level.sounds.files.map .load).map .sound
            ++ [.log (.songLoaded level.sounds.song)],
          .ok (fresh level chart draws)⟩

/-- Loading ends in one of the three ways. -/
theorem loading (host : Host) (level : Level) (draws : Draws Float) :
    Loading host level draws (load host level draws) := by
  show Loading host level draws (do
    let chart ← Chart.load host.files level.chartPath level.chartPath.text
    let sounds ← SoundBank.load host.speakers level.sounds
    return { level, chart, run := Run.ofChart chart, sounds, particles := .empty, draws })
  cases hchart : reading host level with
  | error fault =>
      rw [Chart.load_of_error hchart, Journal.bind_of_error rfl]
      exact .unread hchart
  | ok chart =>
      rw [Chart.load_of_ok hchart, Journal.bind_of_ok rfl]
      -- with the chart read, it depends on the first sound that fails
      rcases SoundBank.none_or_first host.speakers level.sounds.files with
        hnone | ⟨before, file, after, cause, hfiles, hbefore, hcause⟩
      · rw [SoundBank.load_of_none hnone, Journal.bind_of_ok rfl]
        exact .complete hchart
      · rw [SoundBank.load_failing hfiles hbefore hcause, Journal.bind_of_error rfl]
        exact .silent hchart hfiles hbefore hcause

/-- What a failed loading leaves behind: no line that is an error, and the
    sounds that were tried. -/
theorem Loading.of_error {entries : List Entry} {fault : Fault}
    (h : Loading host level draws ⟨entries, .error fault⟩) :
    errorsOf entries = [] ∧
      ((reading host level = .error fault ∧ Entry.soundActs entries = []) ∨
        ∃ chart before file after cause, reading host level = .ok chart ∧
          fault = .sound cause ∧ level.sounds.files = before ++ file :: after ∧
          (∀ earlier ∈ before, host.speakers earlier = none) ∧
          host.speakers file = some cause ∧
          Entry.soundActs entries = (before ++ [file]).map .load) := by
  -- the ending tells the whole journal, so its errors and sounds are read
  -- off
  cases h with
  | unread hchart => exact ⟨rfl, .inl ⟨hchart, rfl⟩⟩
  | @silent chart before after file cause hchart hfiles hbefore hcause =>
      refine ⟨?_, .inr ⟨chart, before, file, after, cause, hchart, rfl, hfiles, hbefore, hcause,
        ?_⟩⟩
      · rw [← List.singleton_append, errorsOf_append, errorsOf_sounds]
        rfl
      · rw [← List.singleton_append, soundActs_append, Entry.soundActs_sounds]
        rfl

/-- What a loading that succeeds has made: all three sounds, and a session
    that has not begun. -/
theorem Loading.of_ok {entries : List Entry} {loaded : Session}
    (h : Loading host level draws ⟨entries, .ok loaded⟩) :
    ∃ chart, reading host level = .ok chart ∧ loaded = fresh level chart draws ∧
      Entry.soundActs entries = level.sounds.files.map .load := by
  cases h with
  | @complete chart hchart =>
      refine ⟨chart, hchart, rfl, ?_⟩
      rw [soundActs_append, ← List.singleton_append, soundActs_append, Entry.soundActs_sounds]
      exact List.append_nil _

/-! ## Entering -/

/-- What is loaded is started, and the message is gone. -/
theorem enter_of_ok {entries : List Entry} {loaded : Session}
    (h : load host level draws = ⟨entries, .ok loaded⟩) :
    enter host level menu draws
      = ⟨entries ++ [.log (.levelStarted loaded.level.name), .sound (.play loaded.sounds.song)],
          .ok ({ menu with message := none }, some loaded)⟩ := by
  rw [enter, h]
  rfl

/-- A foreseen fault is reported in one line, and on the menu. -/
theorem enter_of_error {entries : List Entry} {fault : Fault} {notice : Notice}
    (h : load host level draws = ⟨entries, .error fault⟩)
    (hreport : fault.report? level.name = some notice) :
    enter host level menu draws
      = ⟨entries ++ [.log notice],
          .ok ({ menu with message := some (level.name ++ ": " ++ fault.message) }, none)⟩ := by
  rw [enter, h, Journal.bind_of_ok (a := .error fault) rfl]
  dsimp only
  rw [hreport]
  rfl

/-- After a fault the game goes on only if it is foreseen. -/
theorem exists_notice_of_enter {entries : List Entry} {fault : Fault} {next : Menu}
    {opened : Option Session} (hload : load host level draws = ⟨entries, .error fault⟩)
    (h : (enter host level menu draws).result = .ok (next, opened)) :
    ∃ notice, fault.report? level.name = some notice ∧ opened = none ∧
      next = { menu with message := some (level.name ++ ": " ++ fault.message) } ∧
      (enter host level menu draws).entries = entries ++ [.log notice] := by
  cases hreport : fault.report? level.name with
  | none =>
      rw [enter, hload, Journal.bind_of_ok (a := .error fault) rfl] at h
      dsimp only at h
      rw [hreport] at h
      exact nomatch h
  | some notice =>
      rw [enter_of_error hload hreport] at h ⊢
      cases h
      exact ⟨notice, rfl, rfl, rfl, rfl⟩

/-- If a level does not open, but the game goes on, then of the menu only
    the message is changed: it names the level and the fault that stopped
    loading.  This is reported in the one line of the log that is an error.
    No sound is played or stopped; if it was the chart that failed, none is
    made, and otherwise the song, the kick and the death sound are made up
    to the one that failed.  If the level opens, the menu has no message,
    the three sounds are made and the song is played, and the session is at
    the start of a run through the chart, without particles. -/
theorem failed_opening_leaves_only_a_message (host : Host) (level : Level) (menu : Menu)
    (draws : Draws Float) :
    let opening := enter host level menu draws
    (∀ next, opening.result = .ok (next, none) →
      ∃ fault notice, (load host level draws).result = .error fault ∧
        next = { menu with message := some (level.name ++ ": " ++ fault.message) } ∧
        fault.report? level.name = some notice ∧
        errorsOf opening.entries = [notice] ∧
        ((reading host level = .error fault ∧ Entry.soundActs opening.entries = []) ∨
          ∃ chart before file after cause, reading host level = .ok chart ∧
            fault = .sound cause ∧ level.sounds.files = before ++ file :: after ∧
            (∀ earlier ∈ before, host.speakers earlier = none) ∧
            host.speakers file = some cause ∧
            Entry.soundActs opening.entries = (before ++ [file]).map .load)) ∧
    ∀ next session, opening.result = .ok (next, some session) →
      ∃ chart, reading host level = .ok chart ∧ next = { menu with message := none } ∧
        Entry.soundActs opening.entries
          = level.sounds.files.map .load ++ [.play level.sounds.song] ∧
        session.level = level ∧ session.chart = chart ∧ session.run = Run.ofChart chart ∧
        session.particles = .empty := by
  intro opening
  have hloading := loading host level draws
  rcases hload : load host level draws with ⟨entries, result⟩
  rw [hload] at hloading
  cases result with
  | error fault =>
      obtain ⟨hclean, hcause⟩ := hloading.of_error
      refine ⟨fun next h => ?_, fun next session h => ?_⟩
      · obtain ⟨notice, hreport, -, hnext, hentries⟩ := exists_notice_of_enter hload h
        have hsounds : Entry.soundActs opening.entries = Entry.soundActs entries := by
          rw [hentries, soundActs_append]
          exact List.append_nil _
        refine ⟨fault, notice, rfl, hnext, hreport, ?_, ?_⟩
        · rw [hentries, errorsOf_append, hclean, errorsOf_report hreport]
          rfl
        · rw [hsounds]
          exact hcause
      · obtain ⟨_, -, hnone, -⟩ := exists_notice_of_enter hload h
        exact nomatch hnone
  | ok loaded =>
      obtain ⟨chart, hchart, rfl, hsounds⟩ := hloading.of_ok
      -- what has loaded is started, so a menu without a session is impossible
      have henter : opening = _ := enter_of_ok hload
      rw [henter]
      refine ⟨fun next h => ?_, fun next session h => ?_⟩
      · cases h
      · cases h
        refine ⟨chart, hchart, rfl, ?_, rfl, rfl, rfl, rfl⟩
        rw [soundActs_append, hsounds]
        rfl

/-- Without its kick a level is not opened, and the death sound is not even
    tried.  With all its sounds it is, and the message of the last attempt
    is gone. -/
theorem level_without_kick_is_not_opened :
    let cause : SoundError := ⟨.device, "no kick"⟩
    let mute : Host :=
      { files := .ofSheet "#bpm 60 #offset 0".toUTF8
        speakers := fun file => if file = SoundBank.kickFile then some cause else none }
    let whole : Host := { mute with speakers := fun _ => none }
    let menu : Menu :=
      { songs := { parts := ["songs"] }, levels := [.sole], selected := 0, message := none }
    let told : Menu := { menu with message := some "a: no kick" }
    let failed := enter mute .sole menu (Draws.cycle #[])
    let opened := enter whole .sole told (Draws.cycle #[])
    failed.result = .ok (told, none) ∧
      errorsOf failed.entries = [.levelFailed "a" (.sound cause)] ∧
      Entry.soundActs failed.entries
        = [.load "songs/a/song.wav", .load SoundBank.kickFile] ∧
      ∃ session, opened.result = .ok (menu, some session) ∧
        Entry.soundActs opened.entries
          = [.load "songs/a/song.wav", .load SoundBank.kickFile, .load SoundBank.deathFile,
              .play "songs/a/song.wav"] ∧
        session.run.live = [] ∧ session.particles = .empty := by
  intro cause mute whole menu told failed opened
  have hsong : Level.sole.sounds.song = "songs/a/song.wav" := by decide +kernel
  have hchart : reading mute .sole = .ok { tempo := 60.0, start := 0.0, events := [] } :=
    Checked.eq_ok_of_toOption (by decide +kernel)
  have hfiles : Level.sole.sounds.files
      = [Level.sole.sounds.song] ++ SoundBank.kickFile :: [SoundBank.deathFile] := rfl
  have hbefore : ∀ earlier ∈ [Level.sole.sounds.song], mute.speakers earlier = none := by
    decide +kernel
  have hcause : mute.speakers SoundBank.kickFile = some cause := rfl
  have hfailing := congrArg Journal.result (SoundBank.load_failing hfiles hbefore hcause)
  have hload : (load mute .sole (Draws.cycle #[])).result = .error (.sound cause) :=
    load_eq_error_iff.mpr (.inr ⟨_, hchart, hfailing⟩)
  have hfailed : failed.result = .ok (told, none) := enter_of_load_eq_error menu hload
  have hmade : (SoundBank.load whole.speakers Level.sole.sounds).result = .ok _ :=
    congrArg Journal.result (SoundBank.load_of_none fun _ _ => rfl)
  have hwhole : (load whole .sole (Draws.cycle #[])).result = .ok _ :=
    Journal.bind_result_eq_ok.mpr ⟨_, hchart, Journal.bind_result_eq_ok.mpr ⟨_, hmade, rfl⟩⟩
  obtain ⟨session, -, hopened⟩ := enter_of_load_eq_ok told hwhole
  obtain ⟨hfault, -⟩ := failed_opening_leaves_only_a_message mute .sole menu (Draws.cycle #[])
  obtain ⟨-, hstarted⟩ := failed_opening_leaves_only_a_message whole .sole told (Draws.cycle #[])
  obtain ⟨fault, notice, hstopped, -, hreport, herrors, hacts⟩ := hfault told hfailed
  obtain rfl := Except.error.inj (hload.symm.trans hstopped)
  obtain rfl := Option.some.inj hreport
  obtain ⟨chart, hchart', -, hsounds, -, -, hrun, hparticles⟩ := hstarted menu session hopened
  obtain rfl := Except.ok.inj (hchart.symm.trans hchart')
  refine ⟨hfailed, herrors, ?_, session, hopened, ?_, ?_, hparticles⟩
  · rcases hacts with ⟨hnone, -⟩ | ⟨_, before, file, after, _, -, -, hsplit, hmade, hfails, hacts⟩
    · exact nomatch hchart.symm.trans hnone
    · -- both splits tell where the same three sounds stop
      have hsame := (SoundBank.load_failing hsplit hmade hfails).symm.trans
        (SoundBank.load_failing hfiles hbefore hcause)
      have hmuted := congrArg (fun journal => Entry.soundActs journal.entries) hsame
      simp only [Entry.soundActs_sounds] at hmuted
      rw [hacts, hmuted, hsong]
      rfl
  · rw [hsounds, ← hsong]
    rfl
  · rw [hrun]
    rfl

end Session

end BeatShield
