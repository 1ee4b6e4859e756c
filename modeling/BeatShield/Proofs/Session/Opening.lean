import BeatShield.Proofs.Chart.Atom
import BeatShield.Proofs.Chart.Blame
import BeatShield.Proofs.FileTree.Places
import BeatShield.Proofs.Game.InTune

/-! # Opening — which faults of a level reach its menu

    A level is opened by reading its chart and making its sounds.  What
    goes wrong on the way is shown on the menu, if it is a fault that the
    menu foresees: a file that cannot be used, a sound that cannot be
    made, an atom or a token that the grammar refuses.

      * `Unforeseen` lists what is left: a path that names nothing, a
        chart that is no text, and numbers of the chart that are too long
        or too large.
      * Each stage of opening fails for the reasons of its own
        (`Chart.load_eq_error_iff`, `SoundBank.exists_of_load_eq_error`),
        and `enter_of_load_eq_error` says what becomes of them.

    So opening ends the game exactly for an unforeseen fault
    (`enter_returns_unless_unforeseen`), and charts with one exist
    (`huge_tempo_ends_the_game`). -/

namespace BeatShield

open Checked

/-! ## Charts -/

namespace Chart

/-- A file has no text exactly if its bytes are not UTF-8. -/
theorem decode_eq_error_iff {content : ByteArray} {fault : Fault} :
    decode content = .error fault ↔ String.fromUTF8? content = none ∧ fault = .encoding := by
  unfold decode
  cases String.fromUTF8? content with
  | none =>
      constructor
      · intro h; exact ⟨rfl, (Except.error.inj h).symm⟩
      · rintro ⟨-, rfl⟩; rfl
  | some s =>
      constructor
      · intro h; exact nomatch h
      · rintro ⟨h, -⟩; exact nomatch h

/-- Text without carriage returns is read as it was written. -/
theorem decode_toUTF8 {text : List Char} (h : Text.joinLines text = text) :
    decode (String.ofList text).toUTF8 = .ok text := by
  have hvalid : String.fromUTF8? (String.ofList text).toUTF8 = some (String.ofList text) :=
    dif_pos (String.ofList text).isValidUTF8
  unfold decode
  rw [hvalid]
  simp only [String.toList_ofList, h]

/-- Bytes are no chart because they are no text, or because the text is no
    chart. -/
theorem ofBytes_eq_error_iff {content : ByteArray} {fault : Fault} :
    ofBytes content = .error fault ↔
      (String.fromUTF8? content = none ∧ fault = .encoding) ∨
        ∃ source cause, decode content = .ok source ∧ ofText source = .error cause ∧
          fault = .chart cause := by
  unfold ofBytes
  rw [bind_eq_error, decode_eq_error_iff]
  refine or_congr Iff.rfl ?_
  constructor
  · rintro ⟨source, hsource, h⟩
    obtain ⟨cause, hcause, rfl⟩ := mapError_eq_error.mp h
    exact ⟨source, cause, hsource, hcause, rfl⟩
  · rintro ⟨source, cause, hsource, hcause, rfl⟩
    exact ⟨source, hsource, mapError_eq_error.mpr ⟨cause, hcause, rfl⟩⟩

/-- Loading a chart fails because its file cannot be read or because its
    bytes spell no chart. -/
theorem load_eq_error_iff {files : Files} {path : Path} {shown : String} {fault : Fault} :
    (load files path shown).result = .error fault ↔
      (∃ cause, files.readFile path = .error cause ∧ fault = .file cause) ∨
        ∃ content, files.readFile path = .ok content ∧ ofBytes content = .error fault := by
  unfold load
  rw [Journal.bind_result_eq_error]
  constructor
  · rintro (h | ⟨content, hcontent, h⟩)
    · obtain ⟨cause, hcause, rfl⟩ := mapError_eq_error.mp h
      exact .inl ⟨cause, hcause, rfl⟩
    · rcases Journal.bind_result_eq_error.mp h with h | ⟨_, -, h⟩
      · exact .inr ⟨content, mapError_eq_ok.mp hcontent, h⟩
      · exact nomatch h
  · rintro (⟨cause, hcause, rfl⟩ | ⟨content, hcontent, h⟩)
    · exact .inl (mapError_eq_error.mpr ⟨cause, hcause, rfl⟩)
    · refine .inr ⟨content, mapError_eq_ok.mpr hcontent, ?_⟩
      exact Journal.bind_result_eq_error.mpr (.inl h)

end Chart

/-- In the grammar the only limit is the size of integers. -/
theorem Faulty.cause_eq {p : Place} {tokens : List (Token Float)} {cause : NumberError}
    (h : Faulty p tokens (.number cause)) : cause = .intTooLarge := by
  generalize he : ChartError.number cause = e at h
  induction h with
  | ended _ => exact nomatch he
  | here hblames =>
      cases hblames with
      | misplaced _ => exact nomatch he
      | tooLarge _ _ => exact ChartError.number.inj he
      | notPositive _ _ => exact nomatch he
  | later _ _ ih => exact ih he

/-! ## Files with one level -/

/-- Files with nothing but the chart of one level. -/
def Files.ofSheet (content : ByteArray) : Files :=
  .alone (.folder [("songs", .folder [("a", .folder [("sheet.sht", .file content)])])])

/-- The level of such files. -/
def Level.sole : Level := { name := "a", folder := { parts := ["songs", "a"] } }

/-- Its chart is read. -/
theorem Files.readFile_ofSheet (content : ByteArray) :
    (ofSheet content).readFile Level.sole.chartPath = .ok content := by
  have hname : Level.sole.chartPath.text.toList.contains '\x00' = false := by decide +kernel
  have hfits : Fits Level.sole.chartPath := by decide +kernel
  have hwalk : FileTree.walk [] (ofSheet content).root ["home", "songs", "a", "sheet.sht"]
      = .ok (.file content) := by
    unfold ofSheet alone
    dsimp only
    rw [FileTree.walk_into _ (by decide +kernel) rfl, FileTree.walk_into _ (by decide +kernel) rfl,
      FileTree.walk_into _ (by decide +kernel) rfl, FileTree.walk_into _ (by decide +kernel) rfl,
      FileTree.walk.eq_def]
  have hfind : (ofSheet content).find Level.sole.chartPath = .ok (.file content) := by
    unfold find
    rw [if_neg (by rw [hname]; exact Bool.false_ne_true), if_neg (not_not_intro hfits)]
    exact hwalk
  rw [readFile, hfind]

/-! ## Sounds -/

namespace SoundBank

/-- A sound fails for the reason that the host gives for its file. -/
theorem make_eq_error_iff {speakers : Speakers} {file : String} {fault : Fault} :
    (make speakers file).result = .error fault ↔
      ∃ cause, speakers file = some cause ∧ fault = .sound cause := by
  unfold make
  rw [Journal.bind_result_eq_error]
  constructor
  · rintro (h | ⟨_, -, h⟩)
    · exact nomatch h
    · -- the host decides, and its reason is passed on
      cases hs : speakers file with
      | none =>
          rw [hs] at h
          exact nomatch h
      | some cause =>
          rw [hs] at h
          exact ⟨cause, rfl, (Except.error.inj h).symm⟩
  · rintro ⟨cause, hs, rfl⟩
    refine .inr ⟨(), rfl, ?_⟩
    rw [hs]
    rfl

/-- Loading sounds fails only because one of them cannot be made. -/
theorem exists_of_load_eq_error {speakers : Speakers} {bank : SoundBank} {fault : Fault}
    (h : (load speakers bank).result = .error fault) :
    ∃ file cause, speakers file = some cause ∧ fault = .sound cause := by
  rcases Journal.bind_result_eq_error.mp h with h | ⟨_, -, h⟩
  · exact ⟨_, make_eq_error_iff.mp h⟩
  rcases Journal.bind_result_eq_error.mp h with h | ⟨_, -, h⟩
  · exact ⟨_, make_eq_error_iff.mp h⟩
  rcases Journal.bind_result_eq_error.mp h with h | ⟨_, -, h⟩
  · exact ⟨_, make_eq_error_iff.mp h⟩
  · exact nomatch h

end SoundBank

/-! ## Levels -/

/-- The faults of a level that its menu does not foresee: the path of its
    chart holds a NUL character; the chart is not UTF-8; its first atom
    that is no token has too many digits for an integer; or all its atoms
    are tokens, and what is wrong with the first bad one is an integer that
    is too large. -/
inductive Unforeseen (files : Files) (level : Level) : Fault → Prop where
  | path {cause : FileError} (hread : files.readFile level.chartPath = .error cause)
      (hnul : cause.fault = .nulCharacter) : Unforeseen files level (.file cause)
  | encoding {content : ByteArray} (hread : files.readFile level.chartPath = .ok content)
      (htext : String.fromUTF8? content = none) : Unforeseen files level .encoding
  | digits {content : ByteArray} {source atom : List Char} {before later : List (List Char)}
      {count : Nat} (hread : files.readFile level.chartPath = .ok content)
      (htext : Chart.decode content = .ok source)
      (hsplit : Text.words source = before ++ atom :: later)
      (hbefore : ∀ a ∈ before, ∃ t, Token.ofAtom a = .ok t)
      (hatom : Offset.read atom = .error (.tooManyDigits count)) :
      Unforeseen files level (.chart (.number (.tooManyDigits count)))
  | size {content : ByteArray} {source : List Char} {tokens : List (Token Float)}
      (hread : files.readFile level.chartPath = .ok content)
      (htext : Chart.decode content = .ok source) (htokens : Token.ofText source = .ok tokens)
      (hfaulty : Faulty .tempoMarker tokens (.number .intTooLarge)) :
      Unforeseen files level (.chart (.number .intTooLarge))

/-- Whether a sound fails for its file or its device, and not for its
    arguments. -/
def SoundError.Regular (cause : SoundError) : Prop := cause.fault ≠ .value

namespace Session

variable {host : Host} {level : Level} {draws : Draws Float} {fault : Fault}

/-- Loading fails with the chart, or else with the sounds. -/
theorem load_eq_error_iff :
    (load host level draws).result = .error fault ↔
      (Chart.load host.files level.chartPath level.chartPath.text).result = .error fault ∨
        ∃ chart, (Chart.load host.files level.chartPath level.chartPath.text).result = .ok chart ∧
          (SoundBank.load host.speakers level.sounds).result = .error fault := by
  unfold load
  rw [Journal.bind_result_eq_error]
  refine or_congr Iff.rfl (exists_congr fun chart => and_congr Iff.rfl ?_)
  rw [Journal.bind_result_eq_error]
  constructor
  · rintro (h | ⟨_, -, h⟩)
    · exact h
    · exact nomatch h
  · exact .inl

/-- What is loaded is opened, and the menu has no message. -/
theorem enter_of_load_eq_ok {loaded : Session} (menu : Menu)
    (h : (load host level draws).result = .ok loaded) :
    ∃ session, loaded.start.result = .ok session ∧
      (enter host level menu draws).result = .ok ({ menu with message := none }, some session) := by
  refine ⟨_, rfl, ?_⟩
  unfold enter
  rw [Journal.bind_of_ok (a := .ok loaded) (congrArg Except.ok h)]
  rfl

/-- A fault is shown on the menu if it is foreseen, and ends the game
    otherwise. -/
theorem enter_of_load_eq_error (menu : Menu) (h : (load host level draws).result = .error fault) :
    (enter host level menu draws).result
      = if (fault.report? level.name).isSome then
          .ok ({ menu with message := some (level.name ++ ": " ++ fault.message) }, none)
        else .error fault := by
  unfold enter
  rw [Journal.bind_of_ok (a := .error fault) (congrArg Except.ok h)]
  dsimp only
  cases fault.report? level.name with
  | none => rfl
  | some notice => rfl

/-- Whatever the menu does not foresee among the faults of loading is on
    the list. -/
theorem unforeseen_of_load_eq_error
    (hsounds : ∀ file cause, host.speakers file = some cause → cause.Regular)
    (h : (load host level draws).result = .error fault)
    (hreport : fault.report? level.name = none) : Unforeseen host.files level fault := by
  rcases load_eq_error_iff.mp h with hchart | ⟨_, -, hsound⟩
  · rcases Chart.load_eq_error_iff.mp hchart with ⟨cause, hread, rfl⟩ | ⟨content, hread, hbytes⟩
    · refine .path hread ?_
      by_contra hnul
      rw [Fault.report?, if_neg hnul] at hreport
      exact nomatch hreport
    · rcases Chart.ofBytes_eq_error_iff.mp hbytes with
        ⟨htext, rfl⟩ | ⟨source, cause, htext, hcause, rfl⟩
      · exact .encoding hread htext
      · cases cause with
        | number cause =>
            rcases Chart.ofText_eq_error_iff.mp hcause with hatoms | ⟨tokens, htokens, hfaulty⟩
            · obtain ⟨before, atom, later, hsplit, hbefore, hatom⟩ :=
                Token.ofText_eq_error_iff.mp hatoms
              obtain ⟨count, hcount, rfl⟩ := Token.ofAtom_eq_number_iff.mp hatom
              exact .digits hread htext hsplit hbefore hcount
            · -- of the numbers of a chart only the header's can be too large
              obtain rfl := hfaulty.cause_eq
              exact .size hread htext htokens hfaulty
        | unrecognizedAtom text => exact nomatch hreport
        | unexpectedToken token => exact nomatch hreport
        | unexpectedEnd => exact nomatch hreport
  · obtain ⟨file, cause, hfile, rfl⟩ := SoundBank.exists_of_load_eq_error hsound
    rw [Fault.report?, if_neg (hsounds file cause hfile)] at hreport
    exact nomatch hreport

/-- An unforeseen fault stops loading before any sound is made. -/
theorem load_eq_error_of_unforeseen (draws : Draws Float)
    (h : Unforeseen host.files level fault) :
    (load host level draws).result = .error fault := by
  refine load_eq_error_iff.mpr (.inl (Chart.load_eq_error_iff.mpr ?_))
  cases h with
  | path hread _ => exact .inl ⟨_, hread, rfl⟩
  | encoding hread htext =>
      exact .inr ⟨_, hread, Chart.ofBytes_eq_error_iff.mpr (.inl ⟨htext, rfl⟩)⟩
  | digits hread htext hsplit hbefore hatom =>
      have hcause := Token.ofAtom_eq_number_iff.mpr ⟨_, hatom, rfl⟩
      have hatoms := Token.ofText_eq_error_iff.mpr ⟨_, _, _, hsplit, hbefore, hcause⟩
      have hsource := Chart.ofText_eq_error_iff.mpr (.inl hatoms)
      exact .inr ⟨_, hread, Chart.ofBytes_eq_error_iff.mpr (.inr ⟨_, _, htext, hsource, rfl⟩)⟩
  | size hread htext htokens hfaulty =>
      have hsource := Chart.ofText_eq_error_iff.mpr (.inr ⟨_, htokens, hfaulty⟩)
      exact .inr ⟨_, hread, Chart.ofBytes_eq_error_iff.mpr (.inr ⟨_, _, htext, hsource, rfl⟩)⟩

omit host draws in
/-- What is unforeseen is not reported. -/
theorem report?_of_unforeseen {files : Files} (h : Unforeseen files level fault) :
    fault.report? level.name = none := by
  cases h with
  | path _ hnul => exact if_pos hnul
  | encoding _ _ => rfl
  | digits _ _ _ _ _ => rfl
  | size _ _ _ _ => rfl

/-- Opening a level ends the game exactly for the faults on the list, as
    long as sounds fail for their files and devices alone.  Otherwise it
    returns: either the started session of what was loaded, and a menu
    without a message, or no session, and a menu that names the level and
    the fault. -/
theorem enter_returns_unless_unforeseen (host : Host) (level : Level) (menu : Menu)
    (draws : Draws Float)
    (hsounds : ∀ file cause, host.speakers file = some cause → cause.Regular) :
    (∀ fault, (enter host level menu draws).result = .error fault ↔
      Unforeseen host.files level fault) ∧
    ∀ next opened, (enter host level menu draws).result = .ok (next, opened) →
      (∃ loaded session, (load host level draws).result = .ok loaded ∧
        loaded.start.result = .ok session ∧ opened = some session ∧
        next = { menu with message := none }) ∨
      ∃ fault, (load host level draws).result = .error fault ∧ opened = none ∧
        next = { menu with message := some (level.name ++ ": " ++ fault.message) } := by
  cases hload : (load host level draws).result with
  | ok loaded =>
      obtain ⟨session, hstart, henter⟩ := enter_of_load_eq_ok menu hload
      rw [henter]
      refine ⟨fun fault => ⟨nofun, fun h => ?_⟩, fun next opened h => .inl ?_⟩
      · rw [load_eq_error_of_unforeseen draws h] at hload
        exact nomatch hload
      · cases h
        exact ⟨loaded, session, rfl, hstart, rfl, rfl⟩
  | error fault =>
      rw [enter_of_load_eq_error menu hload]
      by_cases hreport : (fault.report? level.name).isSome
      · rw [if_pos hreport]
        refine ⟨fun fault' => ⟨nofun, fun h => ?_⟩, fun next opened h => .inr ?_⟩
        · -- an unforeseen fault would have been the one that stopped loading
          have hsame := hload.symm.trans (load_eq_error_of_unforeseen draws h)
          obtain rfl := Except.error.inj hsame
          rw [report?_of_unforeseen h] at hreport
          exact nomatch hreport
        · cases h
          exact ⟨fault, rfl, rfl, rfl⟩
      · rw [if_neg hreport]
        refine ⟨fun fault' => ⟨fun h => ?_, fun h => ?_⟩, fun next opened h => ?_⟩
        · rw [← Except.error.inj h]
          exact unforeseen_of_load_eq_error hsounds hload (by simpa using hreport)
        · have hsame := hload.symm.trans (load_eq_error_of_unforeseen draws h)
          rw [Except.error.inj hsame]
        · cases h

/-- A chart file with a byte that no UTF-8 text has ends the game. -/
theorem stray_byte_ends_the_game :
    let host : Host := { files := .ofSheet ⟨#[255]⟩, speakers := fun _ => none }
    let menu : Menu := { songs := { parts := ["songs"] }, levels := [], selected := 0,
                         message := none }
    (∀ file cause, host.speakers file = some cause → cause.Regular) ∧
      (enter host .sole menu (Draws.cycle #[])).result = .error .encoding := by
  intro host menu
  have hsounds : ∀ file cause, host.speakers file = some cause → cause.Regular := nofun
  obtain ⟨hfaults, -⟩ :=
    enter_returns_unless_unforeseen host .sole menu (Draws.cycle #[]) hsounds
  refine ⟨hsounds, (hfaults .encoding).mpr ?_⟩
  exact .encoding (Files.readFile_ofSheet _) (by decide +kernel)

/-- A chart whose tempo has 401 digits ends the game, although its text
    is well-formed and all its sounds can be made. -/
theorem huge_tempo_ends_the_game :
    ¬ ∀ (host : Host) (level : Level) (menu : Menu) (draws : Draws Float),
      (∀ file cause, host.speakers file = some cause → cause.Regular) →
        ∃ next, (enter host level menu draws).result = .ok next := by
  intro hall
  let source := "#bpm 1".toList ++ List.replicate 400 '0' ++ " #offset 0".toList
  let tempo : Token Float := .timeOffset ⟨none, Nat.pow 10 400, none⟩
  let host : Host :=
    { files := .ofSheet (String.ofList source).toUTF8, speakers := fun _ => none }
  let menu : Menu := { songs := { parts := ["songs"] }, levels := [], selected := 0,
                       message := none }
  obtain ⟨next, hnext⟩ := hall host .sole menu (Draws.cycle #[]) nofun
  have htext : Chart.decode (String.ofList source).toUTF8 = .ok source :=
    Chart.decode_toUTF8 (by decide +kernel)
  have htokens : Token.ofText source
      = .ok [.tempoMarker, tempo, .offsetMarker, .timeOffset ⟨none, 0, none⟩] :=
    eq_ok_of_toOption (by decide +kernel)
  have hmarker : Place.tempoMarker.Accepts .tempoMarker :=
    Place.accepts_of_fits (by decide) rfl trivial
  -- 10^400 is an integer of the notation, but no double
  have hlarge : Blames .tempo tempo (.number .intTooLarge) :=
    .tooLarge ⟨.bare (Nat.pow 10 400), rfl⟩ fun h => absurd h.2.1 (by decide +kernel)
  have hunforeseen : Unforeseen host.files .sole (.chart (.number .intTooLarge)) :=
    .size (Files.readFile_ofSheet _) htext htokens (.later hmarker (.here hlarge))
  have hload := load_eq_error_of_unforeseen (Draws.cycle #[]) hunforeseen
  rw [enter_of_load_eq_error menu hload, report?_of_unforeseen hunforeseen] at hnext
  exact nomatch hnext

end Session

end BeatShield
