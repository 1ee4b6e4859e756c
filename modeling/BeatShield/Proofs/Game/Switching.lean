import BeatShield.Level
import BeatShield.Proofs.Game.Songs
import BeatShield.Proofs.Run.Request

/-! # Switching — what commands do to a level's song

    A level's song is on or off, and the commands of its run switch it.
    Blocks leave it as it is, a death switches it off and a restart
    switches it off and on again.  So after every frame it is on exactly
    if the run is not dying, provided that it was so before
    (`frame_switches`): this is the only fact about frames that the game
    needs.

    The song of a level is never one of the two effects, since its path
    ends in the name that all songs have (`isSong_song`). -/

namespace BeatShield

open Entry

namespace Level

/-- The files of a level's sounds. -/
def sounds (level : Level) : SoundBank :=
  { song := level.songPath.text, kick := SoundBank.kickFile, death := SoundBank.deathFile }

/-- The songs that are playing when the level's song is on, or off. -/
def heard (level : Level) (on : Bool) : List String :=
  if on then [level.sounds.song] else []

/-- Whether commands may be carried out while the song is on (or off) and
    leave it on (or off). -/
def Switches {α : Type} (level : Level) (commands : List (Command α)) (on after : Bool) : Prop :=
  Playback (level.heard on) ((level.sounds.acts commands).map .sound) (level.heard after)

end Level

/-! ## Files -/

/-- The text of a path ends with its last name. -/
theorem Path.text_child_append (p : Path) (name : String) :
    ∃ front, (p.child name).text = front ++ name := by
  have hparts : ¬ ((p.child name).anchor = .here ∧ (p.child name).parts = []) :=
    fun h => absurd h.2 (List.append_ne_nil_of_right_ne_nil p.parts (List.cons_ne_nil name []))
  simp only [text, if_neg hparts]
  show ∃ front, anchorText p.anchor ++ "/".intercalate (p.parts ++ [name]) = front ++ name
  by_cases hp : p.parts = []
  · exact ⟨anchorText p.anchor, by rw [hp, List.nil_append, String.intercalate_singleton]⟩
  · refine ⟨anchorText p.anchor ++ ("/".intercalate p.parts ++ "/"), ?_⟩
    rw [String.intercalate_append_of_ne_nil hp (List.cons_ne_nil name []),
      String.intercalate_singleton]
    simp only [String.append_assoc]

/-- A level's song is no file whose name ends otherwise. -/
theorem Level.song_ne {file : String} (level : Level)
    (h : ¬ (songFile.toList <:+ file.toList)) : level.sounds.song ≠ file := by
  obtain ⟨front, hfront⟩ := level.folder.text_child_append songFile
  rintro rfl
  apply h
  show songFile.toList <:+ (level.folder.child songFile).text.toList
  rw [hfront, String.toList_append]
  exact List.suffix_append front.toList songFile.toList

/-- So it is neither of the effects. -/
theorem Level.isSong_song (level : Level) : SoundBank.isSong level.sounds.song = true := by
  have hkick : level.sounds.song ≠ SoundBank.kickFile := level.song_ne (by decide)
  have hdeath : level.sounds.song ≠ SoundBank.deathFile := level.song_ne (by decide)
  simp [SoundBank.isSong, hkick, hdeath]

/-! ## Commands -/

/-- Whether a command has nothing to do with the song. -/
def Command.isEffect {α : Type} : Command α → Bool
  | .play .kick => true
  | .play .death => true
  | .explode _ => true
  | _ => false

namespace Level

variable {α : Type} {level : Level} {first second commands : List (Command α)}
  {on between after : Bool}

/-- Commands that switch the song one after the other switch it in one. -/
theorem Switches.append (hfirst : level.Switches first on between)
    (hsecond : level.Switches second between after) :
    level.Switches (first ++ second) on after := by
  simp only [Switches, SoundBank.acts, List.filterMap_append, List.map_append]
  exact Playback.append hfirst hsecond

/-- Effects leave the song as it is. -/
theorem switches_of_isEffect (on : Bool) (h : ∀ c ∈ commands, c.isEffect = true) :
    level.Switches commands on on := by
  refine Playback.of_idle fun entry hmem => ?_
  obtain ⟨act, hact, rfl⟩ := List.mem_map.mp hmem
  obtain ⟨command, hcommand, hact⟩ := List.mem_filterMap.mp hact
  have heffect := h command hcommand
  -- only the two effects are left: neither counts as a song
  cases command with
  | play sound =>
      cases sound with
      | song => exact nomatch heffect
      | kick =>
          obtain rfl := Option.some.inj hact
          exact idle_play (show SoundBank.isSong SoundBank.kickFile = false by decide) _
      | death =>
          obtain rfl := Option.some.inj hact
          exact idle_play (show SoundBank.isSong SoundBank.deathFile = false by decide) _
  | stop sound => exact nomatch heffect
  | explode burst => exact nomatch hact

theorem switches_start (level : Level) : level.Switches (Run.start (α := α)) false true := by
  have hhear : level.heard true = hear [] (.sound (.play level.sounds.song)) :=
    (if_pos level.isSong_song).symm
  show Playback [] [.sound (.play level.sounds.song)] (level.heard true)
  rw [hhear]
  exact .single fun _ => rfl

/-- Stopping turns it off, whether or not it was on. -/
theorem switches_stop (level : Level) (on : Bool) :
    level.Switches (Run.stop (α := α)) on false := by
  have hhear : level.heard false = hear (level.heard on) (.sound (.stop level.sounds.song)) := by
    cases on <;> simp [heard, hear]
  show Playback (level.heard on) [.sound (.stop level.sounds.song)] (level.heard false)
  rw [hhear]
  exact .single trivial

end Level

/-! ## Frames -/

namespace Run

variable {α : Type} [Scalar α] [Trig α] (level : Level)

/-- Blocks command nothing but effects. -/
theorem isEffect_of_mem_volleys {run : Run α} {tempo : α} {events : List (Event α)}
    {command : Command α} (h : command ∈ run.volleys tempo events) : command.isEffect = true := by
  rcases eq_of_mem_volleys h with rfl | ⟨burst, rfl⟩
  · rfl
  · rfl

theorem volleys_switches (tempo : α) (run : Run α) (events : List (Event α)) (on : Bool) :
    level.Switches (run.volleys tempo events) on on :=
  Level.switches_of_isEffect on fun _ => isEffect_of_mem_volleys

/-- Judging the projectiles turns the song off exactly if the run ends. -/
theorem settle_switches (tempo : α) {run : Run α} (halive : run.isDying = false)
    (events : List (Event α)) :
    level.Switches (settle tempo run events).commands true
      (!(settle tempo run events).run.isDying) := by
  rcases calm_or_first_hit tempo run events with hcalm | ⟨before, event, after, rfl, hno, hhit⟩
  · rw [settle_calm tempo run events (.inr hcalm)]
    show level.Switches (run.volleys tempo events) true (!run.isDying)
    rw [halive]
    exact volleys_switches level tempo run events true
  · rw [settle_first_hit tempo run before event after halive hno hhit]
    -- the song stops in the middle, and all that follows is an effect
    have hrest : level.Switches (.play .death :: run.volleys tempo after) false false := by
      refine Level.switches_of_isEffect false fun command hmem => ?_
      rcases List.mem_cons.mp hmem with rfl | hmem
      · rfl
      · exact isEffect_of_mem_volleys hmem
    exact (volleys_switches level tempo run before true).append
      ((level.switches_stop true).append hrest)

/-- So does a frame in which nothing restarts. -/
theorem advance_switches (run : Run α) (tempo dt : α) (sides : List Direction) :
    level.Switches (run.advance tempo dt sides).commands (!run.isDying)
      (!(run.advance tempo dt sides).run.isDying) := by
  -- a dying run commands nothing any more; a live one is judged
  cases h : run.isDying with
  | true =>
      obtain ⟨death, hdeath⟩ := Option.isSome_iff_exists.mp h
      rw [advance_of_dying hdeath]
      exact .nil _
  | false =>
      rw [advance_of_alive h]
      have hjudging : (run.judging dt sides).isDying = false := h
      exact settle_switches level tempo hjudging run.live

/-- A song that is on exactly while the run is alive still is after a
    frame, whatever happened in it. -/
theorem frame_switches (run : Run α) (chart : Chart α) (dt : α) (presses : Presses) :
    level.Switches (run.frame chart dt presses).commands (!run.isDying)
      (!(run.frame chart dt presses).run.isDying) := by
  have hadvance := advance_switches level run chart.tempo dt presses.sides
  cases hr : presses.restart with
  | false =>
      rw [frame_of_not_restart run chart dt hr]
      exact hadvance
  | true =>
      rw [frame_of_restart run chart dt hr]
      -- a restart comes last: it stops the song, on or off, and starts it
      exact hadvance.append ((level.switches_stop _).append level.switches_start)

end Run

end BeatShield
