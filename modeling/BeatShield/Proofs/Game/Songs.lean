import BeatShield.Proofs.Journal
import BeatShield.SoundBank

/-! # Songs — what is heard of a journal

    Of all that a journal holds, only two entries change which songs are
    playing: playing one and stopping one.

      * `Entry.songsAfter` follows these through a list of entries, and
        `Entry.songsPlaying` from silence.
      * `Entry.Allowed` is what is asked of each entry where it stands: no
        song is played, and no sound is loaded, while a song is playing.
        As nothing is playing when a level's sounds are made, a file names
        one sound for as long as that sound can be heard.
      * `Playback` joins both: entries that are allowed one after the
        other lead from some songs to others.
      * `Activity.Plays` is the triple of an activity for it.  All that
        was written is allowed, also when a fault stops the activity. -/

namespace BeatShield

/-- Whether a file is a song: neither of the effects that levels share. -/
def SoundBank.isSong (file : String) : Bool := file != kickFile && file != deathFile

namespace Entry

/-- The songs that are playing after an entry.  A song that is played
    twice is playing twice, and stops as a whole. -/
def hear (playing : List String) : Entry → List String
  | .sound (.play file) => if SoundBank.isSong file then file :: playing else playing
  | .sound (.stop file) => playing.filter (· != file)
  | _ => playing

/-- The songs that are playing after several entries. -/
def songsAfter (playing : List String) (entries : List Entry) : List String :=
  entries.foldl hear playing

/-- The songs that are playing after all that a journal holds. -/
def songsPlaying (entries : List Entry) : List String := songsAfter [] entries

/-- Whether an entry may be written while some songs are playing. -/
def Allowed (playing : List String) : Entry → Prop
  | .sound (.play file) => SoundBank.isSong file = true → playing = []
  | .sound (.load _) => playing = []
  | _ => True

/-- Whether an entry is allowed and changes nothing. -/
def Idle (playing : List String) (entry : Entry) : Prop :=
  entry.Allowed playing ∧ hear playing entry = playing

/-- Whether an entry neither plays nor stops a sound. -/
def isQuiet : Entry → Bool
  | .sound (.play _) => false
  | .sound (.stop _) => false
  | _ => true

/-- Sound acts that are written are read off again. -/
theorem soundActs_sounds (acts : List SoundAct) : soundActs (acts.map .sound) = acts :=
  List.filterMap_map.trans List.filterMap_some

theorem idle_log (playing : List String) (notice : Notice) : Idle playing (.log notice) :=
  ⟨trivial, rfl⟩

/-- An effect that is played is no song. -/
theorem idle_play {file : String} (h : SoundBank.isSong file = false) (playing : List String) :
    Idle playing (.sound (.play file)) := by
  constructor
  · intro hsong
    rw [h] at hsong
    exact nomatch hsong
  · simp [hear, h]

/-- In silence quiet entries change nothing. -/
theorem idle_of_isQuiet {entry : Entry} (h : entry.isQuiet = true) : Idle [] entry := by
  cases entry with
  | sound act =>
      cases act with
      | load file => exact ⟨rfl, rfl⟩
      | play file => exact nomatch h
      | stop file => exact nomatch h
  | _ => exact ⟨trivial, rfl⟩

end Entry

open Entry

/-! ## Entries in a row -/

/-- Entries that are allowed one after the other, and the songs that are
    playing before and after them. -/
inductive Playback : List String → List Entry → List String → Prop where
  | nil (playing : List String) : Playback playing [] playing
  | cons {playing after : List String} {entry : Entry} {rest : List Entry} :
      entry.Allowed playing → Playback (hear playing entry) rest after →
      Playback playing (entry :: rest) after

namespace Playback

variable {playing between after : List String} {first second entries : List Entry}

/-- A playback tells which songs are playing after it. -/
theorem songsAfter_eq (h : Playback playing entries after) :
    songsAfter playing entries = after := by
  induction h with
  | nil playing => rfl
  | cons _ _ ih => exact ih

/-- Every entry is allowed where it stands. -/
theorem allowed (h : Playback playing entries after) (before : List Entry) (entry : Entry)
    (rest : List Entry) (hsplit : entries = before ++ entry :: rest) :
    entry.Allowed (songsAfter playing before) := by
  induction h generalizing before with
  | nil playing => exact absurd hsplit.symm (List.append_ne_nil_of_right_ne_nil before (nofun))
  | cons hallowed _ ih =>
      cases before with
      | nil =>
          obtain ⟨rfl, -⟩ := List.cons.inj hsplit
          exact hallowed
      | cons first before =>
          obtain ⟨rfl, hrest⟩ := List.cons.inj hsplit
          exact ih before hrest

/-- Playbacks that meet can be put together. -/
theorem append (hfirst : Playback playing first between)
    (hsecond : Playback between second after) : Playback playing (first ++ second) after := by
  induction hfirst with
  | nil playing => exact hsecond
  | cons hallowed _ ih => exact .cons hallowed (ih hsecond)

theorem single {entry : Entry} (h : entry.Allowed playing) :
    Playback playing [entry] (hear playing entry) := .cons h (.nil _)

/-- Entries that change nothing are a playback in place. -/
theorem of_idle (h : ∀ entry ∈ entries, Idle playing entry) :
    Playback playing entries playing := by
  induction entries with
  | nil => exact .nil playing
  | cons entry rest ih =>
      obtain ⟨hallowed, hsame⟩ := h entry List.mem_cons_self
      refine .cons hallowed ?_
      rw [hsame]
      exact ih fun e he => h e (List.mem_cons_of_mem entry he)

end Playback

/-! ## Activities -/

/-- Starting with some songs, everything that an activity writes is
    allowed, and if it succeeds its result and the songs that are playing
    then are as stated. -/
def Activity.Plays {α : Type} (playing : List String) (x : Activity α)
    (post : α → List String → Prop) : Prop :=
  ∃ after, Playback playing x.entries after ∧ ∀ a, x.result = .ok a → post a after

namespace Activity.Plays

variable {α β : Type} {playing : List String} {x : Activity α} {f : α → Activity β}
  {post between : α → List String → Prop} {goal : β → List String → Prop}

/-- A triple may promise less. -/
theorem weaken (h : Plays playing x between) (hpost : ∀ a after, between a after → post a after) :
    Plays playing x post := by
  obtain ⟨after, hplayback, hbetween⟩ := h
  exact ⟨after, hplayback, fun a ha => hpost a after (hbetween a ha)⟩

/-- The rule for sequences: the second part starts with the songs that the
    first leaves. -/
theorem bind (hx : Plays playing x between)
    (hf : ∀ a after, between a after → Plays after (f a) goal) :
    Plays playing (x >>= f) goal := by
  obtain ⟨after, hplayback, hbetween⟩ := hx
  cases h : x.result with
  | error e =>
      rw [Journal.bind_of_error h]
      exact ⟨after, hplayback, fun a ha => nomatch ha⟩
  | ok a =>
      rw [Journal.bind_of_ok h]
      obtain ⟨last, hsecond, hgoal⟩ := hf a after (hbetween a h)
      exact ⟨last, hplayback.append hsecond, hgoal⟩

theorem pure {a : α} (h : post a playing) : Plays playing (Pure.pure a) post := by
  refine ⟨playing, .nil playing, ?_⟩
  intro a' ha
  obtain rfl : a = a' := Except.ok.inj ha
  exact h

theorem fail (fault : Fault) : Plays playing (Journal.fail fault) post :=
  ⟨playing, .nil playing, fun _ ha => nomatch ha⟩

theorem ofExcept (r : Except Fault α) :
    Plays playing (Journal.ofExcept r) fun a after => r = .ok a ∧ after = playing :=
  ⟨playing, .nil playing, fun _ ha => ⟨ha, rfl⟩⟩

theorem write {entry : Entry} (h : entry.Allowed playing) :
    Plays playing (Journal.write entry) fun _ after => after = hear playing entry :=
  ⟨hear playing entry, .single h, fun _ _ => rfl⟩

theorem writeAll {entries : List Entry} {after : List String}
    (h : Playback playing entries after) :
    Plays playing (Journal.writeAll entries) fun _ last => last = after :=
  ⟨after, h, fun _ _ => rfl⟩

/-- In silence quiet entries change nothing. -/
theorem of_isQuiet (h : Journal.Only (·.isQuiet = true) x) :
    Plays [] x fun a after => x.result = .ok a ∧ after = [] :=
  ⟨[], .of_idle fun entry hmem => idle_of_isQuiet (h entry hmem), fun _ ha => ⟨ha, rfl⟩⟩

end Activity.Plays

end BeatShield
