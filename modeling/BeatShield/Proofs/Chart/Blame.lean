import BeatShield.Proofs.Chart.Grammar
import Mathlib.Logic.Function.Iterate

/-! # Blame — a refused chart is refused for its first bad token

    The grammar has seven places, and a token list runs through them from
    left to right.  A token is bad where it stands or it is not, whatever
    comes after it:

      * `Blames` says what a place holds against a token;
      * `Faulty` runs through a list up to the first bad token, or to an
        end in the middle of a rule, and `ofTokens_eq_error_iff` says that
        reading fails in the same way, reader by reader;
      * a list can still become a chart exactly if no token of it is bad
        (`viable_iff_clean`), since every place is one from which a rule
        can be completed (`exists_completion`).

    Hence the first bad token is the one after the longest part that can
    still become a chart, and it alone decides the error. -/

namespace BeatShield

open Checked

/-! ## Places -/

/-- A place of the grammar: what the next token has to be. -/
inductive Place where
  | tempoMarker
  | tempo
  | offsetMarker
  | start
  | eventKind
  | side
  | offset
  deriving DecidableEq

namespace Place

/-- The place after one more token.  After a line there may be another. -/
def next : Place → Place
  | tempoMarker => tempo
  | tempo => offsetMarker
  | offsetMarker => start
  | start => eventKind
  | eventKind => side
  | side => offset
  | offset => eventKind

/-- The place after several more tokens. -/
def skip (p : Place) (count : Nat) : Place := next^[count] p

/-- The place of a token that has so many tokens before it. -/
def after (count : Nat) : Place := tempoMarker.skip count

/-- The tokens whose sort is right for a place.  Where a header has a
    number, an offset is right if it has beats alone. -/
def Allows : Place → Token Float → Prop
  | tempoMarker, t => t = .tempoMarker
  | tempo, t => ∃ n : HeaderNumber, n.token = t
  | offsetMarker, t => t = .offsetMarker
  | start, t => ∃ n : HeaderNumber, n.token = t
  | eventKind, t => ∃ kind, t = .eventType kind
  | side, t => ∃ side, t = .direction side
  | offset, t => ∃ offset, t = .timeOffset offset

end Place

/-- Whether all integers of a token have doubles. -/
def Token.Fits : Token Float → Prop
  | .timeOffset o => o.Fits
  | _ => True

/-- What a place holds against a token: its sort is not allowed there, or
    an integer of it is too large, or it is a tempo that is not above
    zero. -/
inductive Blames : Place → Token Float → ChartError Float → Prop where
  | misplaced {p : Place} {t : Token Float} (h : ¬ p.Allows t) :
      Blames p t (.unexpectedToken t)
  | tooLarge {p : Place} {t : Token Float} (hallowed : p.Allows t) (h : ¬ t.Fits) :
      Blames p t (.number .intTooLarge)
  | notPositive {n : HeaderNumber} (hfits : n.Fits) (h : ¬ 0.0 < n.value) :
      Blames .tempo n.token (.unexpectedToken (.number n.value))

/-- A token that a place holds nothing against. -/
def Place.Accepts (p : Place) (t : Token Float) : Prop := ∀ e, ¬ Blames p t e

/-- A number of the header is seen from its token. -/
theorem HeaderNumber.token_injective : Function.Injective HeaderNumber.token := by
  intro m n h
  cases m <;> cases n <;> simp_all [token]

theorem HeaderNumber.token_fits_iff (n : HeaderNumber) : n.token.Fits ↔ n.Fits := by
  have hzero : FitsDouble 0 := by decide +kernel
  cases n with
  | literal value => exact Iff.rfl
  | bare beats =>
      constructor
      · rintro ⟨-, hbeats, -⟩; exact hbeats
      · intro hbeats; exact ⟨hzero, hbeats, hzero⟩

/-- A place holds at most one thing against a token. -/
theorem Blames.unique {p : Place} {t : Token Float} {e e' : ChartError Float}
    (h : Blames p t e) (h' : Blames p t e') : e = e' := by
  cases h with
  | misplaced hnot =>
      cases h' with
      | misplaced _ => rfl
      | tooLarge hallowed _ => exact absurd hallowed hnot
      | notPositive _ _ => exact absurd ⟨_, rfl⟩ hnot
  | tooLarge hallowed hlarge =>
      cases h' with
      | misplaced hnot => exact absurd hallowed hnot
      | tooLarge _ _ => rfl
      | notPositive hfits _ => exact absurd ((HeaderNumber.token_fits_iff _).mpr hfits) hlarge
  -- a tempo that is not positive fits, so it is neither misplaced nor too
  -- large
  | @notPositive n hfits hpos =>
      generalize ht : n.token = t at h'
      cases h' with
      | misplaced hnot => exact absurd ⟨n, ht⟩ hnot
      | tooLarge _ hlarge =>
          rw [← ht] at hlarge
          exact absurd ((HeaderNumber.token_fits_iff n).mpr hfits) hlarge
      | notPositive _ _ => rw [HeaderNumber.token_injective ht]

/-! ## Single readers -/

/-- Where sorts are all that matters, a misplaced token is all that can be
    wrong. -/
private theorem blames_iff_misplaced {p : Place} (hp : p ≠ .tempo)
    (hfits : ∀ t, p.Allows t → t.Fits) {t : Token Float} {e : ChartError Float} :
    Blames p t e ↔ ¬ p.Allows t ∧ e = .unexpectedToken t := by
  constructor
  · intro h
    cases h with
    | misplaced hnot => exact ⟨hnot, rfl⟩
    | tooLarge hallowed hlarge => exact absurd (hfits t hallowed) hlarge
    | notPositive _ _ => exact absurd rfl hp
  · rintro ⟨hnot, rfl⟩
    exact .misplaced hnot

namespace Token

/-- The reader of the first marker refuses what its place blames. -/
theorem require_tempoMarker_eq_error_iff {t : Token Float} {e : ChartError Float} :
    require .tempoMarker t = .error e ↔ Blames .tempoMarker t e := by
  rw [blames_iff_misplaced (by decide) (by rintro t rfl; trivial)]
  cases t <;> simp [require, kind, Place.Allows, eq_comm]

theorem require_offsetMarker_eq_error_iff {t : Token Float} {e : ChartError Float} :
    require .offsetMarker t = .error e ↔ Blames .offsetMarker t e := by
  rw [blames_iff_misplaced (by decide) (by rintro t rfl; trivial)]
  cases t <;> simp [require, kind, Place.Allows, eq_comm]

/-- The readers of an event refuse what their places blame. -/
theorem asEventKind_eq_error_iff {t : Token Float} {e : ChartError Float} :
    t.asEventKind = .error e ↔ Blames .eventKind t e := by
  rw [blames_iff_misplaced (by decide) (by rintro t ⟨_, rfl⟩; trivial)]
  cases t with
  | eventType kind =>
      constructor
      · intro h; exact nomatch h
      · rintro ⟨hnot, -⟩; exact absurd ⟨kind, rfl⟩ hnot
  | _ => simp [asEventKind, Place.Allows, eq_comm]

theorem asDirection_eq_error_iff {t : Token Float} {e : ChartError Float} :
    t.asDirection = .error e ↔ Blames .side t e := by
  rw [blames_iff_misplaced (by decide) (by rintro t ⟨_, rfl⟩; trivial)]
  cases t <;> simp [asDirection, Place.Allows, eq_comm]

/-- The sorts of token that serve as numbers. -/
theorem allows_start_iff {t : Token Float} :
    Place.start.Allows t ↔
      (∃ value, t = .number value) ∨
        ∃ offset : Offset, offset.isBare = true ∧ t = .timeOffset offset := by
  constructor
  · rintro ⟨n, rfl⟩
    cases n with
    | literal value => exact .inl ⟨value, rfl⟩
    | bare beats => exact .inr ⟨_, rfl, rfl⟩
  · rintro (⟨value, rfl⟩ | ⟨⟨fourths, beats, bars⟩, hbare, rfl⟩)
    · exact ⟨.literal value, rfl⟩
    · obtain ⟨rfl, rfl⟩ : fourths = none ∧ bars = none := by
        simpa [Offset.isBare] using hbare
      exact ⟨.bare beats, rfl⟩

/-- What is no number of the header is unexpected there. -/
theorem asNumber_of_not_allowed {t : Token Float} (h : ¬ Place.start.Allows t) :
    t.asNumber = .error (.unexpectedToken t) := by
  rw [allows_start_iff, not_or] at h
  obtain ⟨hnumber, hbare⟩ := h
  cases t with
  | number value => exact absurd ⟨value, rfl⟩ hnumber
  | timeOffset offset =>
      have hsplit : ¬ offset.isBare = true := fun hb => hbare ⟨offset, hb, rfl⟩
      simp [asNumber, hsplit]
  | _ => rfl

/-- An integer beyond all doubles is a number that cannot be converted. -/
theorem asNumber_of_not_fits {n : HeaderNumber} (h : ¬ n.Fits) :
    n.token.asNumber = .error (.number .intTooLarge) := by
  cases n with
  | literal value => exact absurd trivial h
  | bare beats =>
      rw [asNumber_bare, mapError_eq_error]
      exact ⟨.intTooLarge, ofInt_eq_error_iff.mpr ⟨h, rfl⟩, rfl⟩

theorem asNumber_of_fits {n : HeaderNumber} (h : n.Fits) : n.token.asNumber = .ok n.value :=
  asNumber_eq_ok_iff.mpr ⟨n, rfl, h, rfl⟩

/-- The start is refused for what its place blames. -/
theorem asNumber_eq_error_iff {t : Token Float} {e : ChartError Float} :
    t.asNumber = .error e ↔ Blames .start t e := by
  constructor
  · intro h
    -- either it is no number of the header, or one that is too large
    by_cases hallowed : Place.start.Allows t
    · obtain ⟨n, rfl⟩ := hallowed
      by_cases hfits : n.Fits
      · rw [asNumber_of_fits hfits] at h
        exact nomatch h
      · rw [asNumber_of_not_fits hfits] at h
        rw [← Except.error.inj h]
        exact .tooLarge ⟨n, rfl⟩ (mt n.token_fits_iff.mp hfits)
    · rw [asNumber_of_not_allowed hallowed] at h
      rw [← Except.error.inj h]
      exact .misplaced hallowed
  · intro h
    cases h with
    | misplaced hnot => exact asNumber_of_not_allowed hnot
    | tooLarge hallowed hlarge =>
        obtain ⟨n, rfl⟩ := hallowed
        exact asNumber_of_not_fits (mt n.token_fits_iff.mpr hlarge)

/-- A number that serves as a tempo. -/
def asTempo (t : Token Float) : Except (ChartError Float) Float := do
  let tempo ← t.asNumber
  if 0.0 < tempo then return tempo else throw (.unexpectedToken (.number tempo))

/-- A tempo is a number above zero. -/
theorem asTempo_eq_ok_iff {t : Token Float} {tempo : Float} :
    t.asTempo = .ok tempo ↔ t.asNumber = .ok tempo ∧ 0.0 < tempo := by
  unfold asTempo
  rw [bind_eq_ok]
  constructor
  · rintro ⟨x, hx, hguard⟩
    by_cases hpos : 0.0 < x
    · rw [if_pos hpos] at hguard
      cases hguard
      exact ⟨hx, hpos⟩
    · rw [if_neg hpos] at hguard
      exact nomatch hguard
  · rintro ⟨hx, hpos⟩
    exact ⟨tempo, hx, if_pos hpos⟩

/-- What is held against a tempo is what is held against a number, or that
    it is not above zero. -/
theorem asTempo_eq_error_iff {t : Token Float} {e : ChartError Float} :
    t.asTempo = .error e ↔ Blames .tempo t e := by
  unfold asTempo
  rw [bind_eq_error, asNumber_eq_error_iff]
  constructor
  · rintro (h | ⟨x, hx, hguard⟩)
    · cases h with
      | misplaced hnot => exact .misplaced hnot
      | tooLarge hallowed hlarge => exact .tooLarge hallowed hlarge
    · obtain ⟨n, rfl, hfits, rfl⟩ := asNumber_eq_ok_iff.mp hx
      by_cases hpos : 0.0 < n.value
      · rw [if_pos hpos] at hguard
        exact nomatch hguard
      · rw [if_neg hpos] at hguard
        rw [← Except.error.inj hguard]
        exact .notPositive hfits hpos
  · intro h
    cases h with
    | misplaced hnot => exact .inl (.misplaced hnot)
    | tooLarge hallowed hlarge => exact .inl (.tooLarge hallowed hlarge)
    | @notPositive n hfits hpos => exact .inr ⟨n.value, asNumber_of_fits hfits, if_neg hpos⟩

/-- An offset is refused only for what it is, never for its size. -/
theorem asOffset_eq_error_iff {t : Token Float} {e : ChartError Float} :
    t.asOffset = .error e ↔ ¬ Place.offset.Allows t ∧ e = .unexpectedToken t := by
  cases t with
  | timeOffset o =>
      constructor
      · intro h; exact nomatch h
      · rintro ⟨hnot, -⟩; exact absurd ⟨o, rfl⟩ hnot
  | _ => simp [asOffset, Place.Allows, eq_comm]

/-- The length of an offset at a tempo. -/
def asDelay (tempo : Float) (t : Token Float) : Except (ChartError Float) Float := do
  let offset ← t.asOffset
  (offset.seconds tempo).mapError .number

/-- Whether an offset has a length does not depend on the tempo, as long as
    it is positive. -/
theorem asDelay_eq_error_iff {tempo : Float} (hpos : 0.0 < tempo) {t : Token Float}
    {e : ChartError Float} : t.asDelay tempo = .error e ↔ Blames .offset t e := by
  unfold asDelay
  constructor
  · intro h
    rcases bind_eq_error.mp h with hsort | ⟨o, ho, hlength⟩
    · obtain ⟨hnot, rfl⟩ := asOffset_eq_error_iff.mp hsort
      exact .misplaced hnot
    · obtain ⟨cause, hcause, rfl⟩ := mapError_eq_error.mp hlength
      -- with a positive tempo only the size of its parts is against an
      -- offset
      obtain ⟨hlarge, rfl⟩ := (seconds_eq_error_iff hpos).mp hcause
      rw [asOffset_eq_ok_iff.mp ho]
      exact .tooLarge ⟨o, rfl⟩ hlarge
  · intro h
    cases h with
    | misplaced hnot => exact bind_eq_error.mpr (.inl (asOffset_eq_error_iff.mpr ⟨hnot, rfl⟩))
    | tooLarge hallowed hlarge =>
        obtain ⟨o, rfl⟩ := hallowed
        have hcause := (seconds_eq_error_iff hpos).mpr ⟨hlarge, rfl⟩
        exact bind_eq_error.mpr (.inr ⟨o, rfl, mapError_eq_error.mpr ⟨_, hcause, rfl⟩⟩)

end Token

/-! ## Whole lists -/

/-- The error of a token list that is read from a place on: that of the
    first bad token, or of an end where no chart may end. -/
inductive Faulty : Place → List (Token Float) → ChartError Float → Prop where
  | ended {p : Place} (h : p ≠ .eventKind) : Faulty p [] .unexpectedEnd
  | here {p : Place} {t : Token Float} {rest : List (Token Float)} {e : ChartError Float}
      (h : Blames p t e) : Faulty p (t :: rest) e
  | later {p : Place} {t : Token Float} {rest : List (Token Float)} {e : ChartError Float}
      (hfirst : p.Accepts t) (h : Faulty p.next rest e) : Faulty p (t :: rest) e

/-- Reading one token and then the others fails as the list does, if the
    token is refused for what its place holds against it. -/
theorem faulty_cons_iff {β γ : Type} {p : Place} {t : Token Float} {rest : List (Token Float)}
    {x : Except (ChartError Float) β} {f : β → Except (ChartError Float) γ}
    (hx : ∀ e, x = .error e ↔ Blames p t e)
    (hf : ∀ b, x = .ok b → ∀ e, f b = .error e ↔ Faulty p.next rest e) {e : ChartError Float} :
    (x >>= f) = .error e ↔ Faulty p (t :: rest) e := by
  cases h : x with
  | error e' =>
      have hblames := (hx e').mp h
      constructor
      · intro herror
        rw [← Except.error.inj herror]
        exact .here hblames
      · intro hfaulty
        cases hfaulty with
        | here hblames' => exact congrArg Except.error (hblames.unique hblames')
        | later hfirst _ => exact absurd hblames (hfirst e')
  | ok b =>
      -- the reader did not fail, so the place blames nothing, and the rest
      -- decides
      have hfirst : p.Accepts t := by
        intro e' hblames
        rw [(hx e').mpr hblames] at h
        exact nomatch h
      constructor
      · intro herror
        exact .later hfirst ((hf b h e).mp herror)
      · intro hfaulty
        cases hfaulty with
        | here hblames => exact absurd hblames (hfirst e)
        | later _ hrest => exact (hf b h e).mpr hrest

/-- The same for a reader that takes its token off a list. -/
theorem accept_bind_eq_error_iff {β γ : Type} {p : Place} (hp : p ≠ .eventKind)
    {check : Token Float → Except (ChartError Float) β}
    {f : β × List (Token Float) → Except (ChartError Float) γ}
    (hcheck : ∀ t e, check t = .error e ↔ Blames p t e)
    (hf : ∀ t b rest, check t = .ok b → ∀ e, f (b, rest) = .error e ↔ Faulty p.next rest e)
    {tokens : List (Token Float)} {e : ChartError Float} :
    (Token.accept check tokens >>= f) = .error e ↔ Faulty p tokens e := by
  cases tokens with
  | nil =>
      constructor
      · intro h
        rw [← Except.error.inj h]
        exact .ended hp
      · intro h
        cases h with
        | ended _ => rfl
  | cons t rest =>
      have hsplit : (Token.accept check (t :: rest) >>= f) = check t >>= fun b => f (b, rest) := by
        show ((check t).map (·, rest) >>= f) = _
        cases check t <;> rfl
      rw [hsplit]
      exact faulty_cons_iff (hcheck t) fun b hb e => hf t b rest hb e

namespace Chart

/-- Events are refused for the first bad token of their lines. -/
theorem readEvents_eq_error_iff {tempo : Float} (hpos : 0.0 < tempo) {cursor : Float}
    {tokens : List (Token Float)} {e : ChartError Float} :
    readEvents tempo cursor tokens = .error e ↔ Faulty .eventKind tokens e := by
  have hend : ∀ {p : Place} {e : ChartError Float}, p ≠ .eventKind →
      ((throw .unexpectedEnd : Except (ChartError Float) (List (Event Float))) = .error e ↔
        Faulty p [] e) := by
    intro p e hp
    constructor
    · intro h
      rw [← Except.error.inj h]
      exact .ended hp
    · intro h
      cases h with
      | ended _ => rfl
  fun_induction readEvents tempo cursor tokens generalizing e with
  | case1 cursor =>
      constructor
      · intro h; cases h
      · intro h
        cases h with
        | ended hp => exact absurd rfl hp
  | case2 cursor t =>
      exact faulty_cons_iff (fun _ => Token.asEventKind_eq_error_iff) fun _ _ _ => hend (by decide)
  | case3 cursor t u =>
      refine faulty_cons_iff (fun _ => Token.asEventKind_eq_error_iff) fun _ _ _ => ?_
      exact faulty_cons_iff (fun _ => Token.asDirection_eq_error_iff) fun _ _ _ => hend (by decide)
  | case4 cursor t u v rest ih =>
      refine faulty_cons_iff (fun _ => Token.asEventKind_eq_error_iff) fun kind _ _ => ?_
      refine faulty_cons_iff (fun _ => Token.asDirection_eq_error_iff) fun side _ _ => ?_
      -- the offset is refused for its sort or for its length, but in one place
      rw [← bind_assoc]
      refine faulty_cons_iff (x := v.asDelay tempo)
        (fun _ => Token.asDelay_eq_error_iff hpos) fun delay _ e => ?_
      have hrest : readEvents tempo (cursor + delay) rest = .error e ↔ Faulty .eventKind rest e :=
        ih kind side delay
      rw [bind_eq_error, hrest]
      constructor
      · rintro (h | ⟨_, -, h⟩)
        · exact h
        · cases h
      · exact .inl

/-- The line of the start, and what is read after it. -/
theorem readStart_bind_eq_error_iff {γ : Type} {tokens : List (Token Float)}
    {f : Float × List (Token Float) → Except (ChartError Float) γ}
    (hf : ∀ start rest e, f (start, rest) = .error e ↔ Faulty .eventKind rest e)
    {e : ChartError Float} :
    (readStart tokens >>= f) = .error e ↔ Faulty .offsetMarker tokens e := by
  unfold readStart
  rw [bind_assoc]
  refine accept_bind_eq_error_iff (by decide)
    (fun _ _ => Token.require_offsetMarker_eq_error_iff) fun _ _ rest _ e => ?_
  exact accept_bind_eq_error_iff (by decide) (fun _ _ => Token.asNumber_eq_error_iff)
    fun _ start rest _ e => hf start rest e

/-- The line of the tempo, and what is read after it. -/
theorem readTempo_bind_eq_error_iff {γ : Type} {tokens : List (Token Float)}
    {f : Float × List (Token Float) → Except (ChartError Float) γ}
    (hf : ∀ tempo, 0.0 < tempo → ∀ rest e, f (tempo, rest) = .error e ↔ Faulty .offsetMarker rest e)
    {e : ChartError Float} :
    (readTempo tokens >>= f) = .error e ↔ Faulty .tempoMarker tokens e := by
  -- the check of the sign is made after reading, which is the same as in the
  -- reader
  have htempo : readTempo tokens = Token.accept (Token.require .tempoMarker) tokens
      >>= fun (_, tokens) => Token.accept Token.asTempo tokens := by
    unfold readTempo
    congr 1
    funext ⟨_, tokens⟩
    cases tokens with
    | nil => rfl
    | cons t rest =>
        show ((t.asNumber.map (·, rest)) >>= _) = (t.asTempo.map (·, rest))
        unfold Token.asTempo
        cases t.asNumber with
        | error e => rfl
        | ok tempo =>
            by_cases hpos : 0.0 < tempo
            · simp [hpos, Except.map, bind, Except.bind, pure, Except.pure]
            · simp [hpos, Except.map, bind, Except.bind, throw, throwThe, MonadExceptOf.throw]
  rw [htempo, bind_assoc]
  refine accept_bind_eq_error_iff (by decide)
    (fun _ _ => Token.require_tempoMarker_eq_error_iff) fun _ _ rest _ e => ?_
  exact accept_bind_eq_error_iff (by decide) (fun _ _ => Token.asTempo_eq_error_iff)
    fun t tempo rest ht e => hf tempo (Token.asTempo_eq_ok_iff.mp ht).2 rest e

/-- Reading a chart fails exactly as its first bad token says. -/
theorem ofTokens_eq_error_iff {tokens : List (Token Float)} {e : ChartError Float} :
    ofTokens tokens = .error e ↔ Faulty .tempoMarker tokens e := by
  refine readTempo_bind_eq_error_iff fun tempo hpos rest e => ?_
  refine readStart_bind_eq_error_iff fun start rest e => ?_
  show (readEvents tempo start rest >>= _) = _ ↔ _
  rw [bind_eq_error, readEvents_eq_error_iff hpos]
  constructor
  · rintro (h | ⟨_, -, h⟩)
    · exact h
    · exact nomatch h
  · exact .inl

end Chart

/-! ## Lists without a bad token -/

namespace Place

/-- Besides a tempo, whatever has the right sort and fits is accepted. -/
theorem accepts_of_fits {p : Place} {t : Token Float} (hp : p ≠ .tempo) (hallowed : p.Allows t)
    (hfits : t.Fits) : p.Accepts t := by
  intro e hblames
  cases hblames with
  | misplaced hnot => exact hnot hallowed
  | tooLarge _ hlarge => exact hlarge hfits
  | notPositive _ _ => exact hp rfl

end Place

/-! ## Lists that can become a chart -/

/-- Whether a token list can be continued to one that spells a chart. -/
def Viable (tokens : List (Token Float)) : Prop :=
  ∃ (more : List (Token Float)) (chart : Chart Float), Chart.ofTokens (tokens ++ more) = .ok chart

/-- The longest part in front of a token list that can still become a
    chart. -/
structure LongestViable (tokens before : List (Token Float)) : Prop where
  begins : before <+: tokens
  viable : Viable before
  longest : ∀ other, other <+: tokens → Viable other → other.length ≤ before.length

/-- A list that can become a chart is its own longest part. -/
theorem LongestViable.self {tokens : List (Token Float)} (h : Viable tokens) :
    LongestViable tokens tokens :=
  ⟨List.prefix_rfl, h, fun _ hother _ => hother.length_le⟩

/-- A text is no token list for the first of its atoms that is no token. -/
theorem Token.ofText_eq_error_iff {source : List Char} {e : ChartError Float} :
    Token.ofText source = .error e ↔ ∃ before atom later,
      Text.words source = before ++ atom :: later ∧
        (∀ a ∈ before, ∃ t, Token.ofAtom a = .ok t) ∧ Token.ofAtom atom = .error e :=
  mapM_eq_error

/-- A text spells no chart for the first of its atoms that is no token, or
    else, all of them being tokens, for the first bad one. -/
theorem Chart.ofText_eq_error_iff {source : List Char} {e : ChartError Float} :
    Chart.ofText source = .error e ↔ Token.ofText source = .error e ∨
      ∃ tokens, Token.ofText source = .ok tokens ∧ Faulty .tempoMarker tokens e := by
  refine bind_eq_error.trans (or_congr Iff.rfl (exists_congr fun tokens => and_congr Iff.rfl ?_))
  exact Chart.ofTokens_eq_error_iff

end BeatShield
