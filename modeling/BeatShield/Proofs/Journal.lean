import BeatShield.Journal

/-! # What journals hold

    One activity after another writes its entries behind those of the
    first.  From this follow the laws of the monad, that nothing written
    is ever taken back (`isPrefix_bind`), and two sets of rules:

      * `Journal.Succeeds` says that an activity comes to its end.
      * `Journal.Only` says that an activity writes entries of one kind
        alone.  It is proved activity by activity along their `do` blocks,
        without looking at results: whatever is written is written by some
        step, and every step is covered, also when a later one fails. -/

namespace BeatShield.Journal

variable {ω ε α β : Type}

/-! ## One activity after another -/

/-- One activity after another, when the first succeeds. -/
theorem bind_of_ok {x : Journal ω ε α} {a : α} (h : x.result = .ok a)
    (f : α → Journal ω ε β) :
    (x >>= f) = ⟨x.entries ++ (f a).entries, (f a).result⟩ := by
  show andThen x f = _
  simp only [andThen, h]

/-- After an activity that fails nothing more happens. -/
theorem bind_of_error {x : Journal ω ε α} {e : ε} (h : x.result = .error e)
    (f : α → Journal ω ε β) : (x >>= f) = ⟨x.entries, .error e⟩ := by
  show andThen x f = _
  simp only [andThen, h]

/-- Two activities succeed exactly if both do. -/
theorem bind_result_eq_ok {x : Journal ω ε α} {f : α → Journal ω ε β} {b : β} :
    (x >>= f).result = .ok b ↔ ∃ a, x.result = .ok a ∧ (f a).result = .ok b := by
  cases hx : x.result with
  | error e =>
      rw [bind_of_error hx]
      constructor
      · intro h; exact nomatch h
      · rintro ⟨a, ha, -⟩; exact nomatch ha
  | ok a =>
      rw [bind_of_ok hx]
      constructor
      · intro h; exact ⟨a, rfl, h⟩
      · rintro ⟨a', ha, hf⟩
        cases ha
        exact hf

/-- They fail with the first fault of either. -/
theorem bind_result_eq_error {x : Journal ω ε α} {f : α → Journal ω ε β} {e : ε} :
    (x >>= f).result = .error e ↔
      x.result = .error e ∨ ∃ a, x.result = .ok a ∧ (f a).result = .error e := by
  cases hx : x.result with
  | error e' =>
      rw [bind_of_error hx]
      constructor
      · intro h; exact .inl (congrArg Except.error (Except.error.inj h))
      · rintro (h | ⟨a, ha, -⟩)
        · exact congrArg Except.error (Except.error.inj h)
        · exact nomatch ha
  | ok a =>
      rw [bind_of_ok hx]
      constructor
      · intro h; exact .inr ⟨a, rfl, h⟩
      · rintro (h | ⟨a', ha, hf⟩)
        · exact nomatch h
        · cases ha
          exact hf

/-- What has been written stays, whatever comes next. -/
theorem isPrefix_bind (x : Journal ω ε α) (f : α → Journal ω ε β) :
    x.entries <+: (x >>= f).entries := by
  cases h : x.result with
  | error e => exact ⟨[], by rw [bind_of_error h, List.append_nil]⟩
  | ok a => exact ⟨(f a).entries, by rw [bind_of_ok h]⟩

theorem bind_pure_self (x : Journal ω ε α) : (x >>= pure) = x := by
  obtain ⟨entries, result⟩ := x
  cases result with
  | error e => rfl
  | ok a =>
      rw [bind_of_ok rfl]
      show (⟨entries ++ [], .ok a⟩ : Journal ω ε α) = ⟨entries, .ok a⟩
      rw [List.append_nil]

/-- It does not matter how a sequence of activities is grouped. -/
theorem bind_bind {γ : Type} (x : Journal ω ε α) (f : α → Journal ω ε β)
    (g : β → Journal ω ε γ) : (x >>= f) >>= g = x >>= fun a => f a >>= g := by
  cases hx : x.result with
  | error e => rw [bind_of_error hx, bind_of_error hx, bind_of_error rfl]
  | ok a =>
      rw [bind_of_ok hx, bind_of_ok hx]
      -- the middle part may fail too, and then the last is not reached in
      -- either grouping
      cases hf : (f a).result with
      | error e => rw [bind_of_error rfl, bind_of_error hf]
      | ok b => rw [bind_of_ok rfl, bind_of_ok hf, List.append_assoc]

instance : LawfulMonad (Journal ω ε) :=
  LawfulMonad.mk' _ bind_pure_self (fun _ _ => rfl) bind_bind

/-- Entries can be renamed part by part. -/
theorem mapEntries_bind {ω' : Type} (g : ω → ω') (x : Journal ω ε α)
    (f : α → Journal ω ε β) :
    (x >>= f).mapEntries g = x.mapEntries g >>= fun a => (f a).mapEntries g := by
  obtain ⟨entries, result⟩ := x
  cases result with
  | error e => rfl
  | ok a =>
      show (⟨(entries ++ (f a).entries).map g, (f a).result⟩ : Journal ω' ε β)
        = ⟨entries.map g ++ (f a).entries.map g, (f a).result⟩
      rw [List.map_append]

/-! ## Success -/

/-- Whether an activity comes to its end. -/
def Succeeds (x : Journal ω ε α) : Prop := ∃ a, x.result = .ok a

/-- A sequence comes to its end exactly if its parts do. -/
theorem succeeds_bind {x : Journal ω ε α} {f : α → Journal ω ε β} :
    (x >>= f).Succeeds ↔ ∃ a, x.result = .ok a ∧ (f a).Succeeds := by
  constructor
  · rintro ⟨b, h⟩
    obtain ⟨a, ha, hb⟩ := bind_result_eq_ok.mp h
    exact ⟨a, ha, b, hb⟩
  · rintro ⟨a, ha, b, hb⟩
    exact ⟨b, bind_result_eq_ok.mpr ⟨a, ha, hb⟩⟩

/-- An activity that succeeds only writes before the next. -/
theorem then_of_succeeds {x : Journal ω ε Unit} (hx : x.Succeeds) (y : Journal ω ε α) :
    (x >>= fun _ => y) = ⟨x.entries ++ y.entries, y.result⟩ := by
  obtain ⟨a, ha⟩ := hx
  exact bind_of_ok ha fun _ => y

/-- After a first activity that succeeds, it depends on the second. -/
theorem succeeds_then {x : Journal ω ε Unit} {y : Journal ω ε α} (hx : x.Succeeds) :
    (x >>= fun _ => y).Succeeds ↔ y.Succeeds := by
  rw [then_of_succeeds hx]
  rfl

theorem succeeds_write (entry : ω) : (write entry : Journal ω ε Unit).Succeeds := ⟨(), rfl⟩

/-- A list of activities comes to its end if each of them does. -/
theorem Succeeds.forM {list : List α} {f : α → Journal ω ε Unit}
    (h : ∀ a ∈ list, (f a).Succeeds) : (list.forM f).Succeeds := by
  induction list with
  | nil => exact ⟨(), rfl⟩
  | cons a list ih =>
      obtain ⟨hfirst, hlater⟩ := List.forall_mem_cons.mp h
      exact (succeeds_then hfirst).mpr (ih hlater)

/-- What stops a list of activities has stopped one of them. -/
theorem exists_of_forM_result_eq_error {list : List α} {f : α → Journal ω ε Unit} {e : ε}
    (h : (list.forM f).result = .error e) : ∃ a ∈ list, (f a).result = .error e := by
  induction list with
  | nil => exact nomatch h
  | cons a list ih =>
      rcases bind_result_eq_error.mp h with hfirst | ⟨_, -, hlater⟩
      · exact ⟨a, List.mem_cons_self, hfirst⟩
      · obtain ⟨b, hb, herror⟩ := ih hlater
        exact ⟨b, List.mem_cons_of_mem a hb, herror⟩

/-! ## Entries of one kind -/

/-- An activity all of whose entries are of one kind. -/
def Only (p : ω → Prop) (x : Journal ω ε α) : Prop := ∀ entry ∈ x.entries, p entry

variable {p : ω → Prop}

/-- The rule for sequences: the second part may not depend on how the first
    ends. -/
theorem Only.bind {x : Journal ω ε α} {f : α → Journal ω ε β} (hx : Only p x)
    (hf : ∀ a, Only p (f a)) : Only p (x >>= f) := by
  intro entry hmem
  cases h : x.result with
  | error e =>
      rw [bind_of_error h] at hmem
      exact hx entry hmem
  | ok a =>
      rw [bind_of_ok h] at hmem
      rcases List.mem_append.mp hmem with hfirst | hsecond
      · exact hx entry hfirst
      · exact hf a entry hsecond

/-- A result alone writes nothing. -/
theorem only_pure (a : α) : Only p (pure a : Journal ω ε α) :=
  fun entry hmem => nomatch (show entry ∈ ([] : List ω) from hmem)

theorem only_ofExcept (r : Except ε α) : Only p (ofExcept r : Journal ω ε α) :=
  fun entry hmem => nomatch (show entry ∈ ([] : List ω) from hmem)

theorem only_fail (e : ε) : Only p (fail e : Journal ω ε α) :=
  fun entry hmem => nomatch (show entry ∈ ([] : List ω) from hmem)

/-- One entry is of the kind that it is of. -/
theorem only_write {entry : ω} (h : p entry) : Only p (write entry : Journal ω ε Unit) := by
  intro entry' hmem
  rw [List.mem_singleton.mp hmem]
  exact h

/-- The rule for lists of activities. -/
theorem Only.forM {list : List α} {f : α → Journal ω ε Unit}
    (h : ∀ a ∈ list, Only p (f a)) : Only p (list.forM f) := by
  induction list with
  | nil => exact only_pure ()
  | cons a list ih =>
      obtain ⟨hfirst, hlater⟩ := List.forall_mem_cons.mp h
      exact hfirst.bind fun _ => ih hlater

end BeatShield.Journal
