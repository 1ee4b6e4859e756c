import BeatShield.Number.Scalar

/-! # Checked — when a computation that may be refused succeeds or fails

    Readers and conversions return `Except`.  Each lemma here says of one
    way of combining them when the whole succeeds and with what, or when
    it fails and why, so that a reader is opened step by step without
    unfolding the monad. -/

namespace BeatShield.Checked

variable {ε ε' α β : Type}

/-- A sequence succeeds exactly when its parts do, one after the other. -/
theorem bind_eq_ok {x : Except ε α} {f : α → Except ε β} {b : β} :
    (x >>= f) = .ok b ↔ ∃ a, x = .ok a ∧ f a = .ok b := by
  cases x with
  | error e =>
      constructor
      · intro h; exact nomatch h
      · rintro ⟨a, ha, -⟩; exact nomatch ha
  | ok a =>
      constructor
      · intro h; exact ⟨a, rfl, h⟩
      · rintro ⟨a', ha, hf⟩
        cases ha
        exact hf

/-- A result that is only rewrapped. -/
theorem map_eq_ok {x : Except ε α} {f : α → β} {b : β} :
    x.map f = .ok b ↔ ∃ a, x = .ok a ∧ f a = b := by
  cases x with
  | error e =>
      constructor
      · intro h; exact nomatch h
      · rintro ⟨a, ha, -⟩; exact nomatch ha
  | ok a =>
      constructor
      · intro h; exact ⟨a, rfl, Except.ok.inj h⟩
      · rintro ⟨a', ha, hf⟩
        cases ha
        exact congrArg Except.ok hf

/-- A sequence fails where its first part does, or else its second. -/
theorem bind_eq_error {x : Except ε α} {f : α → Except ε β} {e : ε} :
    (x >>= f) = .error e ↔ x = .error e ∨ ∃ a, x = .ok a ∧ f a = .error e := by
  cases x with
  | error e' =>
      constructor
      · intro h; exact .inl (congrArg Except.error (Except.error.inj h))
      · rintro (h | ⟨a, ha, -⟩)
        · exact congrArg Except.error (Except.error.inj h)
        · exact nomatch ha
  | ok a =>
      constructor
      · intro h; exact .inr ⟨a, rfl, h⟩
      · rintro (h | ⟨a', ha, hf⟩)
        · exact nomatch h
        · cases ha
          exact hf

/-- Another name for an error changes no success. -/
theorem mapError_eq_ok {x : Except ε α} {f : ε → ε'} {a : α} :
    x.mapError f = .ok a ↔ x = .ok a := by
  cases x with
  | error e => constructor <;> intro h <;> exact nomatch h
  | ok a' =>
      constructor
      · intro h; exact congrArg Except.ok (Except.ok.inj h)
      · intro h; exact congrArg Except.ok (Except.ok.inj h)

/-- Renaming errors keeps which values are refused. -/
theorem mapError_eq_error {x : Except ε α} {f : ε → ε'} {e' : ε'} :
    x.mapError f = .error e' ↔ ∃ e, x = .error e ∧ f e = e' := by
  cases x with
  | error e =>
      constructor
      · intro h; exact ⟨e, rfl, Except.error.inj h⟩
      · rintro ⟨e₁, he, hf⟩
        cases he
        exact congrArg Except.error hf
  | ok a =>
      constructor
      · intro h; exact nomatch h
      · rintro ⟨e, he, -⟩; exact nomatch he

/-- A value that is there has not been refused. -/
theorem eq_ok_of_toOption {x : Except ε α} {a : α} (h : x.toOption = some a) : x = .ok a := by
  cases x with
  | error e => exact nomatch h
  | ok a' => exact congrArg Except.ok (Option.some.inj h)

/-- What is not refused succeeds. -/
theorem exists_eq_ok_iff {x : Except ε α} : (∃ a, x = .ok a) ↔ ∀ e, x ≠ .error e := by
  cases x with
  | error e =>
      constructor
      · rintro ⟨a, ha⟩; exact nomatch ha
      · intro h; exact absurd rfl (h e)
  | ok a =>
      constructor
      · intro _ e h; exact nomatch h
      · intro _; exact ⟨a, rfl⟩

/-- A list is refused for the first of its members that is. -/
theorem mapM_eq_error {f : α → Except ε β} {list : List α} {e : ε} :
    list.mapM f = .error e ↔ ∃ before a later, list = before ++ a :: later ∧
      (∀ x ∈ before, ∃ b, f x = .ok b) ∧ f a = .error e := by
  induction list with
  | nil =>
      constructor
      · intro h; exact nomatch h
      · rintro ⟨before, a, later, hsplit, -⟩
        exact absurd hsplit.symm (List.append_ne_nil_of_right_ne_nil before (nofun))
  | cons x rest ih =>
      -- either the first element is refused, or the first of the others that
      -- is
      rw [List.mapM_cons, bind_eq_error]
      constructor
      · rintro (hx | ⟨b, hb, hrest⟩)
        · exact ⟨[], x, rest, rfl, nofun, hx⟩
        · rcases bind_eq_error.mp hrest with hrest | ⟨_, -, hrest⟩
          · obtain ⟨before, a, later, rfl, hbefore, ha⟩ := ih.mp hrest
            exact ⟨x :: before, a, later, rfl, List.forall_mem_cons.mpr ⟨⟨b, hb⟩, hbefore⟩, ha⟩
          · exact nomatch hrest
      · rintro ⟨before, a, later, hsplit, hbefore, ha⟩
        cases before with
        | nil =>
            obtain ⟨rfl, -⟩ := List.cons.inj hsplit
            exact .inl ha
        | cons first before =>
            obtain ⟨rfl, hrest⟩ := List.cons.inj hsplit
            obtain ⟨⟨b, hb⟩, hothers⟩ := List.forall_mem_cons.mp hbefore
            have herror := ih.mpr ⟨before, a, later, hrest, hothers, ha⟩
            exact .inr ⟨b, hb, bind_eq_error.mpr (.inl herror)⟩

/-- A list is accepted if all its members are. -/
theorem exists_mapM_eq_ok {f : α → Except ε β} {list : List α}
    (h : ∀ a ∈ list, ∃ b, f a = .ok b) : ∃ results, list.mapM f = .ok results := by
  refine exists_eq_ok_iff.mpr fun e herror => ?_
  obtain ⟨before, a, later, rfl, -, ha⟩ := mapM_eq_error.mp herror
  obtain ⟨b, hb⟩ := h a (List.mem_append_right before List.mem_cons_self)
  rw [hb] at ha
  exact nomatch ha

/-- What a list gives comes from its members. -/
theorem exists_of_mem_mapM {f : α → Except ε β} {list : List α} {results : List β}
    (h : list.mapM f = .ok results) {b : β} (hb : b ∈ results) : ∃ a ∈ list, f a = .ok b := by
  induction list generalizing results with
  | nil =>
      cases h
      exact nomatch hb
  | cons x rest ih =>
      rw [List.mapM_cons] at h
      obtain ⟨first, hfirst, h1⟩ := bind_eq_ok.mp h
      obtain ⟨others, hothers, h2⟩ := bind_eq_ok.mp h1
      cases h2
      rcases List.mem_cons.mp hb with rfl | hb
      · exact ⟨x, List.mem_cons_self, hfirst⟩
      · obtain ⟨a, ha, hfa⟩ := ih hothers hb
        exact ⟨a, List.mem_cons_of_mem x ha, hfa⟩

end BeatShield.Checked
