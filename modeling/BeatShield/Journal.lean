/-! # Journal — results together with what was done on the way

    A `Journal` is the outcome of an activity: the entries it wrote, in
    order, and its result, unless an error stopped it.  Entries written
    before an error stay. -/

namespace BeatShield

/-- Entries of type `ω`, and a result of type `α` or an error of type `ε`. -/
structure Journal (ω ε α : Type) where
  entries : List ω
  result : Except ε α

namespace Journal

variable {ω ε α β : Type}

/-- A result without entries. -/
def done (a : α) : Journal ω ε α := ⟨[], .ok a⟩

/-- One activity and then, if it succeeds, another. -/
def andThen (x : Journal ω ε α) (f : α → Journal ω ε β) : Journal ω ε β :=
  match x.result with
  | .ok a => ⟨x.entries ++ (f a).entries, (f a).result⟩
  | .error e => ⟨x.entries, .error e⟩

instance : Monad (Journal ω ε) where
  pure := done
  bind := andThen

/-- One entry. -/
def write (entry : ω) : Journal ω ε Unit := ⟨[entry], .ok ()⟩

/-- Several entries. -/
def writeAll (entries : List ω) : Journal ω ε Unit := ⟨entries, .ok ()⟩

/-- A result or an error, without entries. -/
def ofExcept (r : Except ε α) : Journal ω ε α := ⟨[], r⟩

/-- An error, without entries. -/
def fail (e : ε) : Journal ω ε α := ⟨[], .error e⟩

/-- The same activity, with its result or error handed on as a value. -/
def attempt {ε' : Type} (x : Journal ω ε α) : Journal ω ε' (Except ε α) :=
  ⟨x.entries, .ok x.result⟩

/-- Changes the kind of entries. -/
def mapEntries {ω' : Type} (f : ω → ω') (x : Journal ω ε α) : Journal ω' ε α :=
  ⟨x.entries.map f, x.result⟩

end Journal

end BeatShield
