import BeatShield.Proofs.FileTree.Places

/-! # Reordered — the order in which folders list their entries

    No order is promised for the entries of a folder.  Trees that differ in
    nothing but this order are `Reordered`, and every path leads to the same
    in both of them, up to the order again: the names of a folder are
    distinct, and so a name leads to one entry wherever that is listed.

      * `lookup_rel` — one name in one folder.
      * `walk_agree` — a list of names, by induction on it;
        `Files.find_agree` — a path.
      * `reordered_of_perm` — the entries of a folder may be listed in any
        order. -/

namespace BeatShield

namespace FileTree

/-- Trees that differ in the order of entries alone.  A folder has the same
    distinct names in both, and under each name there are such trees
    again. -/
inductive Reordered : FileTree → FileTree → Prop where
  | file (content : ByteArray) : Reordered (.file content) (.file content)
  | folder {es es' : List (String × FileTree)} (hdistinct : (es.map Prod.fst).Nodup)
      (hnames : (es.map Prod.fst).Perm (es'.map Prod.fst))
      (hinner : ∀ name one other, (name, one) ∈ es → (name, other) ∈ es' →
        Reordered one other) : Reordered (.folder es) (.folder es')

/-- Whoever looks up a name finds nothing in both folders or such trees. -/
theorem lookup_rel {es es' : List (String × FileTree)} (h : Reordered (.folder es) (.folder es'))
    (name : String) : Option.Rel Reordered (es.lookup name) (es'.lookup name) := by
  cases h with
  | folder hdistinct hnames hinner =>
      have hdistinct' : (es'.map Prod.fst).Nodup := hnames.nodup_iff.mp hdistinct
      cases hone : es.lookup name with
      | none =>
          have hother : es'.lookup name = none := by
            rw [lookup_eq_none_iff_not_mem, ← hnames.mem_iff]
            exact lookup_eq_none_iff_not_mem.mp hone
          rw [hother]
          exact .none
      | some one =>
          cases hother : es'.lookup name with
          | none =>
              -- the names are the same, so the name would be in neither
              rw [lookup_eq_none_iff_not_mem, ← hnames.mem_iff] at hother
              exact absurd (lookup_eq_none_iff_not_mem.mpr hother) (by rw [hone]; nofun)
          | some other =>
              exact .some (hinner name one other ((lookup_eq_some_iff_mem hdistinct).mp hone)
                ((lookup_eq_some_iff_mem hdistinct').mp hother))

/-! ## Paths -/

/-- Two searches that fail alike, or find trees that differ in the order of
    entries alone. -/
inductive Agree : Except FileFault FileTree → Except FileFault FileTree → Prop where
  | refused (fault : FileFault) : Agree (.error fault) (.error fault)
  | found {one other : FileTree} (h : Reordered one other) : Agree (.ok one) (.ok other)

/-- Walks agree if the folders around them do. -/
theorem walk_agree (names : List String) {around around' : List FileTree} {tree tree' : FileTree}
    (haround : List.Forall₂ Reordered around around') (h : Reordered tree tree') :
    Agree (walk around tree names) (walk around' tree' names) := by
  -- double dots lead back, so the folders around are related as well
  induction names generalizing around around' tree tree' with
  | nil => simpa only [walk] using Agree.found h
  | cons name rest ih =>
      cases h with
      | file content => exact .refused .notFolder
      | @folder es es' hdistinct hnames hinner =>
          have hfolder : Reordered (.folder es) (.folder es') := .folder hdistinct hnames hinner
          by_cases hup : name = ".."
          · subst hup
            rw [walk_up, walk_up]
            cases haround with
            | nil => exact ih .nil hfolder
            | cons houter hothers => exact ih hothers houter
          · rw [walk.eq_def, walk.eq_def around']
            simp only [if_neg hup]
            by_cases hlong : nameLimit < name.utf8ByteSize
            · simp only [if_pos hlong]
              exact .refused .nameTooLong
            · simp only [if_neg hlong]
              have hrel := lookup_rel hfolder name
              generalize es.lookup name = one, es'.lookup name = other at hrel ⊢
              cases hrel with
              | none => exact .refused .notFound
              | some hinner => exact ih (.cons hfolder haround) hinner

/-! ## Reorderings -/

/-- With distinct names the entries of a folder may be listed in any
    order. -/
theorem reordered_of_perm {es es' : List (String × FileTree)} (hdistinct : (es.map Prod.fst).Nodup)
    (hperm : es.Perm es') (hinner : ∀ e ∈ es, Reordered e.2 e.2) :
    Reordered (.folder es) (.folder es') := by
  refine .folder hdistinct (hperm.map _) fun name one other hone hother => ?_
  -- both are found under the name, so they are one entry
  have hsame : some one = some other := by
    rw [← (lookup_eq_some_iff_mem hdistinct).mpr hone,
      ← (lookup_eq_some_iff_mem hdistinct).mpr (hperm.mem_iff.mpr hother)]
  obtain rfl := Option.some.inj hsame
  exact hinner _ hone

/-- A proper tree is a reordering of itself. -/
theorem Proper.reordered {tree : FileTree} (h : Proper tree) : Reordered tree tree := by
  induction h with
  | file content => exact .file content
  | folder _ hdistinct _ ih => exact reordered_of_perm hdistinct (.refl _) ih

end FileTree

/-! ## Files -/

namespace Files

/-- Files that differ in the order of entries alone, seen from the same
    current folder. -/
structure Reordered (files other : Files) : Prop where
  root : FileTree.Reordered files.root other.root
  current : files.current = other.current

/-- A path leads to the same, up to the order of entries. -/
theorem find_agree {files other : Files} (h : files.Reordered other) (path : Path) :
    FileTree.Agree (files.find path) (other.find path) := by
  have hnames : files.names path = other.names path := by
    unfold names
    rw [h.current]
  unfold find
  rw [hnames]
  split
  · exact .refused .nulCharacter
  · split
    · exact .refused .nameTooLong
    · exact FileTree.walk_agree (other.names path) .nil h.root

end Files

end BeatShield
