import BeatShield.FileTree.Basic
import Mathlib.Data.List.Basic

/-! # Places — where a path leads

    A place is the list of names that lead from the root to it, one folder
    after the other, and without double dots.  A path leads from place to
    place: a name goes into a folder, and a double dot out of it
    (`Leads`).  What a path leads to is what stands at the place where it
    ends (`Files.Holds`).

    `Files.find` keeps no places but the folders on the way, and says
    something about names and lengths besides.  Nevertheless it finds
    exactly what a path leads to:

      * `Trail` ties the folders on the way to the place that has been
        reached.
      * `walk_eq_ok_iff` — from any place on, by induction on the names.
      * `Files.find_eq_ok_iff` — for all paths that are short enough. -/

namespace BeatShield

namespace FileTree

/-! ## Proper trees -/

/-- Whether a file may have a name.  A name is one step of a path, and not
    one that stays or leads out. -/
def IsName (name : String) : Prop :=
  name ∉ ["", ".", ".."] ∧ '/' ∉ name.toList ∧ '\x00' ∉ name.toList ∧
    name.utf8ByteSize ≤ nameLimit

instance (name : String) : Decidable (IsName name) := inferInstanceAs (Decidable (_ ∧ _))

/-- A name does not lead out. -/
theorem IsName.ne_up {name : String} (h : IsName name) : name ≠ ".." := by
  rintro rfl
  exact absurd h (by decide)

/-- A tree as it can stand on a machine: the names of each folder are names
    of files, and distinct. -/
inductive Proper : FileTree → Prop where
  | file (content : ByteArray) : Proper (.file content)
  | folder {es : List (String × FileTree)} (hnames : ∀ e ∈ es, IsName e.1)
      (hdistinct : (es.map Prod.fst).Nodup) (hinner : ∀ e ∈ es, Proper e.2) :
      Proper (.folder es)

namespace Proper

variable {es : List (String × FileTree)}

/-- A folder lists no name twice. -/
theorem distinct (h : Proper (.folder es)) : (es.map Prod.fst).Nodup := by
  cases h with
  | folder _ hdistinct _ => exact hdistinct

/-- What a folder lists are names. -/
theorem isName (h : Proper (.folder es)) {e : String × FileTree} (he : e ∈ es) :
    IsName e.1 := by
  cases h with
  | folder hnames _ _ => exact hnames e he

/-- What stands in a folder is proper as well. -/
theorem inner (h : Proper (.folder es)) {e : String × FileTree} (he : e ∈ es) :
    Proper e.2 := by
  cases h with
  | folder _ _ hinner => exact hinner e he

end Proper

/-- With distinct names an entry is found by its name. -/
theorem lookup_eq_some_iff_mem {es : List (String × FileTree)} (h : (es.map Prod.fst).Nodup)
    {name : String} {inner : FileTree} :
    es.lookup name = some inner ↔ (name, inner) ∈ es := by
  induction es with
  | nil => exact ⟨nofun, nofun⟩
  | cons e rest ih =>
      obtain ⟨first, tree⟩ := e
      obtain ⟨hfirst, hrest⟩ := List.nodup_cons.mp h
      rw [List.lookup_cons, List.mem_cons]
      by_cases hname : name = first
      · subst hname
        -- the name is taken, so none of the others has it
        have hother : (name, inner) ∉ rest := fun hmem =>
          hfirst (List.mem_map.mpr ⟨_, hmem, rfl⟩)
        simp only [beq_self_eq_true, Option.some.injEq, Prod.mk.injEq, true_and, hother, or_false]
        exact eq_comm
      · simp only [beq_eq_false_iff_ne.mpr hname, ih hrest, Prod.mk.injEq, hname, false_and,
          false_or]

/-- A name is not found exactly if no entry has it. -/
theorem lookup_eq_none_iff_not_mem {es : List (String × FileTree)} {name : String} :
    es.lookup name = none ↔ name ∉ es.map Prod.fst := by
  rw [List.lookup_eq_none_iff]
  simp only [bne_iff_ne, List.mem_map, not_exists, not_and]
  exact forall₂_congr fun e _ => ne_comm

/-! ## Places -/

/-- What stands at a place, given by the names that lead to it. -/
inductive At : FileTree → List String → FileTree → Prop where
  | here (tree : FileTree) : At tree [] tree
  | inside {es : List (String × FileTree)} {name : String} {inner found : FileTree}
      {rest : List String} (hmem : (name, inner) ∈ es) (h : At inner rest found) :
      At (.folder es) (name :: rest) found

namespace At

variable {root middle found : FileTree} {place rest : List String}

/-- A place below another. -/
theorem append (h : At root place middle) (hrest : At middle rest found) :
    At root (place ++ rest) found := by
  induction h with
  | here tree => exact hrest
  | inside hmem _ ih => exact .inside hmem (ih hrest)

/-- What stands in a proper tree is proper. -/
theorem proper (h : At root place found) (hroot : Proper root) : Proper found := by
  induction h with
  | here tree => exact hroot
  | inside hmem _ ih => exact ih (hroot.inner hmem)

/-- In a proper tree one thing stands at a place. -/
theorem unique (h : At root place found) (hroot : Proper root) (hother : At root place middle) :
    found = middle := by
  induction h with
  | here tree =>
      cases hother
      rfl
  | @inside es name inner found rest hmem _ ih =>
      cases hother with
      | @inside _ _ other _ _ hmem' h' =>
          have hfirst := (lookup_eq_some_iff_mem hroot.distinct).mpr hmem
          have hsecond := (lookup_eq_some_iff_mem hroot.distinct).mpr hmem'
          rw [hfirst] at hsecond
          obtain rfl := Option.some.inj hsecond
          exact ih (hroot.inner hmem) h'

end At

/-- The place to which names lead from another.  Out of the root they lead
    to the root. -/
inductive Leads (root : FileTree) : List String → List String → List String → Prop where
  | here (place : List String) : Leads root place [] place
  | into {place rest target : List String} {es : List (String × FileTree)} {name : String}
      {inner : FileTree} (hfolder : At root place (.folder es)) (hname : name ≠ "..")
      (hmem : (name, inner) ∈ es) (h : Leads root (place ++ [name]) rest target) :
      Leads root place (name :: rest) target
  | out {place rest target : List String} {es : List (String × FileTree)}
      (hfolder : At root place (.folder es)) (h : Leads root place.dropLast rest target) :
      Leads root place (".." :: rest) target

/-- Names behind names lead on from where those lead. -/
theorem Leads.append {root : FileTree} {place names middle later target : List String}
    (h : Leads root place names middle) (hlater : Leads root middle later target) :
    Leads root place (names ++ later) target := by
  induction h with
  | here place => exact hlater
  | into hfolder hname hmem _ ih => exact .into hfolder hname hmem (ih hlater)
  | out hfolder _ ih => exact .out hfolder (ih hlater)

/-- Only names of files, and double dots, lead anywhere. -/
theorem Leads.isName {root : FileTree} (hroot : Proper root) {place names target : List String}
    (h : Leads root place names target) : ∀ name ∈ names, name = ".." ∨ IsName name := by
  induction h with
  | here place => exact nofun
  | into hfolder _ hmem _ ih =>
      exact List.forall_mem_cons.mpr ⟨.inr ((hfolder.proper hroot).isName hmem), ih⟩
  | out _ _ ih => exact List.forall_mem_cons.mpr ⟨.inl rfl, ih⟩

/-! ## Walks -/

/-- A double dot leads to the nearest of the folders around, or nowhere from
    the root. -/
theorem walk_up (around : List FileTree) (es : List (String × FileTree)) (rest : List String) :
    walk around (.folder es) (".." :: rest)
      = walk around.tail (around.headD (.folder es)) rest := by
  rw [walk.eq_def]
  cases around <;> rfl

/-- A name of an entry leads to it. -/
theorem walk_into {around : List FileTree} {es : List (String × FileTree)} {name : String}
    {inner : FileTree} (rest : List String) (hname : IsName name)
    (hlookup : es.lookup name = some inner) :
    walk around (.folder es) (name :: rest) = walk (.folder es :: around) inner rest := by
  rw [walk.eq_def]
  simp only [if_neg hname.ne_up, if_neg (Nat.not_lt.mpr hname.2.2.2), hlookup]

/-- Another name leads nowhere. -/
theorem walk_ne_ok {around : List FileTree} {es : List (String × FileTree)} {name : String}
    (rest : List String) (hup : name ≠ "..") (hlookup : es.lookup name = none)
    (found : FileTree) : walk around (.folder es) (name :: rest) ≠ .ok found := by
  rw [walk.eq_def]
  simp only [if_neg hup, hlookup]
  split <;> exact nofun

/-- The folders around a place, the nearest first, and what stands at it. -/
inductive Trail (root : FileTree) : List String → List FileTree → FileTree → Prop where
  | root : Trail root [] [] root
  | inside {place : List String} {around : List FileTree} {es : List (String × FileTree)}
      {name : String} {inner : FileTree} (h : Trail root place around (.folder es))
      (hmem : (name, inner) ∈ es) :
      Trail root (place ++ [name]) (.folder es :: around) inner

namespace Trail

variable {root tree : FileTree} {place : List String} {around : List FileTree}
  {es : List (String × FileTree)}

/-- The end of a trail stands at its place. -/
theorem at_place (h : Trail root place around tree) : At root place tree := by
  induction h with
  | root => exact .here root
  | inside _ hmem ih => exact ih.append (.inside hmem (.here _))

/-- A step back along a trail leads out of the folder at its end. -/
theorem up (h : Trail root place around tree) :
    Trail root place.dropLast around.tail (around.headD tree) := by
  cases h with
  | root => exact .root
  | inside h _ =>
      rw [List.dropLast_concat]
      exact h

/-- What a double dot leads to from the end of a trail. -/
theorem leads_up (h : Trail root place around (.folder es)) {rest target : List String} :
    Leads root place (".." :: rest) target ↔ Leads root place.dropLast rest target := by
  constructor
  · intro hleads
    cases hleads with
    | into _ hname _ _ => exact absurd rfl hname
    | out _ hrest => exact hrest
  · exact .out h.at_place

/-- What a name leads to from the end of a trail. -/
theorem leads_into (hroot : Proper root) (h : Trail root place around (.folder es))
    {name : String} (hname : name ≠ "..") {rest target : List String} :
    Leads root place (name :: rest) target ↔
      ∃ inner, (name, inner) ∈ es ∧ Leads root (place ++ [name]) rest target := by
  constructor
  · intro hleads
    cases hleads with
    | into hfolder _ hmem hrest =>
        obtain rfl := FileTree.folder.inj (h.at_place.unique hroot hfolder)
        exact ⟨_, hmem, hrest⟩
    | out _ _ => exact absurd rfl hname
  · rintro ⟨inner, hmem, hrest⟩
    exact .into h.at_place hname hmem hrest

end Trail

/-- A walk along names finds exactly what they lead to. -/
theorem walk_eq_ok_iff {root : FileTree} (hroot : Proper root) (names : List String)
    {place : List String} {around : List FileTree} {tree found : FileTree}
    (h : Trail root place around tree) :
    walk around tree names = .ok found ↔
      ∃ target, Leads root place names target ∧ At root target found := by
  -- the trail goes in and out with the walk, and so does the place
  induction names generalizing place around tree with
  | nil =>
      rw [walk.eq_def]
      constructor
      · intro hfound
        obtain rfl := Except.ok.inj hfound
        exact ⟨place, .here place, h.at_place⟩
      · rintro ⟨target, hleads, hfound⟩
        cases hleads
        exact congrArg Except.ok (h.at_place.unique hroot hfound)
  | cons name rest ih =>
      cases tree with
      | file content =>
          constructor
          · intro hfound
            cases hfound
          · -- names lead on from folders only
            rintro ⟨target, hleads, -⟩
            cases hleads with
            | into hfolder _ _ _ => exact nomatch h.at_place.unique hroot hfolder
            | out hfolder _ => exact nomatch h.at_place.unique hroot hfolder
      | folder es =>
          by_cases hup : name = ".."
          · subst hup
            rw [walk_up, ih h.up]
            simp only [h.leads_up]
          · have hproper : Proper (.folder es) := h.at_place.proper hroot
            simp only [h.leads_into hroot hup]
            cases hlookup : es.lookup name with
            | none =>
                have hnone : name ∉ es.map Prod.fst := lookup_eq_none_iff_not_mem.mp hlookup
                constructor
                · intro hfound
                  exact absurd hfound (walk_ne_ok rest hup hlookup found)
                · rintro ⟨target, ⟨inner, hmem, -⟩, -⟩
                  exact absurd (List.mem_map_of_mem hmem) hnone
            | some inner =>
                have hmem := (lookup_eq_some_iff_mem hproper.distinct).mp hlookup
                rw [walk_into rest (hproper.isName hmem) hlookup, ih (.inside h hmem)]
                refine exists_congr fun target => and_congr_left fun _ => ?_
                exact ⟨fun hleads => ⟨inner, hmem, hleads⟩, fun hleads => hleads.choose_spec.2⟩

end FileTree

/-! ## Paths -/

/-- A character that is in none of several names, and no slash, is not in
    their text with slashes between them. -/
theorem Path.not_mem_intercalate {c : Char} (hslash : c ≠ '/') {names : List String}
    (h : ∀ name ∈ names, c ∉ name.toList) : c ∉ ("/".intercalate names).toList := by
  induction names with
  | nil => exact List.not_mem_nil
  | cons name rest ih =>
      obtain ⟨hname, hrest⟩ := List.forall_mem_cons.mp h
      cases rest with
      | nil => rwa [String.intercalate_singleton]
      | cons next others =>
          have hbetween : c ∉ "/".toList := fun hc => hslash (List.mem_singleton.mp hc)
          rw [String.intercalate_cons_cons, String.toList_append, String.toList_append]
          simp only [List.mem_append, hname, hbetween, ih hrest, or_self, not_false_eq_true]

/-- A character that is in no name of a path, and neither a dot nor a
    slash, is not in its text. -/
theorem Path.not_mem_text {path : Path} {c : Char} (hdot : c ≠ '.') (hslash : c ≠ '/')
    (h : ∀ name ∈ path.parts, c ∉ name.toList) : c ∉ path.text.toList := by
  have hanchor : c ∉ (anchorText path.anchor).toList := by
    cases path.anchor <;> simp [anchorText, hslash]
  unfold text
  split
  · simpa using hdot
  · rw [String.toList_append, List.mem_append]
    exact not_or.mpr ⟨hanchor, not_mem_intercalate hslash h⟩

namespace Files

open FileTree

/-- What a path leads to: the names of the path, behind those of the current
    folder unless the path starts at the root. -/
def Holds (files : Files) (path : Path) (tree : FileTree) : Prop :=
  ∃ place, Leads files.root [] (files.names path) place ∧ At files.root place tree

variable {files : Files} {path : Path} {tree : FileTree}

/-- What paths lead to in a proper tree is proper. -/
theorem Holds.proper (h : files.Holds path tree) (hroot : Proper files.root) : Proper tree := by
  obtain ⟨place, -, hfound⟩ := h
  exact hfound.proper hroot

/-- A name behind a path is followed last. -/
theorem names_child (files : Files) (path : Path) (name : String) :
    files.names (path.child name) = files.names path ++ [name] := by
  unfold names Path.child
  cases path.anchor with
  | here => exact (List.append_assoc ..).symm
  | root | doubleRoot => rfl

/-- A name behind the path of a folder leads to the entry of that name. -/
theorem Holds.child {es : List (String × FileTree)} (h : files.Holds path (.folder es))
    {name : String} {inner : FileTree} (hname : name ≠ "..") (hmem : (name, inner) ∈ es) :
    files.Holds (path.child name) inner := by
  obtain ⟨place, hleads, hfolder⟩ := h
  refine ⟨place ++ [name], ?_, hfolder.append (.inside hmem (.here inner))⟩
  rw [names_child]
  exact hleads.append (.into hfolder hname hmem (.here _))

/-- A path with a NUL character leads nowhere. -/
theorem Holds.nul_not_mem (h : files.Holds path tree) (hroot : Proper files.root) :
    '\x00' ∉ path.text.toList := by
  obtain ⟨place, hleads, -⟩ := h
  refine Path.not_mem_text (by decide) (by decide) fun name hname => ?_
  have hmem : name ∈ files.names path := by
    unfold names
    cases path.anchor with
    | here => exact List.mem_append_right _ hname
    | root | doubleRoot => exact hname
  rcases hleads.isName hroot name hmem with rfl | hname
  · decide
  · exact hname.2.2.1

/-- So nothing is found there either, however long the path is. -/
theorem find_eq_ok_iff_of_nul (hroot : Proper files.root)
    (hnul : path.text.toList.contains '\x00' = true) :
    files.find path = .ok tree ↔ files.Holds path tree := by
  have hfind : files.find path = .error .nulCharacter := if_pos hnul
  rw [hfind]
  constructor
  · intro h
    cases h
  · intro h
    exact absurd (List.contains_iff_mem.mp hnul) (h.nul_not_mem hroot)

/-- A path that is short enough is found exactly if it leads somewhere. -/
theorem find_eq_ok_iff_of_fits (hroot : Proper files.root) (hfits : Fits path) :
    files.find path = .ok tree ↔ files.Holds path tree := by
  by_cases hnul : path.text.toList.contains '\x00' = true
  · exact find_eq_ok_iff_of_nul hroot hnul
  · have hfind : files.find path = walk [] files.root (files.names path) := by
      rw [find, if_neg hnul, if_neg (not_not_intro hfits)]
    rw [hfind]
    exact walk_eq_ok_iff hroot (files.names path) .root

/-- What is found is what the path leads to, as long as the system does not
    refuse the path for its length. -/
theorem find_eq_ok_iff (hroot : Proper files.root)
    (hanswered : files.find path ≠ .error .nameTooLong) :
    files.find path = .ok tree ↔ files.Holds path tree := by
  by_cases hfits : Fits path
  · exact find_eq_ok_iff_of_fits hroot hfits
  · -- the path is refused, and so it must be for a NUL character
    by_cases hnul : path.text.toList.contains '\x00' = true
    · exact find_eq_ok_iff_of_nul hroot hnul
    · have hfind : files.find path = .error .nameTooLong := by
        rw [find, if_neg hnul, if_pos hfits]
      exact absurd hfind hanswered

end Files

end BeatShield
