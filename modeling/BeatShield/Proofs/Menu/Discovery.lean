import BeatShield.Menu
import BeatShield.Proofs.FileTree.Reordered
import BeatShield.Proofs.Journal
import Mathlib.Data.String.Basic

/-! # Discovery — the menu lists the levels of a folder, and nothing else

    A level is a folder with a chart file, right below the songs folder.
    The search goes through the entries of the songs folder in the order of
    their names and keeps those that are levels.

      * `sorted` puts entries in the strict order of their names, and these
        do not depend on the order it is given (`pairwise_lt_sorted`,
        `map_fst_sorted`).
      * `collect_of_answered` — the search keeps the levels `among` the
        entries as long as the system answers (`Answered`).  A path that is
        too long to be looked at stops it (`collect_of_refused`).
      * `find_reordered` — the search is the same in trees that differ in
        the order of entries alone.
      * `findLevels_eq` — what the menu makes of the search.  It comes to
        its end exactly if the system answers (`findLevels_succeeds_iff`),
        and then finds all levels (`levels_are_found_exactly`), each with a
        chart that can be read (`exists_chart_of_found`). -/

namespace BeatShield

open FileTree

namespace Level

/-- The code points of a text. -/
def codePoints (text : String) : List Nat := text.toList.map Char.toNat

/-- Texts are in the order of their code points. -/
theorem codePoints_lt {one other : String} (h : one < other) :
    codePoints one < codePoints other :=
  List.map_lt (fun _ _ hlt => hlt) (String.lt_iff_toList_lt.mp h)

/-- The level that an entry of a songs folder is, if it is one. -/
def ofEntry (songs : Path) (name : String) : Level := { name, folder := songs.child name }

/-- In a tree with distinct names, a level is a folder with a chart that is
    a file. -/
theorem isLevel_iff {tree : FileTree} (h : tree.Proper) :
    isLevel tree = true ↔
      ∃ inner content, tree = .folder inner ∧ (chartFile, .file content) ∈ inner := by
  cases tree with
  | file content =>
      constructor
      · exact nofun
      · rintro ⟨inner, content, htree, -⟩
        exact nomatch htree
  | folder inner =>
      -- a folder is a level if the name of the chart is found to be a file
      have hlevel : isLevel (.folder inner) = true ↔
          ∃ content, inner.lookup chartFile = some (.file content) := by
        rw [isLevel]
        split
        · next content hlookup => exact ⟨fun _ => ⟨content, hlookup⟩, fun _ => rfl⟩
        · next hother =>
            constructor
            · exact nofun
            · rintro ⟨content, hlookup⟩
              exact absurd hlookup (hother content)
      simp only [hlevel, lookup_eq_some_iff_mem h.distinct, FileTree.folder.injEq,
        exists_and_left, exists_eq_left']

/-! ## The order of entries -/

variable {es es' : List (String × FileTree)}

/-- Sorted entries stand in the order of their names. -/
theorem pairwise_le_sorted (es : List (String × FileTree)) :
    (sorted es).Pairwise fun a b => a.1 ≤ b.1 := by
  have hsorted : (sorted es).Pairwise fun a b => decide (a.1 ≤ b.1) = true :=
    List.pairwise_mergeSort (by simpa using fun a _ b _ c _ => le_trans)
      (by simpa using fun a _ b _ => le_total a b) es
  exact hsorted.imp of_decide_eq_true

/-- Distinct names come out strictly one after the other. -/
theorem pairwise_lt_sorted (hdistinct : (es.map Prod.fst).Nodup) :
    (sorted es).Pairwise fun a b => a.1 < b.1 := by
  have hperm : ((sorted es).map Prod.fst).Perm (es.map Prod.fst) :=
    (List.mergeSort_perm es _).map Prod.fst
  have hne : (sorted es).Pairwise fun a b => a.1 ≠ b.1 :=
    List.pairwise_map.mp (hperm.nodup_iff.mpr hdistinct)
  exact ((pairwise_le_sorted es).and hne).imp fun h => lt_of_le_of_ne h.1 h.2

/-- Folders with the same names have them in the same order once sorted. -/
theorem map_fst_sorted (hnames : (es.map Prod.fst).Perm (es'.map Prod.fst)) :
    (sorted es).map Prod.fst = (sorted es').map Prod.fst := by
  have hperm (es : List (String × FileTree)) : ((sorted es).map Prod.fst).Perm (es.map Prod.fst) :=
    (List.mergeSort_perm es _).map Prod.fst
  exact List.Perm.eq_of_pairwise (fun _ _ _ _ => le_antisymm)
    (List.pairwise_map.mpr (pairwise_le_sorted es)) (List.pairwise_map.mpr (pairwise_le_sorted es'))
    ((hperm es).trans (hnames.trans (hperm es').symm))

/-! ## The search -/

variable {songs : Path} {tree other : FileTree}

/-- The chart of a folder that can be looked at can be looked at too. -/
theorem fits_of_tooLong? {level : Level} {inner : List (String × FileTree)}
    (h : level.tooLong? (.folder inner) = none) : Files.Fits level.chartPath := by
  by_contra hlong
  unfold tooLong? at h
  split at h
  · exact nomatch h
  · exact nomatch h

/-- The search goes on behind an entry unless that is too long to be looked
    at. -/
theorem collect_cons (e : String × FileTree) (rest : List (String × FileTree)) :
    collect songs (e :: rest)
      = match (ofEntry songs e.1).tooLong? e.2 with
        | some path => .error ⟨.nameTooLong, path⟩
        | none => (collect songs rest).map fun others =>
            if isLevel e.2 then ofEntry songs e.1 :: others else others := rfl

/-- The levels among the entries of a songs folder. -/
def among (songs : Path) (es : List (String × FileTree)) : List Level :=
  (es.filter fun e => isLevel e.2).map fun e => ofEntry songs e.1

/-- The levels of a folder are found entry by entry. -/
theorem among_cons (e : String × FileTree) (rest : List (String × FileTree)) :
    among songs (e :: rest)
      = if isLevel e.2 then ofEntry songs e.1 :: among songs rest else among songs rest := by
  unfold among
  rw [List.filter_cons]
  split <;> rfl

/-- A level is found exactly for an entry of its name that has a chart. -/
theorem mem_among {level : Level} :
    level ∈ among songs es ↔ level.folder = songs.child level.name ∧
      ∃ tree, (level.name, tree) ∈ es ∧ isLevel tree = true := by
  simp only [among, List.mem_map, List.mem_filter]
  constructor
  · rintro ⟨e, ⟨he, hlevel⟩, rfl⟩
    exact ⟨rfl, e.2, he, hlevel⟩
  · rintro ⟨hfolder, tree, he, hlevel⟩
    refine ⟨(level.name, tree), ⟨he, hlevel⟩, ?_⟩
    rw [ofEntry, ← hfolder]

/-- Sorted entries with distinct names give levels in the strict order of
    the code points of their names. -/
theorem pairwise_among (hdistinct : (es.map Prod.fst).Nodup) :
    (among songs (sorted es)).Pairwise fun a b => codePoints a.name < codePoints b.name :=
  List.pairwise_map.mpr (((pairwise_lt_sorted hdistinct).filter _).imp fun h => codePoints_lt h)

/-- The levels among the entries, as long as the system answers. -/
theorem collect_of_answered (h : ∀ e ∈ es, (ofEntry songs e.1).tooLong? e.2 = none) :
    collect songs es = .ok (among songs es) := by
  induction es with
  | nil => rfl
  | cons e rest ih =>
      obtain ⟨hfirst, hrest⟩ := List.forall_mem_cons.mp h
      rw [collect_cons, hfirst, ih hrest, among_cons]
      rfl

/-- An entry that is too long to be looked at stops the search. -/
theorem collect_of_refused {e : String × FileTree} (he : e ∈ es)
    (h : (ofEntry songs e.1).tooLong? e.2 ≠ none) :
    ∃ path, collect songs es = .error ⟨.nameTooLong, path⟩ := by
  induction es with
  | nil => exact absurd he List.not_mem_nil
  | cons first rest ih =>
      rw [collect_cons]
      cases hfirst : (ofEntry songs first.1).tooLong? first.2 with
      | some path => exact ⟨path, rfl⟩
      | none =>
          rcases List.mem_cons.mp he with rfl | he
          · exact absurd hfirst h
          · obtain ⟨path, hpath⟩ := ih he
            rw [hpath]
            exact ⟨path, rfl⟩

/-- The search below a path, by what the path leads to. -/
theorem find_eq (files : Files) (songs : Path) :
    find files songs
      = match files.find songs with
        | .ok (.folder es) => (collect songs (sorted es)).map some
        | .error .nameTooLong => .error ⟨.nameTooLong, songs⟩
        | _ => .ok none := by
  unfold find Files.folder?
  cases files.find songs with
  | error fault => cases fault <;> rfl
  | ok found => cases found <;> rfl

/-! ## Entries in another order -/

/-- Whether a folder is a level does not depend on the order of its entries. -/
theorem isLevel_reordered (h : Reordered tree other) : isLevel tree = isLevel other := by
  cases h with
  | file content => rfl
  | @folder es es' hdistinct hnames hinner =>
      have hrel := lookup_rel (.folder hdistinct hnames hinner) chartFile
      unfold isLevel
      dsimp only
      generalize es.lookup chartFile = one, es'.lookup chartFile = another at hrel ⊢
      cases hrel with
      | none => rfl
      | some hsame =>
          cases hsame with
          | file content => rfl
          | folder _ _ _ => rfl

/-- Nor does whether its chart's name is too long. -/
theorem tooLong?_reordered (level : Level) (h : Reordered tree other) :
    level.tooLong? tree = level.tooLong? other := by
  cases h with
  | file content => rfl
  | folder _ _ _ => rfl

/-- So folders whose entries are the same but for their order collect the
    same levels. -/
theorem collect_congr (hnames : es.map Prod.fst = es'.map Prod.fst)
    (h : ∀ name one another, (name, one) ∈ es → (name, another) ∈ es' → Reordered one another) :
    collect songs es = collect songs es' := by
  -- the same names stand at the same places, so both lists go down together
  induction es generalizing es' with
  | nil =>
      obtain rfl := List.map_eq_nil_iff.mp hnames.symm
      rfl
  | cons e rest ih =>
      obtain ⟨e', rest', rfl, hfirst, hrest⟩ := List.map_eq_cons_iff.mp hnames.symm
      obtain ⟨name, one⟩ := e
      obtain ⟨name', another⟩ := e'
      obtain rfl : name' = name := hfirst
      have hsame : Reordered one another :=
        h name' one another List.mem_cons_self List.mem_cons_self
      have hothers : collect songs rest = collect songs rest' :=
        ih hrest.symm fun name one another hone hanother =>
          h name one another (List.mem_cons_of_mem _ hone) (List.mem_cons_of_mem _ hanother)
      rw [collect_cons, collect_cons, hothers]
      simp only [isLevel_reordered hsame, tooLong?_reordered _ hsame]

/-- The search does not depend on the order in which entries are listed. -/
theorem find_reordered {files other : Files} (h : files.Reordered other) (songs : Path) :
    find files songs = find other songs := by
  have hagree := Files.find_agree h songs
  rw [find_eq, find_eq]
  generalize files.find songs = one, other.find songs = another at hagree ⊢
  cases hagree with
  | refused fault => rfl
  | found h =>
      cases h with
      | file content => rfl
      | @folder es es' hdistinct hnames hinner =>
          -- sorting takes the two orders to one order of names
          have hsorted : collect songs (sorted es) = collect songs (sorted es') :=
            collect_congr (map_fst_sorted hnames) fun name one another hone hanother =>
              hinner name one another (List.mem_mergeSort.mp hone) (List.mem_mergeSort.mp hanother)
          exact congrArg (Except.map some) hsorted

end Level

/-! ## The menu -/

/-- The system tells what is at each path that the search looks at: none of
    them is too long for that. -/
structure Level.Answered (files : Files) (songs : Path) : Prop where
  folder : files.find songs ≠ .error .nameTooLong
  entries : ∀ es, files.find songs = .ok (.folder es) →
    ∀ e ∈ es, (ofEntry songs e.1).tooLong? e.2 = none

namespace Menu

variable {files : Files} {songs : Path} {es : List (String × FileTree)}

/-- What the menu makes of the search. -/
theorem findLevels_eq (files : Files) (songs : Path) :
    findLevels files songs
      = match Level.find files songs with
        | .ok (some levels) => ⟨[], .ok levels⟩
        | .ok none => ⟨[.log (.songsMissing songs)], .ok []⟩
        | .error cause => ⟨[], .error (.file cause)⟩ := by
  unfold findLevels
  split
  · next h => rw [h]; rfl
  · next h => rw [h]; rfl
  · next h => rw [h]; rfl

/-- The levels of a folder, in the order of their names. -/
theorem findLevels_of_folder (hanswered : Level.Answered files songs)
    (h : files.find songs = .ok (.folder es)) :
    findLevels files songs = ⟨[], .ok (Level.among songs (Level.sorted es))⟩ := by
  have hcollect : Level.collect songs (Level.sorted es)
      = .ok (Level.among songs (Level.sorted es)) :=
    Level.collect_of_answered fun e he =>
      hanswered.entries es h e (List.mem_mergeSort.mp he)
  rw [findLevels_eq, Level.find_eq, h]
  dsimp only
  rw [hcollect]
  rfl

/-- Where no folder is, there are no levels, and that is reported. -/
theorem findLevels_of_no_folder (hanswered : Level.Answered files songs)
    (h : ¬ ∃ es, files.find songs = .ok (.folder es)) :
    findLevels files songs = ⟨[.log (.songsMissing songs)], .ok []⟩ := by
  have hnone : Level.find files songs = .ok none := by
    rw [Level.find_eq]
    split
    · next es hfolder => exact absurd ⟨es, hfolder⟩ h
    · next hlong => exact absurd hlong hanswered.folder
    · rfl
  rw [findLevels_eq, hnone]

/-- A path that is too long to be looked at ends the search in an error. -/
theorem findLevels_of_not_answered (h : ¬ Level.Answered files songs) :
    ∃ path, findLevels files songs = ⟨[], .error (.file ⟨.nameTooLong, path⟩)⟩ := by
  -- either the path of the songs folder is too long, or that of an entry
  by_cases hfolder : files.find songs = .error .nameTooLong
  · exact ⟨songs, by rw [findLevels_eq, Level.find_eq, hfolder]⟩
  · have hentry : ∃ es, files.find songs = .ok (.folder es) ∧
        ∃ e ∈ es, (Level.ofEntry songs e.1).tooLong? e.2 ≠ none := by
      by_contra hnone
      push Not at hnone
      exact h ⟨hfolder, hnone⟩
    obtain ⟨es, hes, e, he, hlong⟩ := hentry
    obtain ⟨path, hpath⟩ := Level.collect_of_refused (List.mem_mergeSort.mpr he) hlong
    refine ⟨path, ?_⟩
    rw [findLevels_eq, Level.find_eq, hes]
    dsimp only
    rw [Level.sorted, hpath]
    rfl

/-- The search comes to its end exactly if the system answers. -/
theorem findLevels_succeeds_iff :
    (findLevels files songs).Succeeds ↔ Level.Answered files songs := by
  constructor
  · rintro ⟨levels, hlevels⟩
    by_contra h
    obtain ⟨path, hpath⟩ := findLevels_of_not_answered h
    rw [hpath] at hlevels
    exact nomatch hlevels
  · intro h
    by_cases hfolder : ∃ es, files.find songs = .ok (.folder es)
    · obtain ⟨es, hes⟩ := hfolder
      exact ⟨_, congrArg Journal.result (findLevels_of_folder h hes)⟩
    · exact ⟨_, congrArg Journal.result (findLevels_of_no_folder h hfolder)⟩

/-- Every level that the menu finds has a chart that can be read. -/
theorem exists_chart_of_found (hroot : files.root.Proper) (hanswered : Level.Answered files songs)
    {levels : List Level} (hfound : (findLevels files songs).result = .ok levels) {level : Level}
    (hlevel : level ∈ levels) : ∃ content, files.readFile level.chartPath = .ok content := by
  by_cases hfolder : ∃ es, files.find songs = .ok (.folder es)
  · obtain ⟨es, hes⟩ := hfolder
    rw [findLevels_of_folder hanswered hes] at hfound
    obtain rfl := Except.ok.inj hfound
    obtain ⟨hpath, tree, hmem, hisLevel⟩ := Level.mem_among.mp hlevel
    have hmem : (level.name, tree) ∈ es := List.mem_mergeSort.mp hmem
    have hsongs := (Files.find_eq_ok_iff hroot hanswered.folder).mp hes
    have hproper : FileTree.Proper (.folder es) := hsongs.proper hroot
    obtain ⟨inner, content, rfl, hchart⟩ := (Level.isLevel_iff (hproper.inner hmem)).mp hisLevel
    -- two more names lead from the songs folder to the chart
    have hinner := hsongs.child (hproper.isName hmem).ne_up hmem
    have hholds : files.Holds level.chartPath (.file content) := by
      rw [Level.chartPath, hpath]
      exact hinner.child (by decide) hchart
    have hfits : Files.Fits level.chartPath := by
      rw [Level.chartPath, hpath]
      exact Level.fits_of_tooLong? (hanswered.entries es hes _ hmem)
    refine ⟨content, ?_⟩
    rw [Files.readFile, (Files.find_eq_ok_iff_of_fits hroot hfits).mpr hholds]
  · rw [findLevels_of_no_folder hanswered hfolder] at hfound
    obtain rfl := Except.ok.inj hfound
    exact absurd hlevel List.not_mem_nil

/-- The levels that the menu finds in a songs folder are its direct
    subfolders with a chart that is a file, and nothing else.  Each is there
    once, with its own folder, in the strict order of names by code points.
    There are no levels and a warning exactly where the path leads to no
    folder.  The order in which folders list their entries makes no
    difference. -/
theorem levels_are_found_exactly (files : Files) (hroot : files.root.Proper) (songs : Path)
    (hanswered : Level.Answered files songs) :
    (∀ es, files.Holds songs (.folder es) →
      ∃ levels, findLevels files songs = ⟨[], .ok levels⟩ ∧
        (levels.Pairwise fun a b => Level.codePoints a.name < Level.codePoints b.name) ∧
        ∀ level, level ∈ levels ↔ level.folder = songs.child level.name ∧
          ∃ inner content, (level.name, .folder inner) ∈ es ∧
            (Level.chartFile, .file content) ∈ inner) ∧
    (findLevels files songs = ⟨[.log (.songsMissing songs)], .ok []⟩ ↔
      ¬ ∃ es, files.Holds songs (.folder es)) ∧
    ∀ other, files.Reordered other → findLevels other songs = findLevels files songs := by
  have hfind (es : List (String × FileTree)) :
      files.find songs = .ok (.folder es) ↔ files.Holds songs (.folder es) :=
    Files.find_eq_ok_iff hroot hanswered.folder
  simp only [← hfind]
  refine ⟨fun es hes => ?_, ⟨fun hmissing => ?_, findLevels_of_no_folder hanswered⟩,
    fun other h => ?_⟩
  · have hproper : FileTree.Proper (.folder es) := ((hfind es).mp hes).proper hroot
    refine ⟨_, findLevels_of_folder hanswered hes, Level.pairwise_among hproper.distinct, ?_⟩
    intro level
    rw [Level.mem_among]
    refine and_congr_right fun _ => ⟨?_, ?_⟩
    · rintro ⟨entry, hentry, hlevel⟩
      have hmem : (level.name, entry) ∈ es := List.mem_mergeSort.mp hentry
      obtain ⟨inner, content, rfl, hchart⟩ :=
        (Level.isLevel_iff (hproper.inner hmem)).mp hlevel
      exact ⟨inner, content, hmem, hchart⟩
    · rintro ⟨inner, content, hmem, hchart⟩
      exact ⟨_, List.mem_mergeSort.mpr hmem,
        (Level.isLevel_iff (hproper.inner hmem)).mpr ⟨inner, content, rfl, hchart⟩⟩
  · -- a folder is searched without a notice
    rintro ⟨es, hes⟩
    rw [findLevels_of_folder hanswered hes] at hmissing
    exact nomatch congrArg Journal.entries hmissing
  · rw [findLevels_eq, findLevels_eq, Level.find_reordered h]

/-- Two levels beside a file and a folder whose chart is a folder, listed
    out of order, and found from a current folder elsewhere. -/
theorem two_levels_among_other_entries :
    let es : List (String × FileTree) :=
      [("b", .folder [("sheet.sht", .file ⟨#[]⟩)]), ("readme", .file ⟨#[]⟩),
       ("c", .folder [("sheet.sht", .folder [])]), ("a", .folder [("sheet.sht", .file ⟨#[]⟩)])]
    let files : Files :=
      { root := .folder [("home", .folder []), ("songs", .folder es)], current := ["home"] }
    let other : Files :=
      { root := .folder [("songs", .folder es.reverse), ("home", .folder [])], current := ["home"] }
    let songs : Path := { anchor := .root, parts := ["songs"] }
    let beside : Path := { parts := ["..", "songs"] }
    files.root.Proper ∧ Level.Answered files songs ∧ Level.Answered files beside ∧
      files.Holds songs (.folder es) ∧ files.Holds beside (.folder es) ∧
      (∃ levels, findLevels files songs = ⟨[], .ok levels⟩ ∧
        { name := "a", folder := { anchor := .root, parts := ["songs", "a"] } } ∈ levels ∧
        { name := "b", folder := { anchor := .root, parts := ["songs", "b"] } } ∈ levels ∧
        ∀ level ∈ levels, level.name ≠ "c") ∧
      findLevels other songs = findLevels files songs := by
  intro es files other songs beside
  have hchart : FileTree.Proper (.folder [("sheet.sht", .file ⟨#[]⟩)]) :=
    .folder (by decide +kernel) (by decide) (List.forall_mem_singleton.mpr (.file _))
  have hempty : FileTree.Proper (.folder []) :=
    .folder (List.forall_mem_nil _) List.nodup_nil (List.forall_mem_nil _)
  have hnested : FileTree.Proper (.folder [("sheet.sht", .folder [])]) :=
    .folder (by decide +kernel) (by decide) (List.forall_mem_singleton.mpr hempty)
  have hinner : ∀ e ∈ es, FileTree.Proper e.2 := by
    simp only [es, List.forall_mem_cons]
    exact ⟨hchart, .file _, hnested, hchart, List.forall_mem_nil _⟩
  have hdistinct : (es.map Prod.fst).Nodup := by decide
  have hes : FileTree.Proper (.folder es) := .folder (by decide +kernel) hdistinct hinner
  have hroot : files.root.Proper := by
    refine .folder (by decide +kernel) (by decide) ?_
    simp only [List.forall_mem_cons]
    exact ⟨hempty, hes, List.forall_mem_nil _⟩
  have hhome : ("home", FileTree.folder []) ∈ files.root.entries := List.mem_cons_self
  have hin : ("songs", FileTree.folder es) ∈ files.root.entries :=
    List.mem_cons_of_mem _ List.mem_cons_self
  -- one path begins at the root, the other goes up and in again
  have hplace : FileTree.Leads files.root [] ["songs"] ["songs"] :=
    .into (.here _) (by decide) hin (.here _)
  have hsongs : files.Holds songs (.folder es) := ⟨["songs"], hplace, .inside hin (.here _)⟩
  have hbeside : files.Holds beside (.folder es) :=
    ⟨["songs"], .into (.here _) (by decide) hhome (.out (.inside hhome (.here _)) hplace),
      .inside hin (.here _)⟩
  have hanswered (path : Path) (hfits : Files.Fits path) (hpath : files.Holds path (.folder es))
      (hshort : ∀ e ∈ es, (Level.ofEntry path e.1).tooLong? e.2 = none) :
      Level.Answered files path := by
    have hfind := (Files.find_eq_ok_iff_of_fits hroot hfits).mpr hpath
    constructor
    · intro hlong
      rw [hfind] at hlong
      cases hlong
    · intro found hfound
      rw [hfind] at hfound
      obtain rfl := FileTree.folder.inj (Except.ok.inj hfound)
      exact hshort
  have hrooted : Level.Answered files songs :=
    hanswered songs (by decide +kernel) hsongs (by decide +kernel)
  obtain ⟨hlevels, -, hsame⟩ := levels_are_found_exactly files hroot songs hrooted
  obtain ⟨levels, hfound, -, hmem⟩ := hlevels es hsongs
  -- both folders are listed backwards
  have hreversed : files.Reordered other := by
    refine ⟨?_, rfl⟩
    refine .folder (by decide) (List.Perm.swap ..) fun name one another hone hanother => ?_
    simp only [List.mem_cons, List.not_mem_nil, Prod.mk.injEq, or_false] at hone hanother
    rcases hone with ⟨rfl, rfl⟩ | ⟨rfl, rfl⟩
    · obtain ⟨hname, -⟩ | ⟨-, rfl⟩ := hanother
      · exact absurd hname (by decide)
      · exact hempty.reordered
    · obtain ⟨-, rfl⟩ | ⟨hname, -⟩ := hanother
      · exact FileTree.reordered_of_perm hdistinct es.reverse_perm.symm
          fun e he => (hinner e he).reordered
      · exact absurd hname (by decide)
  refine ⟨hroot, hrooted, hanswered beside (by decide +kernel) hbeside (by decide +kernel),
    hsongs, hbeside, ⟨levels, hfound, ?_, ?_, ?_⟩, hsame other hreversed⟩
  · refine (hmem _).mpr ⟨rfl, [("sheet.sht", .file ⟨#[]⟩)], ⟨#[]⟩, ?_, List.mem_singleton.mpr rfl⟩
    simp [es]
  · refine (hmem _).mpr ⟨rfl, [("sheet.sht", .file ⟨#[]⟩)], ⟨#[]⟩, ?_, List.mem_singleton.mpr rfl⟩
    simp [es]
  · rintro level hlevel hname
    obtain ⟨-, inner, content, hentry, hsheet⟩ := (hmem level).mp hlevel
    rw [hname] at hentry
    obtain rfl : inner = [("sheet.sht", .folder [])] := by simpa [es] using hentry
    simp [Level.chartFile] at hsheet

end Menu

end BeatShield
