import BeatShield.FileTree.Path
import BeatShield.Text.Quoted

/-! # FileTree — files and folders

    A file tree is a file, or a folder with all that is below it.  A
    program sees the tree below the root, from a current folder somewhere
    in it (`Files`): a path from the root is followed from there, and any
    other path from the current folder.

      * `Files.find` follows a path, and says why it cannot.
      * `Files.folder?` lists a folder.  What is missing is no error there,
        but a name or a path that is too long is.
      * `Files.readFile` is the content of the file at a path.
      * `write`, `makeFolder` and `remove` change a tree. -/

namespace BeatShield

/-- A file with its bytes, or a folder with its named entries. -/
inductive FileTree where
  | file (content : ByteArray)
  | folder (entries : List (String × FileTree))

/-- The ways in which a file cannot be read. -/
inductive FileFault where
  | notFound
  | notFolder
  | isFolder
  | nameTooLong
  /-- A path with a NUL character names nothing. -/
  | nulCharacter
  deriving DecidableEq, Repr

/-- A file that cannot be read. -/
structure FileError where
  fault : FileFault
  path : Path
  deriving DecidableEq, Repr

/-- The wording of a file error. -/
def FileError.message (e : FileError) : String :=
  let shown := Text.quoted e.path.text
  match e.fault with
  | .notFound => "[Errno 2] No such file or directory: " ++ shown
  | .notFolder => "[Errno 20] Not a directory: " ++ shown
  | .isFolder => "[Errno 21] Is a directory: " ++ shown
  | .nameTooLong => "[Errno 36] File name too long: " ++ shown
  | .nulCharacter => "embedded null byte"

namespace FileTree

/-- A folder without entries. -/
def empty : FileTree := .folder []

/-- The entries of a folder; a file has none. -/
def entries : FileTree → List (String × FileTree)
  | .file _ => []
  | .folder es => es

/-- The entry of a name. -/
def child? (tree : FileTree) (name : String) : Option FileTree := tree.entries.lookup name

/-! ## Looking up -/

/-- The greatest length of a name, in bytes. -/
def nameLimit : Nat := 255

/-- The greatest length of a path, in bytes. -/
def pathLimit : Nat := 4095

/-- Follows names from a place whose enclosing folders are given, the
    nearest first.  Above the root there is nothing but the root. -/
def walk : List FileTree → FileTree → List String → Except FileFault FileTree
  | _, tree, [] => .ok tree
  | _, .file _, _ :: _ => .error .notFolder
  | around, .folder es, name :: rest =>
      if name = ".." then
        match around with
        | [] => walk [] (.folder es) rest
        | outer :: others => walk others outer rest
      else if nameLimit < name.utf8ByteSize then .error .nameTooLong
      else
        match es.lookup name with
        | none => .error .notFound
        | some inner => walk (.folder es :: around) inner rest

/-! ## Changing -/

/-- The entries with the entry of a name set. -/
def setEntry (name : String) (tree : FileTree) :
    List (String × FileTree) → List (String × FileTree)
  | [] => [(name, tree)]
  | (other, t) :: rest =>
      if other = name then (name, tree) :: rest else (other, t) :: setEntry name tree rest

/-- Changes what is at a list of names, making the folders on the way. -/
def update (f : FileTree → FileTree) : List String → FileTree → FileTree
  | [], tree => f tree
  | name :: rest, tree =>
      .folder (setEntry name (update f rest ((tree.child? name).getD empty)) tree.entries)

/-- The names that remain when each double dot takes back the name before
    it. -/
def plainParts (path : Path) : List String :=
  (path.parts.foldl (fun back part => if part = ".." then back.tail else part :: back) []).reverse

/-- Puts a file at a path. -/
def write (tree : FileTree) (path : Path) (content : ByteArray) : FileTree :=
  update (fun _ => .file content) (plainParts path) tree

/-- Makes a folder at a path, unless there is one. -/
def makeFolder (tree : FileTree) (path : Path) : FileTree :=
  update (fun t => .folder t.entries) (plainParts path) tree

/-- Removes what a list of names leads to, if anything. -/
def removeAt : List String → FileTree → FileTree
  | [], _ => empty
  | [name], tree =>
      match tree with
      | .file content => .file content
      | .folder es => .folder (es.filter (·.1 != name))
  | name :: rest, tree =>
      match tree.child? name with
      | none => tree
      | some inner => .folder (setEntry name (removeAt rest inner) tree.entries)

/-- Removes what is at a path, if anything. -/
def remove (tree : FileTree) (path : Path) : FileTree :=
  removeAt (plainParts path) tree

end FileTree

/-! ## Files -/

/-- The files that a program sees: all that is below the root, and the
    names that lead from there to its current folder. -/
structure Files where
  root : FileTree
  current : List String

namespace Files

/-- The files of a program whose current folder is given.  Nothing else is
    on the machine. -/
def alone (tree : FileTree) : Files :=
  { root := .folder [("home", tree)], current := ["home"] }

instance : Coe FileTree Files := ⟨alone⟩

/-- The names that a path stands for, from the root on. -/
def names (files : Files) (path : Path) : List String :=
  match path.anchor with
  | .here => files.current ++ path.parts
  | .root | .doubleRoot => path.parts

/-- Whether a path is short enough to be followed at all. -/
def Fits (path : Path) : Prop := path.text.utf8ByteSize ≤ FileTree.pathLimit

instance (path : Path) : Decidable (Fits path) :=
  inferInstanceAs (Decidable (_ ≤ _))

/-- What is at a path. -/
def find (files : Files) (path : Path) : Except FileFault FileTree :=
  if path.text.toList.contains '\x00' then .error .nulCharacter
  else if ¬ Fits path then .error .nameTooLong
  else FileTree.walk [] files.root (files.names path)

/-- The entries of the folder at a path, if there is a folder. -/
def folder? (files : Files) (path : Path) :
    Except FileError (Option (List (String × FileTree))) :=
  match files.find path with
  | .ok (.folder es) => .ok (some es)
  | .error .nameTooLong => .error ⟨.nameTooLong, path⟩
  | _ => .ok none

/-- The content of the file at a path. -/
def readFile (files : Files) (path : Path) : Except FileError ByteArray :=
  match files.find path with
  | .ok (.file content) => .ok content
  | .ok (.folder _) => .error ⟨.isFolder, path⟩
  | .error fault => .error ⟨fault, path⟩

end Files

end BeatShield
