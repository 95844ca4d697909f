import Syndication.Files.Path
import Syndication.Files.Program

/-!
# Trees of files

A tree of files below a working directory, and what a program does on it. A place
in the tree is the list of the names that lead to it, the last one first; a path is
walked piece by piece, and each piece asks for a directory to stand in.

Main statements:

* `run_bind`: a program after another runs on the tree that the first one leaves.
-/

namespace Syndication

/-- A place in a tree: the names that lead to it, the last one first. -/
abbrev FilePlace := List String

/-- The files and directories below a working directory. -/
structure FileTree where
  /-- The directories, besides the working directory. -/
  directories : List FilePlace
  /-- The files, each with its bytes if it can be read. -/
  files : List (FilePlace × Option (List UInt8))
deriving Repr

namespace FileTree

/-- The tree without any file. -/
def empty : FileTree := ⟨[], []⟩

/-- Whether a place is that of a directory. -/
def isDirectory (t : FileTree) (place : FilePlace) : Bool :=
  place.isEmpty || t.directories.contains place

/-- The content of the file at a place, if it can be read. -/
def file? (t : FileTree) (place : FilePlace) : Option (Option (List UInt8)) :=
  t.files.lookup place

/-- The names of what lies in a directory. -/
def namesIn (t : FileTree) (place : FilePlace) : List String :=
  (t.directories ++ t.files.map (·.1)).filterMap fun
    | name :: outer => if outer = place then some name else none
    | [] => none

/-- Walks the pieces of a path from a directory on. -/
def walk (t : FileTree) : List String → FilePlace → Option FilePlace
  | [], here => some here
  | piece :: rest, here =>
    -- even a piece that stays here asks for a directory
    if !t.isDirectory here then none
    else if Files.staysHere piece then t.walk rest here
    else if piece == ".." then
      match here with
      | _ :: outer => t.walk rest outer
      | [] => none
    else t.walk rest (piece :: here)

/-- The place to which a path leads; a path that leaves the working directory leads
nowhere. -/
def place? (t : FileTree) (path : String) : Option FilePlace :=
  if path == "" || Text.startsWith "/" path then none else t.walk (Files.pieces path) []

/-- What stands at a path. -/
def entry (t : FileTree) (path : String) : FileEntry :=
  match t.place? path with
  | none => .absent
  | some place =>
    if t.isDirectory place then .directory (t.namesIn place)
    else match t.file? place with
      | none => .absent
      | some none => .unreadable
      | some (some content) => .file content

/-- The tree with a file at a path, if there is a directory for it. -/
def write? (t : FileTree) (path : String) (content : List UInt8) : Option FileTree :=
  match t.place? path with
  | none => none
  | some place =>
    if t.isDirectory place then none
    else some { t with files := (place, some content) :: t.files.filter (·.1 != place) }

/-- Walks the pieces of a path from a directory on and makes the directories that
are not there. -/
def makeWay (t : FileTree) : List String → FilePlace → Option FileTree
  | [], _ => some t
  | piece :: rest, here =>
    if Files.staysHere piece then t.makeWay rest here
    else if piece == ".." then
      match here with
      | _ :: outer => t.makeWay rest outer
      | [] => none
    else
      let place := piece :: here
      if t.isDirectory place then t.makeWay rest place
      else if (t.file? place).isSome then none
      else { t with directories := t.directories ++ [place] }.makeWay rest place

/-- The tree with a directory at a path, and with those in which it lies. -/
def makeDirectory? (t : FileTree) (path : String) : Option FileTree :=
  if Text.startsWith "/" path then none else t.makeWay (Files.pieces path) []

/-- The tree with a file and the directories in which it lies. -/
def withFile (t : FileTree) (path : String) (content : List UInt8) : FileTree :=
  let t := ((Files.directory? path).bind t.makeDirectory?).getD t
  (t.write? path content).getD t

/-- The tree with a directory and those in which it lies. -/
def withDirectory (t : FileTree) (path : String) : FileTree :=
  (t.makeDirectory? path).getD t

/-- **What a program does on a tree**: its value and the tree after it. -/
def run {α : Type} : FileProgram α → FileTree → α × FileTree
  | .done a, t => (a, t)
  | .look path next, t => run (next (t.entry path)) t
  | .write path content next, t =>
    match t.write? path content.toUTF8.toList with
    | some t => run (next true) t
    | none => run (next false) t
  | .makeDirectory path next, t =>
    match t.makeDirectory? path with
    | some t => run (next true) t
    | none => run (next false) t

@[simp] theorem run_pure {α : Type} (a : α) (t : FileTree) : run (pure a) t = (a, t) := rfl

/-- A program after another runs on the tree that the first one leaves. -/
theorem run_bind {α β : Type} (p : FileProgram α) (f : α → FileProgram β) (t : FileTree) :
    run (p.bind f) t = run (f (run p t).1) (run p t).2 := by
  induction p generalizing t with
  | done => rfl
  | look path next ih => simp [FileProgram.bind, run, ih]
  | write path content next ih =>
    simp only [FileProgram.bind, run]
    split <;> simp [ih]
  | makeDirectory path next ih =>
    simp only [FileProgram.bind, run]
    split <;> simp [ih]

/-- A program that only looks leaves the tree as it is. -/
theorem run_of_looksOnly {α : Type} {p : FileProgram α} (h : p.LooksOnly) (t : FileTree) :
    run p t = ((run p t).1, t) := by
  induction h with
  | done => rfl
  | look path _ ih => exact ih (t.entry path)

theorem run_bind_of_looksOnly {α β : Type} {p : FileProgram α} (h : p.LooksOnly)
    (f : α → FileProgram β) (t : FileTree) : run (p >>= f) t = run (f (run p t).1) t := by
  refine (run_bind p f t).trans ?_
  rw [run_of_looksOnly h]

end FileTree

end Syndication
