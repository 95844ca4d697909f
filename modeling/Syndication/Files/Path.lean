import Syndication.Text.Search

/-!
# Paths

A path is a text with slashes between its pieces. Empty pieces and `.` say
nothing, except that a path may begin with `.`; `..` goes back.

Main statements:

* `splitName_of_split`: a name that has an extension is its stem, a point and the
  extension.
-/

namespace Syndication.Files

/-- The pieces of a path between its slashes. -/
def pieces (path : String) : List String :=
  (Chars.splitOn '/' path.toList).map String.ofList

/-- Whether a piece of a path stays where it is. -/
def staysHere (piece : String) : Bool :=
  piece == "" || piece == "."

/-- The name of the file that a path leads to, if it ends with a name. -/
def fileName? (path : String) : Option String :=
  ((pieces path).filter (!staysHere ·)).getLast?.filter (· != "..")

/-- The name of a file without its extension, and the extension: what follows the
last point, unless that point is the first character. -/
def splitName (name : String) : String × Option String :=
  match Chars.splitFirst? '.' name.toList.reverse with
  | some (extension, stem) =>
    if stem.isEmpty then (name, none)
    else (String.ofList stem.reverse, some (String.ofList extension.reverse))
  | none => (name, none)

/-- The extension of the file that a path leads to. -/
def extension? (path : String) : Option String :=
  (fileName? path).bind fun name => (splitName name).2

/-- The name of the file that a path leads to, without its extension. -/
def stem? (path : String) : Option String :=
  (fileName? path).map fun name => (splitName name).1

/-- The path of an entry of a directory. -/
def entryPath (directory name : String) : String :=
  if Text.endsWith "/" directory then directory ++ name else directory ++ "/" ++ name

/-- The pieces of a path, the last one first, without those at the end that stay
where they are; the first piece of the path is kept. -/
def trimBack : List String → List String
  | [] => []
  | [p] => [p]
  | p :: rest => if staysHere p then trimBack rest else p :: rest

/-- The path of the directory in which a path leads to an entry; nothing when the
path names no directory. -/
def directory? (path : String) : Option String :=
  match trimBack (pieces path).reverse with
  | _ :: rest@(_ :: _) =>
    match trimBack rest with
    | [""] => some "/"
    | trimmed => some ("/".intercalate trimmed.reverse)
  | _ => none

/-- A name that has an extension is its stem, a point and the extension. -/
theorem splitName_of_split {name stem extension : String}
    (h : splitName name = (stem, some extension)) :
    name.toList = stem.toList ++ '.' :: extension.toList := by
  unfold splitName at h
  split at h
  · rename_i e s hs
    split at h
    · simp at h
    · simp only [Prod.mk.injEq, Option.some.injEq] at h
      have hr := congrArg List.reverse (Chars.eq_of_splitFirst? hs)
      simp only [List.reverse_reverse, List.reverse_append, List.reverse_cons] at hr
      simp [hr, ← h.1, ← h.2]
  · simp at h

end Syndication.Files
