import Syndication.Definition.Validation
import Syndication.Event
import Syndication.Files.Path
import Syndication.Files.Program
import Syndication.Json.Parser
import Syndication.Text.Utf8
import Syndication.Yaml.Document

/-!
# Libraries of definitions

A library is a directory with one definition in a file. The extension of a file
names its format, and files of other formats are passed over. The files are read in
the order of their names, each for itself; of valid definitions with the same id
only the first is taken.

Main statements:

* `results_length`: every file has one result.
* `result_of_error`: a file that is refused for itself keeps its own error.
* `ofFiles`: the library of a directory with some files.
-/

namespace Syndication

/-- The formats of definition files. -/
inductive DefinitionFormat where
  | yaml
  | json
deriving DecidableEq, Repr

/-- The format that the extension of a path names. -/
def DefinitionFormat.ofPath? (path : String) : Option DefinitionFormat :=
  match Files.extension? path with
  | some "yaml" | some "yml" => some .yaml
  | some "json" => some .json
  | _ => none

/-- The document that a text writes in a format. -/
def DefinitionFormat.document? (format : DefinitionFormat) (text : String) : Option Document :=
  match format with
  | .yaml => Yaml.document? text
  | .json => Json.document? text

/-- What reads definitions from texts in the formats. -/
abbrev DefinitionParser := DefinitionFormat → String → Option DefinitionSpec

/-- Reads the document, and the definition that it holds. -/
def DefinitionParser.standard : DefinitionParser := fun format text =>
  (format.document? text).bind DefinitionSpec.ofDocument?

/-- A file with a definition. -/
structure DefinitionFile where
  name : String
  path : String
  format : DefinitionFormat
  /-- The bytes, if they can be read. -/
  content : Option (List UInt8)
deriving DecidableEq, Repr

/-- The result of reading a definition. -/
abbrev DefinitionResult := Except DefinitionError Definition

namespace DefinitionFile

/-- The definition in a file, read for itself. -/
def read (parse : DefinitionParser) (f : DefinitionFile) : DefinitionResult :=
  match f.content.bind Text.decode? with
  | none => .error .unreadableFile
  | some text =>
    match parse f.format (String.ofList text) with
    | none => .error (.parse f.path)
    | some spec => Definition.validate spec

end DefinitionFile

/-- The definitions of a directory. -/
structure Library where
  directory : String
  /-- What came of each file, in the order of the names. -/
  results : List DefinitionResult

namespace Library

/-- What came of files, one after another. `taken` holds the ids of the definitions
that were taken, each with the path of its file. -/
def resultsFrom (parse : DefinitionParser) (taken : List (String × String)) :
    List DefinitionFile → List DefinitionResult
  | [] => []
  | f :: rest =>
    match f.read parse with
    | .error e => .error e :: resultsFrom parse taken rest
    | .ok d =>
      match taken.lookup d.id with
      | some first => .error (.duplicateId d.id first f.path) :: resultsFrom parse taken rest
      -- only a definition that is taken reserves its id
      | none => .ok d :: resultsFrom parse ((d.id, f.path) :: taken) rest

/-- Files in the order of their names. -/
def sorted (files : List DefinitionFile) : List DefinitionFile :=
  files.mergeSort fun a b => decide (a.name ≤ b.name)

/-- **The library of a directory** with some files. -/
def ofFiles (parse : DefinitionParser) (directory : String) (files : List DefinitionFile) :
    Library :=
  ⟨directory, resultsFrom parse [] (sorted files)⟩

/-- Every file has one result. -/
@[simp] theorem results_length (parse : DefinitionParser) (taken : List (String × String))
    (files : List DefinitionFile) : (resultsFrom parse taken files).length = files.length := by
  induction files generalizing taken with
  | nil => rfl
  | cons f rest ih =>
    unfold resultsFrom
    split
    · simp [ih]
    · split <;> simp [ih]

/-- A file that is refused for itself keeps its own error, and the files after it
are read as if it were not there. -/
theorem result_of_error {parse : DefinitionParser} {f : DefinitionFile} {e : DefinitionError}
    (h : f.read parse = .error e) (taken : List (String × String)) (rest : List DefinitionFile) :
    resultsFrom parse taken (f :: rest) = .error e :: resultsFrom parse taken rest := by
  simp [resultsFrom, h]

/-- The definitions that were taken. -/
def definitions (l : Library) : List Definition :=
  l.results.filterMap Except.toOption

/-- Why the other files were refused. -/
def errors (l : Library) : List DefinitionError :=
  l.results.filterMap fun
    | .error e => some e
    | .ok _ => none

/-- What is reported about reading the files. -/
def readEvents (l : Library) : List Event :=
  [.definitionsLoaded l.directory l.results.length l.definitions.length]

/-- What is reported about leaving out the files that were refused. -/
def skipEvents (l : Library) : List Event :=
  l.errors.map fun e => .definitionSkipped e.message

/-! ### Reading a directory -/

/-- The definition file that an entry of a directory is, if it is one. -/
def file? (directory name : String) : FileProgram (Option DefinitionFile) := do
  let path := Files.entryPath directory name
  match DefinitionFormat.ofPath? path with
  | none => return none
  | some format =>
    return match ← FileProgram.entry path with
      | .file content => some ⟨name, path, format, some content⟩
      | .unreadable => some ⟨name, path, format, none⟩
      | _ => none

/-- The definition files of a directory among the entries with given names. -/
def files (directory : String) : List String → FileProgram (List DefinitionFile)
  | [] => return []
  | name :: rest => do
    let file ← file? directory name
    return file.toList ++ (← files directory rest)

/-- The library of the directory at a path, whose texts are read by a parser. -/
def loadWith (parse : DefinitionParser) (directory : String) :
    FileProgram (Except DefinitionError Library) := do
  match ← FileProgram.entry directory with
  | .directory names => return .ok (ofFiles parse directory (← files directory names))
  | _ => return .error (.missingDirectory directory)

/-- The library of the directory at a path. -/
def load : String → FileProgram (Except DefinitionError Library) :=
  loadWith .standard

end Library

end Syndication
