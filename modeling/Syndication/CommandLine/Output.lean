import Syndication.Article.File
import Syndication.Duration
import Syndication.Json.Printer
import Syndication.Settings.File
import Syndication.Timestamp
import Syndication.Uuid

/-!
# What commands print

A command prints lines and ends with a code. A command that fails prints why; what it
has printed before stays.

Main statements:

* `code_after`: lines that are printed before change nothing about the code.
-/

namespace Syndication

/-- What a command prints, and the code with which it ends. -/
structure Output where
  /-- The lines of the standard output. -/
  lines : List String
  /-- The lines of the error output. -/
  errorLines : List String
  code : Nat
deriving DecidableEq, Repr

/-- Why a command fails. -/
inductive CommandError where
  /-- There are no settings. -/
  | settings (cause : SettingsError)
  /-- There is no article. -/
  | article (cause : ArticleError)
  /-- There is no directory of definitions. -/
  | directory (directory : String)
  /-- There is nothing to publish to. -/
  | noPlatforms (directory : String)
  /-- A platform is not known. -/
  | notRegistered (id : String)
  /-- A session could not be checked. -/
  | sessionCheck (id : String)
  /-- A file is there already. -/
  | fileExists (path : String)
  /-- A directory could not be made. -/
  | directoryNotMade (path : String)
  /-- A file could not be written. -/
  | fileNotWritten (path : String)
deriving DecidableEq, Repr

/-- The wording of the error. -/
def CommandError.message : CommandError → String
  | .settings cause => cause.message
  | .article cause => cause.message
  | .directory path => s!"Failed to open definitions directory: {path}"
  | .noPlatforms path => s!"No platforms to sync; check {path} and your config"
  | .notRegistered id => s!"Platform not registered: {id}"
  | .sessionCheck id => s!"Auth check failed for {id}"
  | .fileExists path => s!"Config file already exists: {path}. Use --force to overwrite."
  | .directoryNotMade path => s!"Failed to create directory: {path}"
  | .fileNotWritten path => s!"Failed to write config file: {path}"

namespace Output

/-- The output of a command that has gone well, or has found that something has
not. -/
def ofLines (lines : List String) (well : Bool) : Output :=
  ⟨lines, [], if well then 0 else 1⟩

/-- The output of a command that prints one document. -/
def ofJson (v : Json) (well : Bool) : Output :=
  ofLines [v.indented] well

/-- The output of a command that fails. -/
def ofError (e : CommandError) : Output :=
  ⟨[], ["Error: " ++ e.message], 1⟩

/-- The output after some lines that were printed before. -/
def after (o : Output) (lines : List String) : Output :=
  { o with lines := lines ++ o.lines }

/-- Lines that are printed before change nothing about the code. -/
@[simp] theorem code_after (o : Output) (lines : List String) : (o.after lines).code = o.code := rfl

end Output

/-- What stands around a command: the environment, and where ids and moments come
from. -/
structure Surroundings where
  /-- The variables of the environment. -/
  environment : List (String × String)
  /-- The ids of the tasks that are made. -/
  ids : Uuid × Uuid
  /-- The moment at which the command begins, in nanoseconds after the beginning of
  1970. -/
  start : Nat
deriving DecidableEq, Repr

/-- The moments of the calendar for the moments of a run. -/
def Surroundings.clock (s : Surroundings) (d : Duration) : Timestamp :=
  .ofUnix (s.start + d.nanoseconds)

end Syndication
