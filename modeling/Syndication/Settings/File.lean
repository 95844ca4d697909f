import Syndication.Files.Path
import Syndication.Files.Program
import Syndication.Settings.Basic
import Syndication.Text.Utf8
import Syndication.Toml.Document

/-!
# Settings in a file and the environment

Settings are read from a file in TOML, if there is one, and from the variables of
the environment whose names begin in a certain way.

Main statements:

* `load`: the settings of a file and an environment.
-/

namespace Syndication

/-- Why there are no settings. -/
inductive SettingsError where
  /-- The file that was asked for is not there. -/
  | missing (path : String)
  /-- The file cannot be read. -/
  | malformed
  /-- A setting has a value that it may not have. -/
  | mistyped
deriving DecidableEq, Repr

/-- The wording of the error. -/
def SettingsError.message : SettingsError → String
  | .missing path => s!"Config file not found: {path}"
  | .malformed => "Failed to build configuration"
  | .mistyped => "Failed to deserialize configuration"

namespace Settings

/-- How the names of the variables begin, in small letters. -/
def variableBeginning : String := "crosspost__"

/-- The file that is read if none is asked for. -/
def defaultPath : String := "./config.toml"

/-- The layer of a file with some bytes. -/
def layer? (content : List UInt8) : Option Setting := do
  let text ← Text.decode? content
  let table ← Toml.table? (String.ofList text)
  return Setting.ofTable table

/-- The settings of the layer of a file and of the variables of the environment. -/
def ofLayers (file : Setting) (environment : List (String × String)) :
    Except SettingsError Settings :=
  match ofSetting? (file.withVariables variableBeginning environment) with
  | some s => .ok s
  | none => .error .mistyped

/-- The settings of a file with some bytes and of the variables of the
environment. -/
def ofFile (content : List UInt8) (environment : List (String × String)) :
    Except SettingsError Settings :=
  match layer? content with
  | some file => ofLayers file environment
  | none => .error .malformed

/-- The file that stands for a directory: its name with the extension of a file of
settings. -/
def fileOfDirectory? (path : String) : Option String :=
  (Files.fileName? path).map fun name =>
    let file := name ++ ".toml"
    match Files.directory? path with
    | some directory => Files.entryPath directory file
    | none => file

/-- **The settings** of a file and of the variables of the environment. A file that
is not asked for need not be there. -/
def load (asked : Option String) (environment : List (String × String)) :
    FileProgram (Except SettingsError Settings) := do
  let path := asked.getD defaultPath
  match ← FileProgram.entry path with
  | .absent =>
    return if asked.isSome then .error (.missing path) else ofLayers .nothing environment
  | .file content =>
    return if Files.extension? path = some "toml" then ofFile content environment
      else .error .malformed
  | .unreadable => return .error .malformed
  | .directory _ =>
    -- a directory itself holds no settings, but a file beside it may
    match fileOfDirectory? path with
    | none => return .error .malformed
    | some path =>
      match ← FileProgram.entry path with
      | .file content => return ofFile content environment
      | _ => return .error .malformed

end Settings

end Syndication
