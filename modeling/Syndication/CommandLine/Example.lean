import Syndication.CommandLine.Output

/-!
# An example of settings

A file of settings to begin with: the standard settings, and what can be said about
a platform.

Main statements:

* `writeExample`: the command that writes the file.
-/

namespace Syndication

namespace Settings

/-- The lines of the file. -/
def exampleLines : List String :=
  ["# crosspost configuration", "", "[general]", "definitions_dir = \"./platforms\"",
    "log_level = \"info\"", "# Platforms processed per batch", "concurrency = 3",
    "continue_on_error = true",
    "# Extra attempts for network failures, with exponential backoff", "retries = 2",
    "retry_base_delay_ms = 500", "request_timeout_secs = 30",
    "transport = \"http\"  # http, stub", "",
    "# One section per platform id; platforms without a section are enabled.",
    "# [platforms.example]", "# enabled = true", "# cookie_env = \"EXAMPLE_COOKIE\"",
    "# cookie_domain = \"example.com\""]

/-- The text of the file. -/
def exampleText : String :=
  String.join (exampleLines.map (· ++ "\n"))

/-- What is said when the file has been written. -/
def nextSteps (path : String) : List String :=
  [s!"Created config file: {path}", "", "Next steps:",
    "  1. Put platform definitions (*.yaml, *.json) in the definitions directory",
    "  2. Export session cookies and reference them with cookie_env",
    "  3. Run 'crosspost doctor' to validate your setup",
    "  4. Run 'crosspost sync --article post.md --all --draft-only' to test"]

/-- Makes the directory of a file unless something stands there: whether it could
be made. -/
def makeDirectoryOf (path : String) : FileProgram (Except CommandError Unit) := do
  match Files.directory? path with
  | none => return .ok ()
  | some directory =>
    if (← FileProgram.entry directory).isPresent then return .ok ()
    else if ← FileProgram.makeDirectories directory then return .ok ()
    else return .error (.directoryNotMade directory)

/-- **The command** that writes the file. A file that is there is written over only
if that is asked for. -/
def writeExample (path : String) (force : Bool) : FileProgram Output := do
  if (← FileProgram.entry path).isPresent && !force then return .ofError (.fileExists path)
  else
    match ← makeDirectoryOf path with
    | .error e => return .ofError e
    | .ok () =>
      if ← FileProgram.save path exampleText then return .ofLines (nextSteps path) true
      else return .ofError (.fileNotWritten path)

end Settings

end Syndication
