import Syndication.CommandLine.Output
import Syndication.Diagnosis

/-!
# Readiness

Whether all is ready for a sync is told as a report or as a document.

Main statements:

* `Diagnosis.take`: the diagnosis that is told.
* `Diagnosis.output_code`: the code tells whether there is an error.
-/

namespace Syndication

/-- The line of a check. -/
def Check.line (c : Check) (name : String) : String :=
  s!"{c.status.mark} {name}: {c.message}"

namespace Diagnosis

/-- The lines of a report. -/
def lines (d : Diagnosis) : List String :=
  let overall := Text.toAsciiUpper d.overall.name
  ["crosspost Doctor Report", "=======================", "", d.settings.line "Config",
    d.definitions.line "Definitions", d.transport.line "Transport"] ++
    d.platforms.map (fun (id, c) => c.line s!"Platform {id}") ++
    ["", s!"{d.overall.mark} Overall: {overall}"] ++
    (if d.overall == .ok then
      ["", "Ready to go! Try: crosspost sync --article post.md --all --draft-only"]
    else [])

/-- What is printed about a diagnosis. -/
def output (d : Diagnosis) (json : Bool) : Output :=
  let well := d.overall != .error
  if json then Output.ofJson d.toJson well else Output.ofLines d.lines well

/-- The code tells whether there is an error. -/
theorem output_code (d : Diagnosis) (json : Bool) :
    (d.output json).code = if d.overall = .error then 1 else 0 := by
  unfold output
  cases json <;> by_cases h : d.overall = .error <;> simp [Output.ofJson, Output.ofLines, h]

/-- **The diagnosis** for what stands in files and in the environment. -/
def take (config directory : Option String) (around : Surroundings) : FileProgram Diagnosis := do
  match ← Settings.load config around.environment with
  | .error e => return ofSettingsError e
  | .ok s =>
    let directory := directory.getD s.definitionsDir
    let found ← Library.load directory
    return ofLibrary s around.environment directory found

/-- The command that tells whether all is ready. -/
def command (config directory : Option String) (json : Bool) (around : Surroundings) :
    FileProgram Output :=
  return (← take config directory around).output json

end Diagnosis

end Syndication
