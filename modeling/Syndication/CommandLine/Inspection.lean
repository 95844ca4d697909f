import Syndication.CommandLine.Output
import Syndication.Registry.Setup
import Syndication.Schedule
import Syndication.Transport.Offline
import Syndication.Workflow.Run

/-!
# Inspecting platforms from the command line

The definitions of a directory are listed or validated, and the session of a platform
is checked.

Main statements:

* `validate_code`: validation goes well exactly when the library has no problems.
-/

namespace Syndication

/-! ### Listing -/

namespace Definition

/-- The lines of a definition in a list. -/
def lines (d : Definition) (s : Settings) : List String :=
  let names (ns : List String) : String := ", ".intercalate ns
  [s!"ID: {d.id}", s!"  Name: {d.displayName}", s!"  Homepage: {d.homepage.text}",
    "  Capabilities: " ++ names (d.capabilities.map (·.name))] ++
    (if d.hooks.isEmpty then [] else ["  Hooks: " ++ names (d.hooks.map (·.name))]) ++
    (if s.isEnabled d.id then [] else ["  Disabled in config"]) ++ [""]

/-- The document of a definition in a list. -/
def listing (d : Definition) (s : Settings) : Json :=
  Json.ofMembers [("id", .string d.id), ("name", .string d.displayName),
    ("homepage", .string d.homepage.text),
    ("capabilities", Json.ofStrings (d.capabilities.map (·.name))),
    ("endpoints", Json.ofStrings d.endpoints.keys), ("enabled", .bool (s.isEnabled d.id))]

end Definition

namespace Library

/-- What is printed as the list of the definitions. -/
def list (l : Library) (s : Settings) (json : Bool) : Output :=
  let ds := l.definitions
  if json then
    Output.ofJson (Json.ofMembers [("count", Json.ofNat ds.length),
      ("platforms", .array (ds.map fun d => d.listing s))]) true
  else
    Output.ofLines ([s!"Platforms ({ds.length} found)", "========================", ""] ++
      ds.flatMap fun d => d.lines s) true

/-- What is printed about the problems of a library. -/
def validate (l : Library) : Output :=
  match l.problems with
  | [] => Output.ofLines [s!"✓ Validation passed ({l.definitions.length} platforms)"] true
  | problems =>
    ⟨[], s!"✗ Validation failed ({problems.length} problem(s))" ::
      problems.map fun p => "  - " ++ p.message, 1⟩

/-- Validation goes well exactly when the library has no problems. -/
theorem validate_code (l : Library) : l.validate.code = 0 ↔ l.problems = [] := by
  unfold validate
  split
  · rename_i h
    simp [h, Output.ofLines]
  · rename_i h
    simp only [Nat.one_ne_zero, false_iff]
    exact h

end Library

/-! ### Checking a session -/

namespace Session

/-- The text of what is known about a user. -/
def fieldText : Json → String
  | .string s => s
  | v => v.compact

/-- What is printed about a session. -/
def output (x : Session) (id : String) (json : Bool) : Output :=
  if json then
    Output.ofJson (Json.ofMembers [("platform", .string id),
      ("authenticated", .bool x.authenticated), ("fields", .object x.fields),
      ("reason", Json.ofOption x.reason)]) x.authenticated
  else if x.authenticated then
    let line (name text : String) : String := s!"  {name}: {text}"
    Output.ofLines (s!"✓ {id}: logged in" ::
      x.fields.map fun (name, v) => line name (fieldText v)) true
  else
    let reason := x.reason.getD "no reason given"
    Output.ofLines [s!"✗ {id}: not logged in ({reason})"] false

end Session

/-- Asks a platform whether the session is logged in. -/
def Platform.askSession (p : Platform) (s : Settings) : Option Session :=
  match (Syndication.run s.transport.transport (.start ()) p.checkSession).1 with
  | some (.ok session) => some session
  | _ => none

/-! ### The commands -/

namespace Inspection

/-- The settings, or the standard ones where there are none. -/
def settingsOrStandard (config : Option String) (around : Surroundings) : FileProgram Settings :=
  return match ← Settings.load config around.environment with
    | .ok s => s
    | .error _ => .standard

/-- The command that lists the definitions of a directory. -/
def list (config directory : Option String) (json : Bool) (around : Surroundings) :
    FileProgram Output := do
  let s ← settingsOrStandard config around
  let directory := directory.getD s.definitionsDir
  match ← Library.load directory with
  | .error _ => return .ofError (.directory directory)
  | .ok l => return l.list s json

/-- The command that validates the definitions of a directory. -/
def validate (config directory : Option String) (around : Surroundings) : FileProgram Output := do
  let s ← settingsOrStandard config around
  let directory := directory.getD s.definitionsDir
  let beginning := [s!"Validating platform definitions in: {directory}"]
  match ← Library.load directory with
  | .error _ => return (Output.ofError (.directory directory)).after beginning
  | .ok l => return l.validate.after beginning

/-- The command that checks the session of a platform. -/
def check (config : Option String) (id : String) (directory : Option String) (json : Bool)
    (around : Surroundings) : FileProgram Output := do
  match ← Settings.load config around.environment with
  | .error e => return .ofError (.settings e)
  | .ok s =>
    let directory := directory.getD s.definitionsDir
    match ← Registry.setUp s directory with
    | .error _ => return .ofError (.directory directory)
    | .ok (registry, _) =>
      match registry.get? id with
      | none => return .ofError (.notRegistered id)
      | some p =>
        match p.askSession s with
        | none => return .ofError (.sessionCheck id)
        | some session => return session.output id json

end Inspection

end Syndication
