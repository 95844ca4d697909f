import Syndication.Registry.Setup
import Syndication.Settings.File

/-!
# Diagnoses

A diagnosis tells whether all is ready for a sync: the settings, the definitions,
the transport, and the cookie of each enabled platform.

Main statements:

* `overall_eq_ok_iff`: all is well exactly when every check is.
-/

namespace Syndication

/-- What came of a check. -/
inductive CheckStatus where
  /-- All is well. -/
  | ok
  /-- Something may be missing. -/
  | warn
  /-- Nothing can be done like this. -/
  | error
deriving DecidableEq, Repr

namespace CheckStatus

/-- The name of the status. -/
def name : CheckStatus → String
  | .ok => "ok"
  | .warn => "warn"
  | .error => "error"

/-- The mark of the status. -/
def mark : CheckStatus → String
  | .ok => "✓"
  | .warn => "⚠"
  | .error => "✗"

end CheckStatus

/-- A check. -/
structure Check where
  /-- What came of it. -/
  status : CheckStatus
  /-- What is said about it. -/
  message : String
  /-- What was found. -/
  details : Option Json
deriving DecidableEq, Repr

namespace Check

/-- A check of what is well. -/
def ok (message : String) : Check := ⟨.ok, message, none⟩

/-- A check of what may be missing something. -/
def warn (message : String) : Check := ⟨.warn, message, none⟩

/-- A check of what cannot be used. -/
def error (message : String) : Check := ⟨.error, message, none⟩

/-- A check that was not made. -/
def notMade : Check := error "Not checked"

/-- The document of a check, its members in the order of the fields. -/
def toJson (c : Check) : Json :=
  .object [("status", .string c.status.name), ("message", .string c.message),
    ("details", c.details.getD .null)]

end Check

/-- A diagnosis. -/
structure Diagnosis where
  settings : Check
  definitions : Check
  transport : Check
  /-- The checks of the enabled platforms, by id. -/
  platforms : KeyMap Check
deriving DecidableEq, Repr

namespace Diagnosis

/-- The checks of what every platform needs. -/
def common (d : Diagnosis) : List Check :=
  [d.settings, d.definitions, d.transport]

/-- All checks. -/
def checks (d : Diagnosis) : List Check :=
  d.common ++ d.platforms.map (·.2)

/-- **What comes of all checks.** What is wrong with a single platform is no error. -/
def overall (d : Diagnosis) : CheckStatus :=
  if d.common.any (·.status == .error) then .error
  else if d.checks.all (·.status == .ok) then .ok
  else .warn

/-- All is well exactly when every check is. -/
theorem overall_eq_ok_iff (d : Diagnosis) :
    d.overall = .ok ↔ ∀ c ∈ d.checks, c.status = .ok := by
  unfold overall
  constructor
  · intro h
    split at h
    · simp at h
    · split at h
      · rename_i hall
        simpa using hall
      · simp at h
  · intro h
    have hall : d.checks.all (·.status == .ok) = true := by simpa using h
    have hnone : d.common.any (·.status == .error) = false := by
      rw [List.any_eq_false]
      intro c hc
      have := h c (List.mem_append_left _ hc)
      simp [this]
    simp [hall, hnone]

/-- The document of a diagnosis, its members in the order of the fields. -/
def toJson (d : Diagnosis) : Json :=
  .object [("config", d.settings.toJson), ("definitions", d.definitions.toJson),
    ("transport", d.transport.toJson), ("platforms", .object (d.platforms.mapValues Check.toJson)),
    ("overall", .string d.overall.name)]

/-! ### The checks -/

/-- The check of settings. -/
def checkSettings : Except SettingsError Settings → Check
  | .ok s => .ok s!"Configuration loaded (log level {s.logLevel})"
  | .error e => .error s!"Failed to load config: {e.message}"

/-- The check of a library. -/
def checkLibrary (l : Library) : Check :=
  let (valid, invalid) := (l.definitions, l.errors)
  let check : Check :=
    if valid.isEmpty && invalid.isEmpty then .error s!"No definitions found in {l.directory}"
    else if invalid.isEmpty then .ok s!"{valid.length} definitions loaded"
    else .warn s!"{valid.length} definitions loaded, {invalid.length} invalid"
  { check with
    details := some (Json.ofMembers [("dir", .string l.directory),
      ("ids", Json.ofStrings (valid.map (·.id))),
      ("invalid", Json.ofStrings (invalid.map (·.message)))]) }

/-- The check of a directory of definitions. -/
def checkDirectory (directory : String) : Except DefinitionError Library → Check
  | .ok l => checkLibrary l
  | .error e => .error (": ".intercalate [s!"Failed to open definitions directory: {directory}",
      e.message, s!"Definitions directory not found: {directory}"])

/-- The check of the transport. -/
def checkTransport (s : Settings) : Check :=
  match s.transport with
  | .stub => .warn "Stub transport: requests never leave this machine"
  | .http => .ok s!"HTTP transport, timeout {s.requestTimeoutSecs}s"

/-- The check of a platform. -/
def checkPlatform (s : Settings) (environment : List (String × String)) (d : Definition) : Check :=
  let p := s.platform d.id
  match p.cookieEnv with
  | none => .warn "No cookie_env configured; relying on the cookie store"
  | some name =>
    if (p.cookie? environment).isSome then
      let domain := p.cookieDomain.getD d.homepage.host.text
      .ok s!"Cookie: {name} (set), domain: {domain}"
    else .warn s!"Cookie: {name} (not set)"

/-- The checks of the enabled platforms of a library. -/
def checkPlatforms (s : Settings) (environment : List (String × String)) (l : Library) :
    KeyMap Check :=
  KeyMap.ofEntries ((l.enabled s).map fun d => (d.id, checkPlatform s environment d))

/-- **The diagnosis** for some settings and what came of reading the definitions. -/
def ofLibrary (s : Settings) (environment : List (String × String)) (directory : String)
    (found : Except DefinitionError Library) : Diagnosis where
  settings := checkSettings (.ok s)
  definitions := checkDirectory directory found
  transport := checkTransport s
  platforms := match found with
    | .ok l => checkPlatforms s environment l
    | .error _ => []

/-- The diagnosis without settings: nothing else is checked. -/
def ofSettingsError (e : SettingsError) : Diagnosis :=
  ⟨checkSettings (.error e), .notMade, .notMade, []⟩

end Diagnosis

end Syndication
