import Syndication.Settings.Layer
import Syndication.Sync.Options
import Syndication.Text.Blank

/-!
# Settings

Where definitions are kept, how articles are published, and what is to be known
about single platforms.

Main statements:

* `ofSetting?`: the settings that layers say.
* `isEnabled_eq`: a platform about which nothing is said is enabled.
-/

namespace Syndication

/-- How requests are sent. -/
inductive TransportKind where
  /-- Over the network. -/
  | http
  /-- Nowhere: every request is answered at once. -/
  | stub
deriving DecidableEq, Repr

/-- The name of a transport. -/
def TransportKind.name : TransportKind → String
  | .http => "http"
  | .stub => "stub"

/-- The transport that a name stands for, in any case. -/
def TransportKind.ofName? (name : String) : Option TransportKind :=
  [TransportKind.http, .stub].find? fun kind => kind.name == Text.toLower name

/-- The transport of a setting: a name, or a group with the name as its only key. -/
def TransportKind.ofSetting? : Setting → Option TransportKind
  | .text name => ofName? name
  | .group [(name, _)] => ofName? name
  | _ => none

/-- What is to be known about a platform. -/
structure PlatformSettings where
  /-- Whether it is published to. -/
  enabled : Bool
  /-- The variable of the environment that holds the cookie of its session. -/
  cookieEnv : Option String
  cookieDomain : Option String
deriving DecidableEq, Repr

namespace PlatformSettings

/-- The settings of a platform about which nothing is said. -/
def standard : PlatformSettings := ⟨true, none, none⟩

/-- The keys, in order. -/
def layout : List String := ["enabled", "cookie_env", "cookie_domain"]

/-- The settings of a platform. -/
def ofSetting? (s : Setting) : Option PlatformSettings := do
  let r ← s.record? layout
  return {
    enabled := ← Setting.withDefault? r "enabled" true Setting.bool?
    cookieEnv := ← Setting.withDefault? r "cookie_env" none fun s => s.text?.map some
    cookieDomain := ← Setting.withDefault? r "cookie_domain" none fun s => s.text?.map some }

/-- The cookie of the session, if the environment holds one that is not blank. -/
def cookie? (p : PlatformSettings) (environment : List (String × String)) : Option String :=
  (p.cookieEnv.bind fun name => List.lookup name environment).filter (!Text.isBlankText ·)

end PlatformSettings

/-- The settings. -/
structure Settings where
  /-- The directory of the definitions. -/
  definitionsDir : String
  /-- What is logged. -/
  logLevel : String
  /-- The platforms of a batch. -/
  concurrency : Nat
  /-- Whether further batches begin after a failure. -/
  continueOnError : Bool
  /-- How often a failure of transport is tried again. -/
  retries : Nat
  /-- The wait before the first further try. -/
  retryBaseDelayMs : Nat
  /-- The longest time that a request may take. -/
  requestTimeoutSecs : Nat
  /-- How requests are sent. -/
  transport : TransportKind
  /-- What is to be known about single platforms. -/
  platforms : KeyMap PlatformSettings
deriving DecidableEq, Repr

namespace Settings

/-- The settings when nothing is said. -/
def standard : Settings := ⟨"./platforms", "info", 3, true, 2, 500, 30, .http, []⟩

instance : Inhabited Settings := ⟨standard⟩

/-- The keys of the group of general settings, in order. -/
def layout : List String :=
  ["definitions_dir", "log_level", "concurrency", "continue_on_error", "retries",
    "retry_base_delay_ms", "request_timeout_secs", "transport"]

/-- The greatest number of 32 bits. -/
def greatestNat32 : Nat := 4294967295

/-- The general settings, with nothing said about single platforms. -/
def general? (s : Setting) : Option Settings := do
  let r ← s.record? layout
  let wide := Setting.nat? Decimal.greatestNat64
  return {
    definitionsDir :=
      ← Setting.withDefault? r "definitions_dir" standard.definitionsDir Setting.text?
    logLevel := ← Setting.withDefault? r "log_level" standard.logLevel Setting.text?
    concurrency := ← Setting.withDefault? r "concurrency" standard.concurrency wide
    continueOnError :=
      ← Setting.withDefault? r "continue_on_error" standard.continueOnError Setting.bool?
    retries :=
      ← Setting.withDefault? r "retries" standard.retries (Setting.nat? greatestNat32)
    retryBaseDelayMs :=
      ← Setting.withDefault? r "retry_base_delay_ms" standard.retryBaseDelayMs wide
    requestTimeoutSecs :=
      ← Setting.withDefault? r "request_timeout_secs" standard.requestTimeoutSecs wide
    transport :=
      ← Setting.withDefault? r "transport" standard.transport TransportKind.ofSetting?
    platforms := [] }

/-- The settings of single platforms. -/
def platforms? : Setting → Option (KeyMap PlatformSettings)
  | .group es => es.mapM fun (id, s) => (PlatformSettings.ofSetting? s).map fun p => (id, p)
  | _ => none

/-- **The settings that layers say.** -/
def ofSetting? (s : Setting) : Option Settings := do
  let general ← match s.find? "general" with
    | some s => general? s
    | none => some standard
  let platforms ← match s.find? "platforms" with
    | some s => platforms? s
    | none => some []
  return { general with platforms }

/-- The settings of a platform. -/
def platform (s : Settings) (id : String) : PlatformSettings :=
  (s.platforms.find? id).getD .standard

/-- Whether a platform is published to. -/
def isEnabled (s : Settings) (id : String) : Bool :=
  (s.platforms.find? id).all (·.enabled)

/-- A platform is enabled if its settings say so. -/
theorem isEnabled_eq (s : Settings) (id : String) : s.isEnabled id = (s.platform id).enabled := by
  unfold isEnabled platform
  cases s.platforms.find? id <;> rfl

/-- The further tries, of which there are at most as many as a sync makes. -/
def allowedRetries (s : Settings) : Nat :=
  min s.retries SyncOptions.maxRetries

/-- The wait before the first further try, which is no longer than the longest. -/
def retryBaseDelay (s : Settings) : Duration :=
  let d := Duration.ofMillis s.retryBaseDelayMs
  if d.atMost SyncOptions.maxRetryDelay then d else SyncOptions.maxRetryDelay

end Settings

end Syndication
