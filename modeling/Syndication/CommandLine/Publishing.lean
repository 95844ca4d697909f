import Syndication.CommandLine.Arguments
import Syndication.CommandLine.Output
import Syndication.Registry.Setup
import Syndication.Sync.SecondTry
import Syndication.Transport.Offline

/-!
# Publishing from the command line

An article is published to some platforms or to all that are enabled. While it is
published a line is printed for each result, and at the end a summary; or the task is
printed as one document.

Main statements:

* `TwoTries.output_code`: the code tells whether the task has failed.
* `SyncRequest.run`: the command.
-/

namespace Syndication

/-! ### Texts -/

/-- The line for a result. -/
def SyncResult.line (r : SyncResult) : String :=
  if !r.success then
    let reason := r.error.getD "unknown error"
    s!"✗ {r.platform}: {reason}"
  else
    let kind := if r.draftOnly then "draft saved" else "published"
    match r.postUrl.filter (· != "") with
    | some url => s!"✓ {r.platform}: {kind} {url}"
    | none => s!"✓ {r.platform}: {kind}"

namespace SyncTask

/-- The platforms without a result. -/
def notAttempted (t : SyncTask) : List String :=
  t.platforms.filter fun platform => (t.resultFor? platform).isNone

/-- The seconds that a span takes, rounded to one place. -/
def secondsText (nanoseconds : Nat) : String :=
  -- half a tenth rounds up
  let tenths := (nanoseconds + 50000000) / 100000000
  s!"{tenths / 10}.{tenths % 10}s"

/-- The lines of a summary. -/
def summary (t : SyncTask) : List String :=
  let skipped := t.notAttempted
  let elapsed := match t.completedAt with
    | some moment =>
      let seconds := secondsText (moment.nanosecondsSince t.createdAt)
      [s!"Finished in {seconds}"]
    | none => []
  let mark := if t.status == .completed then "✓" else "✗"
  ["", s!"Sync {t.id.text}", "========================================",
    s!"{t.successCount}/{t.platforms.length} platforms succeeded"] ++
    (if skipped.isEmpty then [] else ["Not attempted: " ++ ", ".intercalate skipped]) ++
    elapsed ++ [s!"{mark} Status: {t.status.shownName}"]

end SyncTask

/-- What is said before a second try. -/
def retryLine (failed : List String) : String :=
  let names := ", ".intercalate failed
  s!"Retrying {failed.length} failed platform(s): {names}"

namespace TwoTries

/-- The lines that are printed while an article is published. -/
def progressLines (t : TwoTries) : List String :=
  t.first.results.map SyncResult.line ++
    match t.retry with
    | some retry => retryLine t.first.failedPlatforms :: retry.results.map SyncResult.line
    | none => []

/-- What is printed about a sync. -/
def output (t : TwoTries) (json : Bool) (now : Timestamp) : Output :=
  let task := t.task now
  let well := task.status != .failed
  if json then Output.ofJson task.toJson well
  else Output.ofLines (t.progressLines ++ task.summary) well

/-- The code tells whether the task has failed. -/
theorem output_code (t : TwoTries) (json : Bool) (now : Timestamp) :
    (t.output json now).code = if (t.task now).status = .failed then 1 else 0 := by
  unfold output
  cases json <;> by_cases h : (t.task now).status = .failed <;>
    simp [Output.ofJson, Output.ofLines, h]

end TwoTries

/-! ### The command -/

namespace SyncRequest

/-- The options of the sync. -/
def options (r : SyncRequest) (s : Settings) : SyncOptions where
  concurrency := max (r.concurrency.getD s.concurrency) 1
  continueOnError := s.continueOnError && !r.stopOnError
  draftOnly := r.draftOnly
  retries := s.allowedRetries
  retryBaseDelay := s.retryBaseDelay

/-- The platforms that are meant. -/
def targets (r : SyncRequest) (registry : Registry) : List String :=
  if r.all then registry.ids else r.platforms

/-- Publishes an article: both syncs, and the moment at which they have ended. -/
def publish (r : SyncRequest) (s : Settings) (around : Surroundings) (registry : Registry)
    (a : Article) : TwoTries × Timestamp :=
  let p : Publisher Unit := ⟨s.transport.transport, .basic, registry, around.clock⟩
  let (tries, w) := p.syncTwice around.ids a (r.targets registry) (r.options s) r.retryFailedOnce
    (fun _ => false) (.start ())
  (tries, around.clock w.now)

/-- **The command.** -/
def run (r : SyncRequest) (config : Option String) (around : Surroundings) :
    FileProgram Output := do
  match ← Settings.load config around.environment with
  | .error e => return .ofError (.settings e)
  | .ok s =>
    match ← Article.load r.article with
    | .error e => return .ofError (.article e)
    | .ok a =>
      let directory := r.directory.getD s.definitionsDir
      match ← Registry.setUp s directory with
      | .error _ => return .ofError (.directory directory)
      | .ok (registry, _) =>
        if (r.targets registry).isEmpty then return .ofError (.noPlatforms directory)
        else
          let (tries, now) := r.publish s around registry a
          return tries.output r.json now

end SyncRequest

end Syndication
