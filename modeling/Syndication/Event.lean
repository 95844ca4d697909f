import Syndication.Context
import Syndication.Definition.Basic
import Syndication.Sync.Outcome
import Syndication.Workflow.State

/-!
# Events

What is reported while articles are published, definitions are loaded and
platforms are registered. An event has a level, a message and named texts.

Not every event is written to the log. What a run begins and ends to do, and what a
sync tells of an outcome, stand in the journal of a run only.

Main statement:

* `isLogged_iff`: the log holds what is of interest, and every change of state.
-/

namespace Syndication

/-- How grave an event is. -/
inductive Event.Level where
  /-- Of interest when something is looked into. -/
  | debug
  /-- A step in the ordinary course of things. -/
  | info
  /-- Something went wrong and was worked around. -/
  | warn
  /-- Something went wrong that should not. -/
  | error
deriving DecidableEq, Repr

/-- Something that is reported. -/
inductive Event where
  /-- A run has gone from one state to the next. -/
  | transition (platform : String) (source target : WorkflowState)
  | runFailed (platform : String) (source : WorkflowState) (error : String)
  /-- A run has seen between two states that it is cancelled. -/
  | cancelled (platform : String) (state : WorkflowState)
  /-- A run has seen before an upload that it is cancelled. -/
  | cancelledBeforeUpload (platform image : String)
  /-- A run has seen during an upload that it is cancelled. -/
  | cancelledDuringUpload (platform image : String)
  /-- An image of the content could not be uploaded. -/
  | imageKept (platform image error : String)
  /-- The cover image could not be uploaded. -/
  | coverDropped (platform cover error : String)
  /-- A run was broken off by a fault. -/
  | runPanicked (platform error : String)
  /-- The endpoint of a state is about to be executed in a context. -/
  | executing (platform : String) (state : WorkflowState) (endpoint : Endpoint) (context : Context)
  /-- The endpoint of a state has been executed: what it has extracted, unless it
  has failed. -/
  | executed (platform : String) (state : WorkflowState) (outputs : Option (KeyMap Json))
  /-- An image is about to be uploaded. -/
  | uploading (platform image : String)
  /-- An outcome is told while a sync goes on. -/
  | progress (outcome : Outcome)
  /-- A platform is not known. -/
  | notRegistered (platform : String)
  /-- A platform has been published to. -/
  | platformFinished (platform : String) (draftOnly : Bool)
  /-- A platform could not be published to. -/
  | platformFailed (platform error : String)
  /-- A platform will be tried again. -/
  | retrying (platform : String) (attempt delayMs : Nat) (error : String)
  /-- A sync begins. -/
  | syncStarted (platforms concurrency : Nat)
  /-- A batch begins. -/
  | batchStarted (batch size : Nat)
  /-- No further batch begins because of a cancellation. -/
  | batchesCancelled (batch : Nat)
  /-- No further batch begins because of a failure. -/
  | batchesStopped (batch : Nat)
  /-- A sync has ended. -/
  | syncFinished (status : String) (succeeded finished : Nat)
  /-- A platform could not be registered. -/
  | platformSkipped (platform error : String)
  /-- A directory of definitions has been read. -/
  | definitionsLoaded (directory : String) (total valid : Nat)
  /-- A definition is left out. -/
  | definitionSkipped (error : String)
deriving DecidableEq, Repr

namespace Event

/-- How grave the event is. -/
def level : Event → Level
  | .transition .. | .runFailed .. | .executing .. | .executed .. | .uploading .. | .progress .. =>
    .debug
  | .cancelled .. | .cancelledBeforeUpload .. | .cancelledDuringUpload .. | .platformFinished .. |
    .syncStarted .. | .batchStarted .. | .batchesCancelled .. | .batchesStopped .. |
    .syncFinished .. | .definitionsLoaded .. => .info
  | .imageKept .. | .coverDropped .. | .notRegistered .. | .platformFailed .. | .retrying .. |
    .platformSkipped .. | .definitionSkipped .. => .warn
  | .runPanicked .. => .error

/-- What is said. -/
def message : Event → String
  | .transition .. | .runFailed .. => "Workflow transition"
  | .executing .. => "Executing endpoint"
  | .executed .. => "Executed endpoint"
  | .uploading .. => "Uploading image"
  | .progress .. => "Progress"
  | .cancelled .. => "Cancellation observed"
  | .cancelledBeforeUpload .. => "Cancellation observed before upload"
  | .cancelledDuringUpload .. => "Cancellation observed during upload"
  | .imageKept .. => "Image upload failed, keeping original URL"
  | .coverDropped .. => "Cover upload failed, publishing without cover"
  | .runPanicked .. => "Workflow panicked"
  | .notRegistered .. => "Platform not registered"
  | .platformFinished .. => "Platform finished"
  | .platformFailed .. => "Platform failed"
  | .retrying .. => "Transport error, retrying"
  | .syncStarted .. => "Starting sync"
  | .batchStarted .. => "Starting batch"
  | .batchesCancelled .. => "Cancellation observed, not scheduling further batches"
  | .batchesStopped .. => "Batch had failures, stopping"
  | .syncFinished .. => "Sync finished"
  | .platformSkipped .. => "Skipping platform"
  | .definitionsLoaded .. => "Loaded adapter definitions"
  | .definitionSkipped .. => "Skipping invalid adapter definition"

/-- The named texts that go with the message. -/
def fields : Event → List (String × String)
  | .transition platform source target =>
    [("platform", platform), ("from", source.name), ("to", target.name)]
  | .runFailed platform source error =>
    [("platform", platform), ("from", source.name), ("to", WorkflowState.failed.name),
      ("error", error)]
  | .cancelled platform state => [("platform", platform), ("state", state.name)]
  | .cancelledBeforeUpload platform image | .cancelledDuringUpload platform image =>
    [("platform", platform), ("image", image)]
  | .executing platform state endpoint _ =>
    [("platform", platform), ("state", state.name), ("endpoint", endpoint.name)]
  | .executed platform state outputs =>
    [("platform", platform), ("state", state.name),
      ("success", if outputs.isSome then "true" else "false")]
  | .uploading platform image => [("platform", platform), ("image", image)]
  | .progress outcome =>
    [("platform", outcome.platform), ("success", if outcome.success then "true" else "false")]
  | .imageKept platform image error =>
    [("platform", platform), ("image", image), ("error", error)]
  | .coverDropped platform cover error =>
    [("platform", platform), ("cover", cover), ("error", error)]
  | .runPanicked platform error => [("platform", platform), ("error", error)]
  | .notRegistered platform => [("platform", platform)]
  | .platformFinished platform draftOnly =>
    [("platform", platform), ("draft_only", if draftOnly then "true" else "false")]
  | .platformFailed platform error => [("platform", platform), ("error", error)]
  | .retrying platform attempt delayMs error =>
    [("platform", platform), ("attempt", s!"{attempt}"), ("delay_ms", s!"{delayMs}"),
      ("error", error)]
  | .syncStarted platforms concurrency =>
    [("platforms", s!"{platforms}"), ("concurrency", s!"{concurrency}")]
  | .batchStarted batch size => [("batch", s!"{batch}"), ("size", s!"{size}")]
  | .batchesCancelled batch | .batchesStopped batch => [("batch", s!"{batch}")]
  | .syncFinished status succeeded finished =>
    [("status", status), ("succeeded", s!"{succeeded}"), ("finished", s!"{finished}")]
  | .platformSkipped platform error => [("platform", platform), ("error", error)]
  | .definitionsLoaded directory total valid =>
    [("dir", directory), ("total", s!"{total}"), ("valid", s!"{valid}")]
  | .definitionSkipped error => [("error", error)]

/-- Whether the event is written to the log. -/
def isLogged : Event → Bool
  | .executing .. | .executed .. | .uploading .. | .progress .. => false
  | _ => true

/-- The log holds what is of interest, and every change of state. -/
theorem isLogged_iff (e : Event) :
    e.isLogged = true ↔ e.level ≠ .debug ∨ e.message = "Workflow transition" := by
  cases e <;> simp [isLogged, level, message]

end Event

end Syndication
