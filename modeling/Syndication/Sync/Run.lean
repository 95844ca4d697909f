import Syndication.Registry.Basic
import Syndication.Schedule
import Syndication.Sync.Options
import Syndication.Sync.Task
import Syndication.Workflow.Run

/-!
# Syncs

An article is published to platforms in batches. The platforms of a batch run side
by side; the next batch begins when all of them have ended. A failure of transport
is tried again after a wait.

Main statements:

* `Publisher.publishTo`: one platform, with further tries.
* `Publisher.sync`: a whole sync, as a task.
* `flatten_batches`: the batches are the platforms, in order.
-/

namespace Syndication

/-! ### One platform -/

namespace Platform

/-- Runs a platform up to `remaining` further times while it fails for a reason
that may pass; `made` counts the further tries that have been made. -/
def publishFrom (p : Platform) (k : ContentProcessor) (a : Article) (o : SyncOptions) :
    Nat → Nat → Program Outcome
  | remaining, made => do
    match ← p.run k a o.draftOnly with
    | .ok publication =>
      Program.emit (.platformFinished p.id publication.draftOnly)
      return publication.outcome p.id
    | .error e =>
      let giveUp : Program Outcome := do
        Program.emit (.platformFailed p.id e.message)
        return .failed p.id e.message
      match remaining with
      | 0 => giveUp
      | remaining + 1 =>
        if !e.isRetryable || (← Program.isCancelled) then giveUp
        else
          let delay := o.backoff (made + 1)
          Program.emit (.retrying p.id (made + 1) delay.toMillis e.message)
          if ← Program.pause delay then p.publishFrom k a o remaining (made + 1)
          else return .failed p.id WorkflowError.cancelled.message

end Platform

/-! ### Batches -/

/-- The items in batches of a size, of which the last may be smaller. No batch is
empty. -/
def batches {α : Type} (size : Nat) : List α → List (List α)
  | [] => []
  | x :: rest => (x :: rest.take (size - 1)) :: batches size (rest.drop (size - 1))
termination_by l => l.length

/-- The batches are the items, in order. -/
@[simp] theorem flatten_batches {α : Type} (size : Nat) (l : List α) :
    (batches size l).flatten = l := by
  fun_induction batches size l with
  | case1 => rfl
  | case2 x rest ih => simp [ih]

/-- No batch is larger than its size. -/
theorem length_le_of_mem_batches {α : Type} {size : Nat} {l b : List α} (hs : 0 < size)
    (h : b ∈ batches size l) : b.length ≤ size := by
  fun_induction batches size l with
  | case1 => simp at h
  | case2 x rest ih =>
    rcases List.mem_cons.1 h with h | h
    · subst h
      simp only [List.length_cons, List.length_take]
      omega
    · exact ih h

/-! ### Syncs -/

/-- What a sync works with. -/
structure Publisher (σ : Type) where
  /-- What sends the requests. -/
  transport : Transport σ
  converter : ContentProcessor
  /-- The platforms. -/
  registry : Registry
  /-- The moments of the calendar for the moments of a run. -/
  clock : Duration → Timestamp

namespace Publisher

variable {σ : Type}

/-- **Publishes to one platform**, with further tries. -/
def publishTo (p : Publisher σ) (a : Article) (o : SyncOptions) (id : String) : Program Outcome :=
  match p.registry.get? id with
  | some platform => platform.publishFrom p.converter a o o.allowedRetries 0
  | none => do
    Program.emit (.notRegistered id)
    return .failed id s!"Platform not registered: {id}"

/-- Publishes to one platform of a sync, and tells what has become of it. -/
def publishAndTell (p : Publisher σ) (a : Article) (o : SyncOptions) (id : String) :
    Program Outcome := do
  let outcome ← p.publishTo a o id
  Program.emit (.progress outcome)
  return outcome

/-- Runs a batch: the results in the order in which they came about, and the world
after it. -/
def runBatch (p : Publisher σ) (a : Article) (o : SyncOptions) (cancels : Outcome → Bool)
    (batch : List String) (w : World σ) : List SyncResult × World σ :=
  let (ended, w) := runAll p.transport cancels w (batch.map (p.publishAndTell a o))
  (ended.map fun (moment, outcome) => ⟨outcome, p.clock moment⟩, w)

/-- Runs batches one after another, of which the first has number `number`: the
results, and the world after it. After a cancellation no batch begins, and after a
failure only if the options say so. -/
def runBatches (p : Publisher σ) (a : Article) (o : SyncOptions) (cancels : Outcome → Bool) :
    Nat → List (List String) → World σ → List SyncResult × World σ
  | _, [], w => ([], w)
  | number, batch :: rest, w =>
    if w.cancelled then ([], w.report (.batchesCancelled number))
    else
      let (results, w) :=
        p.runBatch a o cancels batch (w.report (.batchStarted number batch.length))
      if results.any (!·.success) && !o.continueOnError then
        (results, w.report (.batchesStopped number))
      else
        let (others, w) := p.runBatches a o cancels (number + 1) rest w
        (results ++ others, w)

/-- Batches of which the first is run. -/
theorem runBatches_cons {p : Publisher σ} {a : Article} {o : SyncOptions} {cancels : Outcome → Bool}
    {number : Nat} {batch : List String} {rest : List (List String)} {w w' : World σ}
    {results : List SyncResult} (hw : w.cancelled = false)
    (h : p.runBatch a o cancels batch (w.report (.batchStarted number batch.length)) =
      (results, w')) :
    p.runBatches a o cancels number (batch :: rest) w =
      if results.any (!·.success) && !o.continueOnError then
        (results, w'.report (.batchesStopped number))
      else
        (results ++ (p.runBatches a o cancels (number + 1) rest w').1,
          (p.runBatches a o cancels (number + 1) rest w').2) := by
  rw [runBatches, if_neg (Bool.not_eq_true _ ▸ hw), h]

/-- **A sync**: the task with its results, and the world after it. An outcome may
fire the cancellation. -/
def sync (p : Publisher σ) (id : Uuid) (a : Article) (platforms : List String) (o : SyncOptions)
    (cancels : Outcome → Bool) (w : World σ) : SyncTask × World σ :=
  let createdAt := p.clock w.now
  let w := w.report (.syncStarted platforms.length o.concurrency)
  let (results, w) := p.runBatches a o cancels 1 (batches o.batchSize platforms) w
  let task := SyncTask.finish ⟨id, a, platforms, .running, results, createdAt, none⟩ (p.clock w.now)
  (task, w.report (.syncFinished task.status.shownName task.successCount task.results.length))

/-- A sync of the platforms of a task whose result is a failure. -/
def retryFailed (p : Publisher σ) (id : Uuid) (task : SyncTask) (o : SyncOptions)
    (cancels : Outcome → Bool) (w : World σ) : SyncTask × World σ :=
  p.sync id task.article task.failedPlatforms o cancels w

end Publisher

end Syndication
