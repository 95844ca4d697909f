import Syndication.Sync.Run

/-!
# Syncs with a second try

A sync may be followed by one more of the platforms that have failed; its results
take the place of theirs in the task.

Main statements:

* `Publisher.syncTwice`: both syncs.
* `task_of_retry_none`: without a second sync the task is that of the first.
-/

namespace Syndication

/-- A sync and the one of what has failed in it. -/
structure TwoTries where
  first : SyncTask
  /-- The task of the second sync, if there was one. -/
  retry : Option SyncTask
deriving DecidableEq, Repr

namespace TwoTries

/-- The task with the results of both. -/
def task (t : TwoTries) (now : Timestamp) : SyncTask :=
  match t.retry with
  | some retry => t.first.mergeRetry retry now
  | none => t.first

/-- Without a second sync the task is that of the first. -/
theorem task_of_retry_none {t : TwoTries} (h : t.retry = none) (now : Timestamp) :
    t.task now = t.first := by
  simp [task, h]

end TwoTries

/-- **A sync and, if it has failed and a second try is asked for, one of what has
failed.** After a cancellation there is no second try. -/
def Publisher.syncTwice {σ : Type} (p : Publisher σ) (ids : Uuid × Uuid) (a : Article)
    (platforms : List String) (o : SyncOptions) (again : Bool) (cancels : Outcome → Bool)
    (w : World σ) : TwoTries × World σ :=
  let (first, w) := p.sync ids.1 a platforms o cancels w
  if again && first.status == .failed && !w.cancelled then
    let (retry, w) := p.retryFailed ids.2 first o cancels w
    (⟨first, some retry⟩, w)
  else (⟨first, none⟩, w)

end Syndication
