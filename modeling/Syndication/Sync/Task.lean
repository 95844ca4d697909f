import Syndication.Article.Basic
import Syndication.Sync.Outcome
import Syndication.Timestamp
import Syndication.Uuid

/-!
# Tasks

A task is one article for some platforms, with what has become of it there.

Main statements:

* `SyncTask.mergeRetry`: the results of a retry take the place of those of the
  same platforms.
* `find?_fold_self`, `find?_fold_of_ne`: a result that is folded in is the one for
  its platform, and those of the others stay.
* `status_finish_eq_completed_iff`: a task is completed when nothing has failed.
* `SyncTask.toJson`, `SyncTask.ofDocument?`: the document of a task.
-/

namespace Syndication

/-- Where a task stands. -/
inductive SyncStatus where
  /-- It has not begun. -/
  | pending
  /-- It is going on. -/
  | running
  /-- It has ended, and everything went well. -/
  | completed
  /-- It has ended, and something has failed. -/
  | failed
deriving DecidableEq, Repr

namespace SyncStatus

/-- The name in documents. -/
def name : SyncStatus → String
  | .pending => "pending"
  | .running => "running"
  | .completed => "completed"
  | .failed => "failed"

/-- The name that is shown. -/
def shownName : SyncStatus → String
  | .pending => "Pending"
  | .running => "Running"
  | .completed => "Completed"
  | .failed => "Failed"

/-- The status with a name. -/
def ofName? (name : String) : Option SyncStatus :=
  [pending, running, completed, failed].find? (·.name == name)

/-- The status that a document names, alone or as the key of nothing. -/
def ofDocument? : Document → Option SyncStatus
  | .map [(key, .null)] => key.string?.bind ofName?
  | d => d.string?.bind ofName?

end SyncStatus

/-- An outcome with the moment at which it came about. -/
structure SyncResult extends Outcome where
  /-- The moment. -/
  timestamp : Timestamp
deriving DecidableEq, Repr

namespace SyncResult

/-- The document of a result, its members in the order of the fields. -/
def toJson (r : SyncResult) : Json :=
  .object [("platform", .string r.platform), ("success", .bool r.success),
    ("timestamp", .string r.timestamp.text), ("post_id", Json.ofOption r.postId),
    ("post_url", Json.ofOption r.postUrl), ("draft_only", .bool r.draftOnly),
    ("error", Json.ofOption r.error)]

/-- The fields of the document. -/
def layout : List Document.FieldName :=
  [⟨"platform", []⟩, ⟨"success", []⟩, ⟨"timestamp", []⟩, ⟨"post_id", []⟩, ⟨"post_url", []⟩,
    ⟨"draft_only", []⟩, ⟨"error", []⟩]

/-- The moment that a document writes. -/
def timestamp? (d : Document) : Option Timestamp :=
  d.string?.bind Timestamp.parse?

/-- The result that a document describes. -/
def ofDocument? (d : Document) : Option SyncResult := do
  let r ← Document.fullRecord? layout d
  let text? := Document.optional? Document.string?
  return {
    platform := ← r.required? "platform" Document.string?
    success := ← r.required? "success" Document.bool?
    timestamp := ← r.required? "timestamp" timestamp?
    postId := ← r.withDefault? "post_id" none text?
    postUrl := ← r.withDefault? "post_url" none text?
    draftOnly := ← r.required? "draft_only" Document.bool?
    error := ← r.withDefault? "error" none text? }

end SyncResult

/-- One article for some platforms. -/
structure SyncTask where
  id : Uuid
  article : Article
  /-- The platforms, as they were asked for. -/
  platforms : List String
  /-- Where the task stands. -/
  status : SyncStatus
  /-- What has become of the article, in the order in which it came about. -/
  results : List SyncResult
  /-- When the task was made. -/
  createdAt : Timestamp
  /-- When the task has ended. -/
  completedAt : Option Timestamp
deriving DecidableEq, Repr

namespace SyncTask

/-- The result for a platform. -/
def resultFor? (t : SyncTask) (platform : String) : Option SyncResult :=
  t.results.find? (·.platform == platform)

/-- The platforms whose result is a failure, as they were asked for. -/
def failedPlatforms (t : SyncTask) : List String :=
  t.platforms.filter fun platform => (t.resultFor? platform).any (!·.success)

/-- How many results are no failures. -/
def successCount (t : SyncTask) : Nat :=
  t.results.countP (·.success)

/-- The task with one more result. -/
def push (t : SyncTask) (r : SyncResult) : SyncTask :=
  { t with results := t.results ++ [r] }

/-- The task at its end: it is completed when nothing has failed. -/
def finish (t : SyncTask) (moment : Timestamp) : SyncTask :=
  { t with
    status := if t.results.all (·.success) then .completed else .failed
    completedAt := some moment }

/-- A task at its end is completed exactly when nothing has failed. -/
theorem status_finish_eq_completed_iff (t : SyncTask) (moment : Timestamp) :
    (t.finish moment).status = .completed ↔ ∀ r ∈ t.results, r.success = true := by
  simp only [finish]
  split
  · rename_i h
    simpa using h
  · rename_i h
    simpa using h

/-- The results with one in the place of the first for the same platform, or at
the end. -/
def fold (r : SyncResult) : List SyncResult → List SyncResult
  | [] => [r]
  | first :: rest => if first.platform = r.platform then r :: rest else first :: fold r rest

/-- The result for the platform of one that is folded in is that one. -/
theorem find?_fold_self (r : SyncResult) (results : List SyncResult) :
    (fold r results).find? (·.platform == r.platform) = some r := by
  induction results with
  | nil => simp [fold]
  | cons first rest ih =>
    unfold fold
    split
    · simp
    · rename_i h
      simpa [h] using ih

/-- The result for any other platform stays. -/
theorem find?_fold_of_ne {r : SyncResult} {platform : String} (h : r.platform ≠ platform)
    (results : List SyncResult) :
    (fold r results).find? (·.platform == platform) =
      results.find? (·.platform == platform) := by
  induction results with
  | nil => simp [fold, h]
  | cons first rest ih =>
    unfold fold
    split
    · rename_i he
      have hf : first.platform ≠ platform := he ▸ h
      simp [h, hf]
    · simp [List.find?_cons, ih]

/-- The task with the results of a retry. It has ended when the retry has, or
`now`. -/
def mergeRetry (t retry : SyncTask) (now : Timestamp) : SyncTask :=
  let results := retry.results.foldl (fun results r => fold r results) t.results
  { t with results }.finish (retry.completedAt.getD now)

/-! ### Documents -/

/-- The document of a task, its members in the order of the fields. -/
def toJson (t : SyncTask) : Json :=
  .object [("id", .string t.id.text), ("article", .object t.article.members),
    ("platforms", Json.ofStrings t.platforms), ("status", .string t.status.name),
    ("results", .array (t.results.map SyncResult.toJson)),
    ("created_at", .string t.createdAt.text),
    ("completed_at", Json.ofOption (t.completedAt.map Timestamp.text))]

/-- The fields of the document. -/
def layout : List Document.FieldName :=
  [⟨"id", []⟩, ⟨"article", []⟩, ⟨"platforms", []⟩, ⟨"status", []⟩, ⟨"results", []⟩,
    ⟨"created_at", []⟩, ⟨"completed_at", []⟩]

/-- The task that a document describes. -/
def ofDocument? (d : Document) : Option SyncTask := do
  let r ← Document.fullRecord? layout d
  return {
    id := ← r.required? "id" fun d => d.string?.bind Uuid.parse?
    article := ← r.required? "article" Article.ofDocument?
    platforms := ← r.required? "platforms" (Document.list? Document.string?)
    status := ← r.required? "status" SyncStatus.ofDocument?
    results := ← r.required? "results" (Document.list? SyncResult.ofDocument?)
    createdAt := ← r.required? "created_at" SyncResult.timestamp?
    completedAt := ← r.required? "completed_at" (Document.optional? SyncResult.timestamp?) }

end SyncTask

end Syndication
