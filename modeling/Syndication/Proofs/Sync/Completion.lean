import Syndication.CommandLine.Publishing
import Syndication.Proofs.Sync.Rollout
import Syndication.Transport.Scripted

/-!
# What it means that a task is completed

A sync may be followed by one more of what has failed in it. When the task is completed after
both, every platform that the first sync has attempted has a good result. A platform of a
batch that never began has none: the second sync is one of failures, and a platform that was
not attempted has not failed.

Main statements:

* `Publisher.completed_of_syncTwice`: which platforms have a good result in a task that is
  completed.
* `StoppedSync.completed_without_result`: a platform that was asked for need not have one.
-/

namespace Syndication

/-! ### Merging -/

namespace SyncTask

/-- Whose results there are after one more is folded in. -/
theorem mem_map_platform_fold {platform : String} (r : SyncResult) (results : List SyncResult) :
    platform ∈ (fold r results).map (·.platform) ↔
      platform = r.platform ∨ platform ∈ results.map (·.platform) := by
  induction results with
  | nil => simp [fold]
  | cons first rest ih =>
    unfold fold
    split
    · rename_i he
      rw [List.map_cons, List.map_cons, List.mem_cons, List.mem_cons, he]
      tauto
    · rw [List.map_cons, List.map_cons, List.mem_cons, List.mem_cons, ih]
      tauto

theorem mem_map_platform_foldl {platform : String} (retried results : List SyncResult) :
    platform ∈ (retried.foldl (fun results r => fold r results) results).map (·.platform) ↔
      platform ∈ results.map (·.platform) ∨ platform ∈ retried.map (·.platform) := by
  induction retried generalizing results with
  | nil => simp
  | cons r retried ih =>
    rw [List.foldl_cons, ih, mem_map_platform_fold, List.map_cons, List.mem_cons]
    tauto

/-- What has failed has a result. -/
theorem mem_map_platform_of_mem_failedPlatforms {t : SyncTask} {platform : String}
    (h : platform ∈ t.failedPlatforms) : platform ∈ t.results.map (·.platform) := by
  obtain ⟨r, hr, -⟩ := (Option.any_eq_true _ _).1 (List.mem_filter.1 h).2
  refine List.mem_map.2 ⟨r, List.mem_of_find?_eq_some hr, ?_⟩
  simpa using List.find?_some hr

end SyncTask

/-! ### Both syncs -/

namespace Publisher

open Rollout

section Goes

variable {σ : Type} {p : Publisher σ} {a : Article} {o : SyncOptions} {platforms : List String}
  {w w' : World σ} {task : SyncTask} {r : Rollout}

/-- The platforms with a result are those of the batches that have begun. -/
theorem Goes.perm_platforms (h : p.Goes a o platforms w task w' r) :
    (task.results.map (·.platform)).Perm (r.past.map Group.batch).flatten := by
  obtain ⟨new, -, hl⟩ := h.lawful
  obtain ⟨journal, _, _, _, hphase, -⟩ := h.closed
  have hp := perm_of_past hl.past
  have hresults := congrArg (List.map (·.platform)) h.results
  rw [map_platform_outcomes, hphase, List.map_map] at hresults
  exact (hresults.trans (List.append_nil _)) ▸ hp

/-- The batches that have begun and those that have not are all. -/
theorem Goes.turns (h : p.Goes a o platforms w task w' r) :
    r.past.map Group.batch ++ r.pending = batches o.batchSize platforms := by
  obtain ⟨new, -, hl⟩ := h.lawful
  obtain ⟨journal, _, _, _, hphase, -⟩ := h.closed
  have hturns := hl.turns
  rw [hphase] at hturns
  simpa [Phase.batch?] using hturns

/-- Only platforms that were asked for have a result. -/
theorem Goes.mem_platforms (h : p.Goes a o platforms w task w' r) {platform : String}
    (hp : platform ∈ task.results.map (·.platform)) : platform ∈ platforms := by
  rw [← flatten_batches o.batchSize platforms, ← h.turns, List.flatten_append]
  exact List.mem_append_left _ (h.perm_platforms.mem_iff.1 hp)

/-- A sync that was not cancelled leaves batches out only when it has failed. -/
theorem Goes.stops (h : p.Goes a o platforms w task w' r) (hw : w'.cancelled = false)
    (hn : r.pending ≠ []) : ∃ g ∈ r.past.getLast?, g.Stops o := by
  obtain ⟨new, -, hl⟩ := h.lawful
  obtain ⟨journal, _, _, _, hphase, -⟩ := h.closed
  refine ((hl.closed _ _ hphase).resolve_left hn).resolve_left fun hc => ?_
  rw [hw] at hc
  cases hc.1

/-- A sync that has failed is not completed. -/
theorem Goes.not_completed_of_stops (h : p.Goes a o platforms w task w' r)
    (hs : ∃ g ∈ r.past.getLast?, g.Stops o) : task.status ≠ .completed := by
  obtain ⟨outcome, ho, hf⟩ := exists_failure_of_stops hs
  intro hcompleted
  rw [← h.results] at ho
  obtain ⟨result, hresult, rfl⟩ := List.mem_map.1 ho
  rw [h.status.1 hcompleted result hresult] at hf
  cases hf

end Goes

section TwoTries

variable {σ : Type} (p : Publisher σ) {ids : Uuid × Uuid} {a : Article} {platforms : List String}
  {o : SyncOptions} {again : Bool} {cancels : Outcome → Bool} {w w' : World σ} {tries : TwoTries}

/-- Both syncs are rollouts, and the second is one of what has failed in the first. -/
theorem goes_of_syncTwice (h : p.syncTwice ids a platforms o again cancels w = (tries, w')) :
    ∃ r w₁, p.Goes a o platforms w tries.first w₁ r ∧ tries.first.platforms = platforms ∧
      ((tries.retry = none ∧ w₁ = w') ∨ ∃ retry r', tries.retry = some retry ∧
        tries.first.status ≠ .completed ∧
        p.Goes tries.first.article o tries.first.failedPlatforms w₁ retry w' r') := by
  obtain ⟨r, hgoes⟩ := p.exists_goes_of_sync a o cancels ids.1 platforms w
  have hplatforms : (p.sync ids.1 a platforms o cancels w).1.platforms = platforms := rfl
  rw [syncTwice] at h
  -- the first sync is now any with these properties; what follows looks at its task alone
  generalize p.sync ids.1 a platforms o cancels w = first at hgoes hplatforms h
  obtain ⟨first, w₁⟩ := first
  simp only at hgoes hplatforms h
  split at h
  · rename_i hagain
    simp only [Bool.and_eq_true, beq_iff_eq] at hagain
    obtain ⟨r', hgoes'⟩ :=
      p.exists_goes_of_sync first.article o cancels ids.2 first.failedPlatforms w₁
    cases h
    exact ⟨r, w₁, hgoes, hplatforms, .inr ⟨_, r', rfl, by simp [hagain.1.2], hgoes'⟩⟩
  · cases h
    exact ⟨r, _, hgoes, hplatforms, .inl ⟨rfl, rfl⟩⟩

/-- A second try changes nothing in which platforms have a result. -/
theorem mem_map_platform_task (now : Timestamp)
    (h : p.syncTwice ids a platforms o again cancels w = (tries, w')) (platform : String) :
    platform ∈ (tries.task now).results.map (·.platform) ↔
      platform ∈ tries.first.results.map (·.platform) := by
  obtain ⟨r, w₁, -, -, ⟨hnone, -⟩ | ⟨retry, r', hretry, -, hgoes'⟩⟩ := p.goes_of_syncTwice h
  · rw [TwoTries.task_of_retry_none hnone]
  · have htask : (tries.task now).results = retry.results.foldl
        (fun results r => SyncTask.fold r results) tries.first.results := by
      rw [TwoTries.task, hretry]
      rfl
    rw [htask, SyncTask.mem_map_platform_foldl]
    -- the second sync is one of platforms that have a result already
    refine or_iff_left_of_imp fun hp => ?_
    exact SyncTask.mem_map_platform_of_mem_failedPlatforms (hgoes'.mem_platforms hp)

/-- A task that is completed has good results alone. -/
theorem success_of_completed (now : Timestamp)
    (h : p.syncTwice ids a platforms o again cancels w = (tries, w'))
    (hs : (tries.task now).status = .completed) :
    ∀ result ∈ (tries.task now).results, result.success = true := by
  obtain ⟨r, w₁, hgoes, -, ⟨hnone, -⟩ | ⟨retry, r', hretry, -, -⟩⟩ := p.goes_of_syncTwice h
  · rw [TwoTries.task_of_retry_none hnone] at hs ⊢
    exact hgoes.status.1 hs
  · rw [TwoTries.task, hretry] at hs ⊢
    exact (SyncTask.status_finish_eq_completed_iff _ _).1 hs

end TwoTries

end Publisher

/-! ### A sync that stops early

Two platforms, one at a time, and the first refuses the session when it is asked for the first
time. The sync stops there. The second sync is one of the first platform alone and goes well,
so the task is completed, and the second platform was never attempted. -/

namespace StoppedSync

/-- An endpoint without a body. -/
def endpoint (id name : String) (method : Method) : Endpoint where
  name
  url := "https://" ++ id ++ ".test/" ++ name
  method
  headers := []
  encoding := .json
  body := none
  acceptStatus := []
  response := ⟨none, none, []⟩

theorem provided_nil : ∀ hook ∈ ([] : List Hook), Hooks.absent.provides hook = true :=
  List.forall_mem_nil _

/-- A platform that checks the session and makes the post public. -/
def platform (id : String) : Platform where
  definition :=
    { id
      displayName := id
      icon := none
      homepage := ⟨true, "", none, .domain (id ++ ".test"), none, [""], none, none⟩
      capabilities := [.article]
      contentFormat := .markdown
      auth := endpoint id "auth" .get
      endpoints := [("publish", endpoint id "publish" .post)]
      draftUrl := none
      postUrl := none
      requestDelayMs := none
      hooks := [] }
  hooks := .absent
  provided := provided_nil

def moment : Timestamp := ⟨2024, 1, 1, 0, 0, 0, 0, 0⟩

def publisher : Publisher (List Route) where
  transport := .scripted
  converter := .basic
  registry := (Registry.empty.put (platform "alpha")).put (platform "beta")
  clock _ := moment

def article : Article :=
  { Article.empty with title := "Hello", markdown := some "Body" }

def options : SyncOptions :=
  { SyncOptions.standard with concurrency := 1, continueOnError := false, retries := 0 }

/-- The first session of the first platform is refused. -/
def world : World (List Route) :=
  .start [⟨none, "alpha.test/auth", some 1, .zero, .answer (.ofText 401 "")⟩]

/-- The first platform is published to, alone. -/
def alone (w : World (List Route)) : Halt Outcome × World (List Route) :=
  advance publisher.transport (publisher.publishAndTell article options "alpha") none w

theorem runBatch_alone {w : World (List Route)} {outcome : Outcome}
    (h : (alone w).1.value? = some outcome) :
    publisher.runBatch article options (fun _ => false) ["alpha"] w =
      ([⟨outcome, moment⟩], (alone w).2) := by
  rw [Publisher.runBatch, List.map_singleton, runAll_singleton h rfl]
  rfl

/-- The task of the first sync. -/
def first : SyncTask :=
  ⟨⟨0⟩, article, ["alpha", "beta"], .failed,
    [⟨.failed "alpha" "Not authenticated: auth: HTTP 401: ", moment⟩], moment, some moment⟩

/-- The world in which its only batch runs. -/
def firstWorld : World (List Route) :=
  (world.report (.syncStarted ["alpha", "beta"].length options.concurrency)).report
    (.batchStarted 1 ["alpha"].length)

/-- The world between the two syncs. -/
def between : World (List Route) :=
  ((alone firstWorld).2.report (.batchesStopped 1)).report (.syncFinished "Failed" 0 1)

theorem sync_first :
    publisher.sync ⟨0⟩ article ["alpha", "beta"] options (fun _ => false) world =
      (first, between) := by
  have hbatches : batches options.batchSize ["alpha", "beta"] = [["alpha"], ["beta"]] := by
    simp [batches, options, SyncOptions.batchSize]
  have hrefused : (alone firstWorld).1.value? =
      some (.failed "alpha" "Not authenticated: auth: HTTP 401: ") := by
    decide +kernel
  rw [Publisher.sync, hbatches, Publisher.runBatches_cons rfl (runBatch_alone hrefused)]
  rfl

/-- The task of the second sync. -/
def second : SyncTask :=
  ⟨⟨1⟩, article, ["alpha"], .completed,
    [⟨⟨"alpha", true, none, none, false, none⟩, moment⟩], moment, some moment⟩

/-- The world in which its only batch runs. -/
def secondWorld : World (List Route) :=
  (between.report (.syncStarted ["alpha"].length options.concurrency)).report
    (.batchStarted 1 ["alpha"].length)

/-- The world after both syncs. -/
def after : World (List Route) :=
  (alone secondWorld).2.report (.syncFinished "Completed" 1 1)

theorem sync_second :
    publisher.sync ⟨1⟩ article ["alpha"] options (fun _ => false) between = (second, after) := by
  have hbatches : batches options.batchSize ["alpha"] = [["alpha"]] := by
    simp [batches, options, SyncOptions.batchSize]
  have haccepted : (alone secondWorld).1.value? =
      some ⟨"alpha", true, none, none, false, none⟩ := by
    decide +kernel
  have hworld : (between.report (.syncStarted ["alpha"].length options.concurrency)).cancelled =
      false := by
    decide +kernel
  rw [Publisher.sync, hbatches, Publisher.runBatches_cons hworld (runBatch_alone haccepted)]
  rfl

theorem syncTwice_eq :
    publisher.syncTwice (⟨0⟩, ⟨1⟩) article ["alpha", "beta"] options true (fun _ => false) world =
      (⟨first, some second⟩, after) := by
  have hagain : (true && first.status == .failed && !between.cancelled) = true := by
    decide +kernel
  have hfailed : first.failedPlatforms = ["alpha"] := by
    decide +kernel
  rw [Publisher.syncTwice, sync_first]
  simp only
  rw [if_pos hagain, Publisher.retryFailed, hfailed]
  exact congrArg (fun x => ((⟨first, some x.1⟩ : TwoTries), x.2)) sync_second

end StoppedSync

/-! ### Completed tasks -/

/-- **Which platforms have a good result in a task that is completed** after a sync and, if it
has failed and a second try is asked for, one of what has failed: those of the batches that
the first sync has begun. It has begun them all, unless its last batch has failed and the
options do not say to continue. -/
theorem Publisher.completed_of_syncTwice {σ : Type} (p : Publisher σ) {ids : Uuid × Uuid}
    {a : Article} {platforms : List String} {o : SyncOptions} {again : Bool}
    {cancels : Outcome → Bool} {w w' : World σ} {tries : TwoTries} (now : Timestamp)
    (h : p.syncTwice ids a platforms o again cancels w = (tries, w'))
    (hw : w'.cancelled = false) (hs : (tries.task now).status = .completed) :
    ∃ r w₁, p.Goes a o platforms w tries.first w₁ r ∧
      r.past.map Group.batch ++ r.pending = batches o.batchSize platforms ∧
      (∀ platform, (∃ result ∈ (tries.task now).results,
          result.platform = platform ∧ result.success = true) ↔
        platform ∈ (r.past.map Group.batch).flatten) ∧
      (r.pending ≠ [] → tries.retry ≠ none ∧ ∃ g ∈ r.past.getLast?, g.Stops o) ∧
      (o.continueOnError = true ∨ tries.retry = none → ∀ platform ∈ (tries.task now).platforms,
        ∃ result ∈ (tries.task now).results, result.platform = platform ∧ result.success = true) ∧
      ∀ json, (tries.output json now).code = 0 := by
  obtain ⟨r, w₁, hgoes, hplatforms, htries⟩ := p.goes_of_syncTwice h
  -- the first sync was not cancelled either
  have hw₁ : w₁.cancelled = false := by
    obtain ⟨-, rfl⟩ | ⟨retry, r', -, -, hgoes'⟩ := htries
    · exact hw
    · exact Bool.eq_false_of_le_false (hw ▸ hgoes'.cancelled_le)
  have hgood : ∀ platform, (∃ result ∈ (tries.task now).results,
      result.platform = platform ∧ result.success = true) ↔
        platform ∈ (r.past.map Group.batch).flatten := by
    intro platform
    rw [← hgoes.perm_platforms.mem_iff, ← p.mem_map_platform_task now h, List.mem_map]
    refine ⟨fun ⟨result, hr, hp, _⟩ => ⟨result, hr, hp⟩, fun ⟨result, hr, hp⟩ => ?_⟩
    exact ⟨result, hr, hp, p.success_of_completed now h hs result hr⟩
  have hleft : r.pending ≠ [] → tries.retry ≠ none ∧ ∃ g ∈ r.past.getLast?, g.Stops o := by
    intro hn
    -- without a second sync, the first has not failed
    have hstops := hgoes.stops hw₁ hn
    refine ⟨fun hnone => hgoes.not_completed_of_stops hstops ?_, hstops⟩
    rw [TwoTries.task_of_retry_none hnone] at hs
    exact hs
  refine ⟨r, w₁, hgoes, hgoes.turns, hgood, hleft, fun hall platform hp => ?_, fun json => ?_⟩
  · -- nothing is left out
    have hpending : r.pending = [] := by
      by_contra hn
      obtain ⟨hretry, g, -, -, hstops⟩ := hleft hn
      rcases hall with hc | hnone
      · rw [hc] at hstops
        cases hstops
      · exact hretry hnone
    have hturns := hgoes.turns
    rw [hpending, List.append_nil] at hturns
    have htask : (tries.task now).platforms = platforms := by
      rw [← hplatforms, TwoTries.task]
      split <;> rfl
    rw [hgood, hturns, flatten_batches, ← htask]
    exact hp
  · rw [TwoTries.output_code, hs]
    rfl

namespace StoppedSync

theorem completed_of_syncTwice_stopped :
    publisher.syncTwice (⟨0⟩, ⟨1⟩) article ["alpha", "beta"] options true (fun _ => false) world =
        (⟨first, some second⟩, after) ∧
      after.cancelled = false ∧ (TwoTries.task ⟨first, some second⟩ moment).status = .completed ∧
      ∃ r w₁, publisher.Goes article options ["alpha", "beta"] world first w₁ r ∧
        ∀ platform, (∃ result ∈ (TwoTries.task ⟨first, some second⟩ moment).results,
            result.platform = platform ∧ result.success = true) ↔
          platform ∈ (r.past.map Group.batch).flatten := by
  have hafter : after.cancelled = false := by decide +kernel
  have hstatus : (TwoTries.task ⟨first, some second⟩ moment).status = .completed := by
    decide +kernel
  obtain ⟨r, w₁, hgoes, -, hgood, -⟩ :=
    publisher.completed_of_syncTwice moment syncTwice_eq hafter hstatus
  exact ⟨syncTwice_eq, hafter, hstatus, r, w₁, hgoes, hgood⟩

/-- **A task may be completed without a result for a platform** that was asked for. -/
theorem completed_without_result :
    ∃ tries w', publisher.syncTwice (⟨0⟩, ⟨1⟩) article ["alpha", "beta"] options true
        (fun _ => false) world = (tries, w') ∧
      w'.cancelled = false ∧ (tries.task moment).status = .completed ∧
      "beta" ∈ (tries.task moment).platforms ∧
      ¬ ∃ result ∈ (tries.task moment).results,
        result.platform = "beta" ∧ result.success = true := by
  refine ⟨_, _, syncTwice_eq, ?_, ?_, ?_, ?_⟩
  · decide +kernel
  · decide +kernel
  · decide +kernel
  · rintro ⟨result, hr, hp, -⟩
    have hresults : (TwoTries.task ⟨first, some second⟩ moment).results.map (·.platform) =
        ["alpha"] := by
      decide +kernel
    have hmem : result.platform ∈ ["alpha"] := hresults ▸ List.mem_map_of_mem hr
    rw [hp] at hmem
    simp at hmem

end StoppedSync

end Syndication
