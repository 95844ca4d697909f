import Mathlib.Data.List.Nodup
import Syndication.Proofs.Sync.Completion

/-!
# What a task names as failed

The failed platforms of a task are those whose first result is a failure, and its status looks
at every result. Both say the same while no platform has two results. A platform that is asked
for twice may have a good result first and a bad one after it. The task has failed then and
names nothing, so that a retry of what has failed is a sync of no platform at all.

Main statements:

* `SyncTask.mem_failedPlatforms_iff`: what is named.
* `Publisher.failedPlatforms_sync`: what the tasks of syncs name.
* `RepeatedPlatform.failed_without_failedPlatforms`: a task that has failed and names nothing.
-/

namespace Syndication

namespace SyncTask

variable {t : SyncTask} {platform : String}

theorem mem_failedPlatforms_iff :
    platform ∈ t.failedPlatforms ↔
      platform ∈ t.platforms ∧ ∃ r, t.resultFor? platform = some r ∧ r.success = false := by
  rw [failedPlatforms, List.mem_filter, Option.any_eq_true]
  simp

theorem mem_of_resultFor? {r : SyncResult} (h : t.resultFor? platform = some r) :
    r ∈ t.results ∧ r.platform = platform :=
  ⟨List.mem_of_find?_eq_some h, by simpa using List.find?_some h⟩

/-- A platform with a result has a first one. -/
theorem exists_resultFor? {r : SyncResult} (h : r ∈ t.results) :
    ∃ first, t.resultFor? r.platform = some first := by
  have hsome : (t.resultFor? r.platform).isSome = true := by
    rw [resultFor?, List.find?_isSome]
    exact ⟨r, h, beq_self_eq_true _⟩
  exact Option.isSome_iff_exists.1 hsome

/-- Where no platform has both, a task without a failed platform has no bad result. -/
theorem failedPlatforms_eq_nil_iff
    (hknown : ∀ r ∈ t.results, r.platform ∈ t.platforms)
    (hagree : ∀ r ∈ t.results, ∀ r' ∈ t.results,
      r.platform = r'.platform → r.success = r'.success) :
    t.failedPlatforms = [] ↔ ∀ r ∈ t.results, r.success = true := by
  rw [List.eq_nil_iff_forall_not_mem]
  constructor
  · intro hnone r hr
    by_contra hbad
    obtain ⟨first, hfirst⟩ := exists_resultFor? hr
    obtain ⟨hmem, hplatform⟩ := mem_of_resultFor? hfirst
    refine hnone r.platform (mem_failedPlatforms_iff.2 ⟨hknown r hr, first, hfirst, ?_⟩)
    rw [hagree first hmem r hr hplatform]
    exact Bool.not_eq_true _ ▸ hbad
  · intro hgood platform hp
    obtain ⟨-, r, hr, hbad⟩ := mem_failedPlatforms_iff.1 hp
    rw [hgood r (mem_of_resultFor? hr).1] at hbad
    cases hbad

/-- With one result for a platform, the failed platforms are those of the bad results. -/
theorem perm_failedPlatforms (hplatforms : t.platforms.Nodup)
    (hknown : ∀ r ∈ t.results, r.platform ∈ t.platforms)
    (hresults : (t.results.map (·.platform)).Nodup) :
    t.failedPlatforms.Perm ((t.results.filter (!·.success)).map (·.platform)) := by
  have hbad : ((t.results.filter (!·.success)).map (·.platform)).Nodup :=
    hresults.sublist (List.filter_sublist.map _)
  have hnamed : t.failedPlatforms.Nodup := hplatforms.filter _
  refine (List.perm_ext_iff_of_nodup hnamed hbad).2 fun platform => ?_
  rw [mem_failedPlatforms_iff, List.mem_map]
  constructor
  · rintro ⟨-, r, hr, hfail⟩
    obtain ⟨hmem, hplatform⟩ := mem_of_resultFor? hr
    exact ⟨r, List.mem_filter.2 ⟨hmem, by simp [hfail]⟩, hplatform⟩
  · rintro ⟨r, hr, rfl⟩
    obtain ⟨hmem, hfail⟩ := List.mem_filter.1 hr
    obtain ⟨first, hfirst⟩ := exists_resultFor? hmem
    obtain ⟨hfirstMem, hplatform⟩ := mem_of_resultFor? hfirst
    -- the first result for the platform is the only one
    have heq : first = r := List.inj_on_of_nodup_map hresults hfirstMem hmem hplatform
    exact ⟨hknown r hmem, first, hfirst, by simpa [heq] using hfail⟩

end SyncTask

namespace Publisher

variable {σ : Type}

/-- Nothing has two results unless it was asked for twice. -/
theorem Goes.nodup_platforms {p : Publisher σ} {a : Article} {o : SyncOptions}
    {platforms : List String} {w w' : World σ} {task : SyncTask} {r : Rollout}
    (h : p.Goes a o platforms w task w' r) (hn : platforms.Nodup) :
    (task.results.map (·.platform)).Nodup := by
  rw [← flatten_batches o.batchSize platforms, ← h.turns, List.flatten_append] at hn
  exact h.perm_platforms.nodup_iff.2 (List.Nodup.of_append_left hn)

/-- **What the task of a sync names as failed.** It has ended. A task that is completed names
nothing. When the results for a platform agree, a task that names nothing is completed. When
no platform is asked for twice, the platforms it names are those of the bad results, as many
as there are, and a retry has something to do exactly when the task has failed. -/
theorem failedPlatforms_sync (p : Publisher σ) (id : Uuid) (a : Article) (platforms : List String)
    (o : SyncOptions) (cancels : Outcome → Bool) (w : World σ) :
    let task := (p.sync id a platforms o cancels w).1
    (task.status = .completed ∨ task.status = .failed) ∧
    (task.status = .completed → task.failedPlatforms = []) ∧
    ((∀ r ∈ task.results, ∀ r' ∈ task.results,
        r.platform = r'.platform → r.success = r'.success) →
      (task.failedPlatforms = [] ↔ task.status = .completed)) ∧
    (platforms.Nodup →
      (task.failedPlatforms = [] ↔ task.status = .completed) ∧
      task.failedPlatforms.Perm ((task.results.filter (!·.success)).map (·.platform)) ∧
      task.results.countP (!·.success) = task.failedPlatforms.length ∧
      ∀ (id' : Uuid) (o' : SyncOptions) (cancels' : Outcome → Bool) (w' : World σ),
        (p.retryFailed id' task o' cancels' w').1.platforms ≠ [] ↔ task.status = .failed) := by
  intro task
  obtain ⟨r, hgoes⟩ := p.exists_goes_of_sync a o cancels id platforms w
  have hends : task.status = .completed ∨ task.status = .failed := by
    simp only [task, sync, SyncTask.finish]
    split
    · exact .inl rfl
    · exact .inr rfl
  have hknown : ∀ r ∈ task.results, r.platform ∈ task.platforms :=
    fun r hr => hgoes.mem_platforms (List.mem_map_of_mem hr)
  have hagree := SyncTask.failedPlatforms_eq_nil_iff hknown
  refine ⟨hends, fun hc => ?_, fun h => (hagree h).trans hgoes.status.symm, fun hn => ?_⟩
  · have hgood := hgoes.status.1 hc
    exact (hagree fun r hr r' hr' _ => (hgood r hr).trans (hgood r' hr').symm).2 hgood
  · have honce := hgoes.nodup_platforms hn
    have hperm := SyncTask.perm_failedPlatforms hn hknown honce
    have hnil : task.failedPlatforms = [] ↔ task.status = .completed := by
      refine (hagree fun r hr r' hr' he => ?_).trans hgoes.status.symm
      rw [List.inj_on_of_nodup_map honce hr hr' he]
    refine ⟨hnil, hperm, ?_, fun id' o' cancels' w' => ?_⟩
    · rw [hperm.length_eq, List.length_map, List.countP_eq_length_filter]
    · rw [show (p.retryFailed id' task o' cancels' w').1.platforms = task.failedPlatforms from rfl,
        Ne, hnil]
      rcases hends with hc | hf
      · simp [hc]
      · simp [hf]

end Publisher

/-! ### A platform that is asked for twice

The platform accepts the session the first time and refuses it from then on. The task has a good
result and then a bad one for it. It has failed, and the platform is not among the failed ones. -/

namespace RepeatedPlatform

open StoppedSync

/-- The first session is accepted, every other one is refused. -/
def world : World (List Route) :=
  .start [⟨none, "alpha.test/auth", some 1, .zero, .answer (.ofText 200 "")⟩,
    ⟨none, "alpha.test/auth", none, .zero, .answer (.ofText 401 "")⟩]

/-- The task of the sync. -/
def task : SyncTask :=
  ⟨⟨0⟩, article, ["alpha", "alpha"], .failed,
    [⟨⟨"alpha", true, none, none, false, none⟩, moment⟩,
      ⟨.failed "alpha" "Not authenticated: auth: HTTP 401: ", moment⟩], moment, some moment⟩

/-- The world in which the first batch runs. -/
def firstWorld : World (List Route) :=
  (world.report (.syncStarted ["alpha", "alpha"].length options.concurrency)).report
    (.batchStarted 1 ["alpha"].length)

/-- The world in which the second batch runs. -/
def secondWorld : World (List Route) :=
  (alone firstWorld).2.report (.batchStarted 2 ["alpha"].length)

theorem sync_task :
    (publisher.sync ⟨0⟩ article ["alpha", "alpha"] options (fun _ => false) world).1 = task := by
  have hbatches : batches options.batchSize ["alpha", "alpha"] = [["alpha"], ["alpha"]] := by
    simp [batches, options, SyncOptions.batchSize]
  have haccepted : (alone firstWorld).1.value? =
      some ⟨"alpha", true, none, none, false, none⟩ := by
    decide +kernel
  have hrefused : (alone secondWorld).1.value? =
      some (.failed "alpha" "Not authenticated: auth: HTTP 401: ") := by
    decide +kernel
  have hworld : (alone firstWorld).2.cancelled = false := by
    decide +kernel
  have hsecond : publisher.runBatches article options (fun _ => false) (1 + 1) [["alpha"]]
      (alone firstWorld).2 = _ :=
    Publisher.runBatches_cons hworld (runBatch_alone hrefused)
  rw [Publisher.sync, hbatches, Publisher.runBatches_cons rfl (runBatch_alone haccepted),
    ← firstWorld, hsecond]
  rfl

/-- **A task may have failed without a failed platform.** -/
theorem failed_without_failedPlatforms :
    ∃ task, (publisher.sync ⟨0⟩ article ["alpha", "alpha"] options (fun _ => false) world).1 =
        task ∧ task.status = .failed ∧ task.failedPlatforms = [] ∧
      task.results.countP (!·.success) = 1 := by
  refine ⟨task, sync_task, rfl, ?_, ?_⟩
  · decide +kernel
  · decide +kernel

end RepeatedPlatform

end Syndication
