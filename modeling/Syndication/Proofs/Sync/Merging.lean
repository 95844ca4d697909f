import Syndication.Proofs.Sync.Completion

/-!
# Merging the results of a retry

The results of a retry are folded in one at a time, each in the place of the first result for
its platform or at the end. What comes of that can be said of each entry by itself: the first
entry of a platform becomes the last result for it in the retry, the other entries stay, and
what is appended are the platforms that had no result.

Main statements:

* `SyncTask.merged_cons`, `SyncTask.map_some_merged_nil`: a merge, entry by entry.
* `SyncTask.find?_merged`: the result for a platform.
* `SyncTask.merged_merged`: a second merge of the same results changes nothing.
* `SyncTask.mergeRetry_folds`: all of it about tasks.
-/

namespace Syndication

/-! ### Each once -/

theorem distinct_filter {α : Type} [DecidableEq α] (keeps : α → Bool) (l : List α) :
    distinct (l.filter keeps) = (distinct l).filter keeps := by
  induction l with
  | nil => rfl
  | cons x rest ih =>
    rw [distinct]
    by_cases hx : keeps x = true
    · rw [List.filter_cons_of_pos hx, List.filter_cons_of_pos hx, distinct, ih,
        List.filter_filter, List.filter_filter]
      simp only [Bool.and_comm]
    · rw [List.filter_cons_of_neg hx, List.filter_cons_of_neg hx, ih, List.filter_filter]
      -- what is left out of the rest on the right is left out already
      refine List.filter_congr fun y _ => ?_
      by_cases hy : y = x
      · simp [hy, hx]
      · simp [hy]

namespace SyncTask

/-! ### Folding results in -/

/-- The results with those of a retry folded in. -/
def merged (retried results : List SyncResult) : List SyncResult :=
  retried.foldl (fun results r => fold r results) results

/-- The last of some results for a platform. -/
def latest? (retried : List SyncResult) (platform : String) : Option SyncResult :=
  retried.reverse.find? (·.platform == platform)

/-- The platforms of a retry that have no result yet, in the order in which they come first. -/
def newcomers (retried results : List SyncResult) : List String :=
  (distinct (retried.map (·.platform))).filter (· ∉ results.map (·.platform))

@[simp] theorem latest?_nil (platform : String) : latest? [] platform = none := rfl

theorem latest?_cons (r : SyncResult) (retried : List SyncResult) (platform : String) :
    latest? (r :: retried) platform =
      (latest? retried platform).or (if r.platform = platform then some r else none) := by
  rw [latest?, List.reverse_cons, List.find?_append, List.find?_singleton]
  simp only [beq_iff_eq, latest?]

theorem latest?_eq_none_iff {retried : List SyncResult} {platform : String} :
    latest? retried platform = none ↔ platform ∉ retried.map (·.platform) := by
  rw [latest?, List.find?_eq_none]
  simp

/-- The results for other platforms do not matter. -/
theorem latest?_filter {retried : List SyncResult} {platform other : String}
    (h : platform ≠ other) :
    latest? (retried.filter (·.platform ≠ other)) platform = latest? retried platform := by
  rw [latest?, latest?, ← List.filter_reverse, List.find?_filter]
  congr 1
  funext r
  by_cases hr : r.platform = platform
  · simp [hr, h]
  · simp [hr]

theorem map_platform_filter (retried : List SyncResult) (other : String) :
    (retried.filter (·.platform ≠ other)).map (·.platform) =
      (retried.map (·.platform)).filter (· ≠ other) := by
  rw [List.filter_map]
  rfl

/-- **A merge, entry by entry.** The first entry becomes the last result of the retry for its
platform; the results of the retry for other platforms are merged into the rest. -/
theorem merged_cons (retried : List SyncResult) (first : SyncResult) (rest : List SyncResult) :
    merged retried (first :: rest) =
      (latest? retried first.platform).getD first ::
        merged (retried.filter (·.platform ≠ first.platform)) rest := by
  induction retried generalizing first rest with
  | nil => rfl
  | cons r retried ih =>
    by_cases hr : first.platform = r.platform
    · have hstep : fold r (first :: rest) = r :: rest := by
        rw [fold, if_pos hr]
      rw [merged, List.foldl_cons, hstep, ← merged, ih, latest?_cons, hr,
        List.filter_cons_of_neg (by simp)]
      cases latest? retried r.platform <;> simp
    · have hstep : fold r (first :: rest) = first :: fold r rest := by
        rw [fold, if_neg hr]
      have hne : r.platform ≠ first.platform := Ne.symm hr
      rw [merged, List.foldl_cons, hstep, ← merged, ih, latest?_cons, if_neg hne, Option.or_none,
        List.filter_cons_of_pos (by simpa using hne), merged, merged, List.foldl_cons]

/-- What a retry comes to by itself: the last result for each of its platforms. -/
theorem map_some_merged_nil (retried : List SyncResult) :
    (merged retried []).map some =
      (distinct (retried.map (·.platform))).map (latest? retried) := by
  match retried with
  | [] => rfl
  | r :: retried =>
    have hstep : merged (r :: retried) [] = merged retried [r] := rfl
    have ih := map_some_merged_nil (retried.filter (·.platform ≠ r.platform))
    rw [hstep, merged_cons, List.map_cons, ih, List.map_cons, distinct, List.map_cons]
    congr 1
    · rw [latest?_cons, if_pos rfl]
      cases latest? retried r.platform <;> rfl
    · rw [map_platform_filter, distinct_filter]
      refine List.map_congr_left fun platform hp => ?_
      have hne : platform ≠ r.platform := by simpa using (List.mem_filter.1 hp).2
      rw [latest?_filter hne, latest?_cons, if_neg (Ne.symm hne), Option.or_none]
termination_by retried.length
decreasing_by exact Nat.lt_succ_of_le (List.length_filter_le _ _)

/-- The entries that were there keep their places. The first of each platform becomes the last
result of the retry for it, and the others stay. -/
theorem getElem?_merged {retried results : List SyncResult} {i : Nat} {r : SyncResult}
    (h : results[i]? = some r) :
    (merged retried results)[i]? =
      some (if r.platform ∈ (results.take i).map (·.platform) then r
        else (latest? retried r.platform).getD r) := by
  induction results generalizing retried i with
  | nil => simp at h
  | cons first rest ih =>
    rw [merged_cons]
    cases i with
    | zero =>
      cases h
      rfl
    | succ i =>
      rw [List.getElem?_cons_succ] at h ⊢
      rw [ih h]
      simp only [List.take_succ_cons, List.map_cons, List.mem_cons]
      by_cases hr : r.platform = first.platform
      · -- the retry holds nothing for the platform any more
        have hnone :
            latest? (retried.filter (·.platform ≠ first.platform)) r.platform = none := by
          rw [latest?_eq_none_iff, hr]
          simp
        rw [hnone, Option.getD_none, ite_self, if_pos (Or.inl hr)]
      · rw [latest?_filter hr]
        simp [hr]

/-- What is appended: the last result for each of the platforms that had none. -/
theorem drop_merged (retried results : List SyncResult) :
    ((merged retried results).drop results.length).map some =
      (newcomers retried results).map (latest? retried) := by
  induction results generalizing retried with
  | nil =>
    rw [List.length_nil, List.drop_zero, map_some_merged_nil, newcomers]
    simp
  | cons first rest ih =>
    rw [merged_cons, List.length_cons, List.drop_succ_cons, ih]
    have hnew : newcomers (retried.filter (·.platform ≠ first.platform)) rest =
        newcomers retried (first :: rest) := by
      rw [newcomers, newcomers, map_platform_filter, distinct_filter, List.filter_filter]
      refine List.filter_congr fun platform _ => ?_
      rw [← Bool.decide_and, decide_eq_decide, List.map_cons, List.mem_cons, not_or, and_comm]
    rw [hnew]
    refine List.map_congr_left fun platform hp => latest?_filter ?_
    have hout : platform ∉ (first :: rest).map (·.platform) := by
      simpa using (List.mem_filter.1 hp).2
    exact fun he => hout (by simp [he])

/-- The result for a platform is the last of the retry for it, or what it was. -/
theorem find?_merged (retried results : List SyncResult) (platform : String) :
    (merged retried results).find? (·.platform == platform) =
      (latest? retried platform).or (results.find? (·.platform == platform)) := by
  induction retried generalizing results with
  | nil => rfl
  | cons r retried ih =>
    rw [merged, List.foldl_cons, ← merged, ih, latest?_cons, Option.or_assoc]
    by_cases hr : r.platform = platform
    · rw [← hr, find?_fold_self, if_pos rfl, Option.some_or]
    · rw [find?_fold_of_ne hr, if_neg hr, Option.none_or]

/-- An entry that is the first of its platform is the result for it. -/
theorem find?_of_getElem? {results : List SyncResult} {i : Nat} {r : SyncResult}
    (h : results[i]? = some r) (hfirst : r.platform ∉ (results.take i).map (·.platform)) :
    results.find? (·.platform == r.platform) = some r := by
  obtain ⟨hi, rfl⟩ := List.getElem?_eq_some_iff.1 h
  refine List.find?_eq_some_iff_getElem.2 ⟨beq_self_eq_true _, i, hi, rfl, fun j hj => ?_⟩
  have hearlier : results[j] ∈ results.take i := List.mem_take_iff_getElem.2 ⟨j, by omega, rfl⟩
  rw [Bool.not_eq_true', beq_eq_false_iff_ne]
  exact fun he => hfirst (he ▸ List.mem_map_of_mem hearlier)

/-- **A second merge of the same results changes nothing.** -/
theorem merged_merged (retried results : List SyncResult) :
    merged retried (merged retried results) = merged retried results := by
  -- every platform of the retry has a result now, so that nothing is appended
  have hnone : newcomers retried (merged retried results) = [] := by
    rw [newcomers, List.filter_eq_nil_iff]
    intro platform hp
    rw [mem_distinct] at hp
    have hold : platform ∈ (merged retried results).map (·.platform) :=
      (mem_map_platform_foldl retried results).2 (.inr hp)
    simpa using hold
  have hlength : (merged retried (merged retried results)).length ≤
      (merged retried results).length := by
    have hdrop := drop_merged retried (merged retried results)
    rw [hnone, List.map_nil, List.map_eq_nil_iff, List.drop_eq_nil_iff] at hdrop
    exact hdrop
  refine List.ext_getElem? fun i => ?_
  cases h : (merged retried results)[i]? with
  | none =>
    rw [List.getElem?_eq_none_iff] at h ⊢
    exact hlength.trans h
  | some r =>
    rw [getElem?_merged h]
    split
    · rfl
    · rename_i hfirst
      -- the first entry of a platform is the last result of the retry for it already
      have hr := find?_of_getElem? h hfirst
      rw [find?_merged] at hr
      cases hl : latest? retried r.platform with
      | none => rfl
      | some last =>
        rw [hl, Option.some_or] at hr
        exact hr

end SyncTask

/-! ### Merging tasks -/

/-- A retry of what has failed holds no result for what has not. -/
theorem Publisher.latest?_retryFailed {σ : Type} (p : Publisher σ) (id : Uuid) (t : SyncTask)
    (o : SyncOptions) (cancels : Outcome → Bool) (w : World σ) {platform : String}
    {r : SyncResult} (h : t.resultFor? platform = some r) (hr : r.success = true) :
    SyncTask.latest? (p.retryFailed id t o cancels w).1.results platform = none := by
  rw [SyncTask.latest?_eq_none_iff]
  intro hp
  obtain ⟨rollout, hgoes⟩ := p.exists_goes_of_sync t.article o cancels id t.failedPlatforms w
  have hfailed : platform ∈ t.failedPlatforms := hgoes.mem_platforms hp
  have hbad := (List.mem_filter.1 hfailed).2
  rw [h] at hbad
  simp [hr] at hbad

/-- **Merging a retry into a task.** The result for a platform is the last of the retry for
it, or what it was. Entries keep their places: the first of a platform becomes the last result
of the retry for it, any other stays. The platforms that are new follow in the order in which
the retry has them first. The task is completed when every entry is a success. Merging a retry
that has ended once more changes nothing, and a retry of what has failed leaves the good
results as they are. -/
theorem SyncTask.mergeRetry_folds (t retry : SyncTask) (now : Timestamp) :
    (∀ platform, (t.mergeRetry retry now).resultFor? platform =
      (latest? retry.results platform).or (t.resultFor? platform)) ∧
    (∀ i r, t.results[i]? = some r → (t.mergeRetry retry now).results[i]? =
      some (if r.platform ∈ (t.results.take i).map (·.platform) then r
        else (latest? retry.results r.platform).getD r)) ∧
    ((t.mergeRetry retry now).results.drop t.results.length).map some =
      (newcomers retry.results t.results).map (latest? retry.results) ∧
    ((t.mergeRetry retry now).status = .completed ↔
      ∀ r ∈ (t.mergeRetry retry now).results, r.success = true) ∧
    (retry.completedAt.isSome = true → ∀ later,
      (t.mergeRetry retry now).mergeRetry retry later = t.mergeRetry retry now) ∧
    (∀ {σ : Type} (p : Publisher σ) (id : Uuid) (o : SyncOptions) (cancels : Outcome → Bool)
      (w : World σ), retry = (p.retryFailed id t o cancels w).1 →
      ∀ platform r, t.resultFor? platform = some r → r.success = true →
        (t.mergeRetry retry now).resultFor? platform = some r) := by
  have hresult : ∀ platform, (t.mergeRetry retry now).resultFor? platform =
      (latest? retry.results platform).or (t.resultFor? platform) :=
    find?_merged retry.results t.results
  refine ⟨hresult, fun i r h => getElem?_merged h, drop_merged _ _,
    status_finish_eq_completed_iff _ _, fun hended later => ?_, ?_⟩
  · obtain ⟨moment, hmoment⟩ := Option.isSome_iff_exists.1 hended
    have hagain := merged_merged retry.results t.results
    rw [merged, merged] at hagain
    simp only [mergeRetry, finish, hmoment, Option.getD_some, hagain]
  · rintro σ p id o cancels w rfl platform r hr hgood
    rw [hresult, p.latest?_retryFailed id t o cancels w hr hgood, Option.none_or, hr]

end Syndication
