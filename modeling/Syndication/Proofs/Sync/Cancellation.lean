import Syndication.Proofs.Sync.Rollout

/-!
# Cancelling a sync

What a cancellation leaves open, wherever in a sync it fires: a step that has begun may end,
and nothing else begins, neither a batch nor a step of a run nor an upload nor a further try.
A platform ends well only if it was done before the firing, and what is recorded then stays
as it is.

Main statements:

* `Rollout.ceases_of_reaches`: a sync after the firing.
* `Publisher.sync_ceases`: the same of every sync, at every moment.
-/

namespace Syndication

/-- What has ended well was done before the firing. -/
theorem Publisher.Recorded.done {σ : Type} {p : Publisher σ} {a : Article} {o : SyncOptions}
    {id : String} {record : List Entry × Outcome} (h : p.Recorded a o id record)
    (hs : record.2.success = true) :
    ∃ s, (false, .transition id s .done) ∈ told record.1 := by
  obtain ⟨log, _, _, hlog, -, hp⟩ := h.publishes
  obtain ⟨s, hdone⟩ := hp.done hs
  refine ⟨s, ?_⟩
  rw [hlog, told_append]
  exact List.mem_append_left _ hdone

namespace Rollout

/-- **What a cancellation leaves open**: it has fired by the moment `r` of a sync, `new` has
been reported by then, and `r'` is a later moment. -/
structure Ceases (new : List (Bool × Event)) (r r' : Rollout) : Prop where
  /-- No batch, no step, no execution of an endpoint and no upload begins. -/
  begins : ∃ more, r'.phase.journal = r.phase.journal ++ more ∧
    ∀ entry ∈ more, entry.2.isBeginning = false
  /-- The batches that have not begun never will. -/
  pending : r'.pending = r.pending
  /-- What was recorded stays as it is. -/
  records : r.records <+: r'.records
  /-- What ends well had been done by then: the run was seen to go to its last state. -/
  done : ∀ record ∈ r'.records, record.2.success = true →
    ∃ s, (false, .transition record.2.platform s .done) ∈ told record.1 ∧
      (false, .transition record.2.platform s .done) ∈ new

variable {σ : Type} {p : Publisher σ} {a : Article} {o : SyncOptions} {all : List (List String)}
  {new : List (Bool × Event)} {r r' : Rollout}

/-- What has ended well was done before the firing. -/
theorem Lawful.done (h : Lawful p a o all new r) {record : List Entry × Outcome}
    (hr : record ∈ r.records) (hs : record.2.success = true) :
    ∃ s, (false, .transition record.2.platform s .done) ∈ told record.1 ∧
      (false, .transition record.2.platform s .done) ∈ new := by
  obtain ⟨hrec, htold⟩ := h.records record hr
  obtain ⟨s, hdone⟩ := hrec.done hs
  exact ⟨s, hdone, htold hdone⟩

/-- **A sync ceases when the cancellation has fired.** -/
theorem ceases_of_reaches (h : Lawful p a o all new r) (hf : r.phase.fired = true)
    (hr : Reaches p a o r r') : Ceases new r r' := by
  obtain ⟨more, hjournal, h'⟩ := lawful_of_reaches h hr
  have hfired := fired_of_reaches h hr hf hjournal
  have hlater := later_of_reaches hr
  refine ⟨⟨more, hjournal, fun entry he => ?_⟩, hlater.pending hf, hlater.records, ?_⟩
  · exact h'.heeds entry (List.mem_append_right _ he) (hfired entry he)
  · intro record hrec hs
    obtain ⟨s, hdone, hmem⟩ := h'.done hrec hs
    refine ⟨s, hdone, ?_⟩
    -- all that was reported later is marked
    rcases List.mem_append.1 hmem with hmem | hmem
    · exact hmem
    · cases hfired _ hmem

end Rollout

namespace Publisher

variable {σ : Type} (p : Publisher σ) (a : Article) (o : SyncOptions) (platforms : List String)

/-- **Every sync ceases when the cancellation has fired**, at whatever moment it does. -/
theorem sync_ceases :
    (∀ fired journal r,
      Rollout.Reaches p a o (.start fired journal (batches o.batchSize platforms)) r →
        ∃ new, r.phase.journal = journal ++ new ∧
          (∀ entry ∈ new, entry.1 = true → entry.2.isBeginning = false) ∧
          (r.phase.fired = true → ∀ r', Rollout.Reaches p a o r r' → Rollout.Ceases new r r')) ∧
    ∀ id cancels (w : World σ) task w', p.sync id a platforms o cancels w = (task, w') →
      (∃ r, p.Goes a o platforms w task w' r) ∧
      ∃ new, w'.journal = w.journal ++ new ∧
        (∀ entry ∈ new, entry.1 = true → entry.2.isBeginning = false) ∧
        ∀ result ∈ task.results, result.success = true →
          ∃ s, (false, .transition result.platform s .done) ∈ new := by
  refine ⟨fun fired journal r hr => ?_, fun id cancels w task w' hsync => ?_⟩
  · obtain ⟨new, hjournal, h⟩ := Rollout.lawful_of_reaches (Rollout.lawful_start fired journal _) hr
    exact ⟨new, hjournal, h.heeds, fun hf r' => Rollout.ceases_of_reaches h hf⟩
  · obtain ⟨r, hgoes⟩ := p.exists_goes_of_sync a o cancels id platforms w
    rw [hsync] at hgoes
    obtain ⟨new, hnew, h⟩ := hgoes.lawful
    obtain ⟨journal, status, succeeded, finished, hphase, hjournal⟩ := hgoes.closed
    rw [hphase] at hnew
    change journal = _ at hnew
    -- what the sync reports besides its rollout is its beginning and its end
    refine ⟨⟨r, hgoes⟩, (w.cancelled, .syncStarted platforms.length o.concurrency) :: new ++
      [(w'.cancelled, .syncFinished status succeeded finished)], ?_, ?_, fun result hr hs => ?_⟩
    · rw [hjournal, hnew]
      simp
    · intro entry he
      rcases List.mem_append.1 he with he | he
      · rcases List.mem_cons.1 he with rfl | he
        · exact fun _ => rfl
        · exact h.heeds entry he
      · rw [List.mem_singleton.1 he]
        exact fun _ => rfl
    · have ho : result.toOutcome ∈ r.outcomes := hgoes.results ▸ List.mem_map_of_mem hr
      obtain ⟨record, hrec, heq⟩ := List.mem_map.1 ho
      rw [← heq] at hs ⊢
      obtain ⟨s, -, hmem⟩ := h.done hrec hs
      exact ⟨s, List.mem_append_left _ (List.mem_cons_of_mem _ hmem)⟩

end Publisher

end Syndication
