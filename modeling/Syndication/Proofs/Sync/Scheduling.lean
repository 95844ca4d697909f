import Syndication.Proofs.Sync.Rollout

/-!
# The schedule of a sync

Which platforms are published to when, and what is recorded of them, in whatever order the
platforms of a batch end, and wherever the cancellation fires.

Main statements:

* `Rollout.scheduled_of_lawful`: the schedule is kept at every moment of a sync.
* `Publisher.sync_schedule`: it is kept by every sync, and the task tells how it ended.
-/

namespace Syndication

/-! ### Short lists -/

section Short

variable {β : Type}

/-- One item at most is in order. -/
theorem prefix_of_subperm {l l' : List β} (h : l.Subperm l') (hl : l'.length ≤ 1) : l <+: l' := by
  match l', hl with
  | [], _ =>
    obtain rfl : l = [] := List.subperm_nil.1 h
    exact List.nil_prefix
  | [x], _ =>
    obtain ⟨k, hk, hsub⟩ := h
    rcases List.sublist_singleton.1 hsub with rfl | rfl
    · obtain rfl : l = [] := List.nil_perm.1 hk
      exact List.nil_prefix
    · obtain rfl : [x] = l := List.singleton_perm.1 hk
      exact List.prefix_refl _

theorem eq_of_perm {l l' : List β} (h : l.Perm l') (hl : l'.length ≤ 1) : l = l' :=
  (prefix_of_subperm h.subperm hl).eq_of_length h.length_eq

end Short

namespace Rollout

/-- **The schedule of a sync** to platforms with options, of which `new` is reported so far. -/
structure Scheduled (o : SyncOptions) (platforms : List String) (new : List (Bool × Event))
    (r : Rollout) : Prop where
  /-- The batches have their turns in order. -/
  turns : r.past.map Group.batch ++ r.phase.batch?.toList ++ r.pending =
    batches o.batchSize platforms
  /-- A batch that has ended has recorded each of its platforms once. -/
  past : ∀ g ∈ r.past, (g.records.map (·.2.platform)).Perm g.batch
  /-- The one that is at work has recorded each of its platforms once at most. -/
  current : (r.phase.ended.map (·.2.platform)).Subperm r.phase.batch?.toList.flatten
  /-- No more platforms are at work than the options say, but one may be. -/
  inFlight : r.phase.inFlight ≤ max o.concurrency 1
  /-- Each outcome is told once, in the order in which they are recorded. -/
  progress : progressOf new = r.outcomes
  /-- A batch begins when all of the batches before it is recorded. -/
  begun : Begun (batches o.batchSize platforms) new
  /-- A sync has ended early only if the cancellation has fired between two batches, or the last
  batch has failed and the options do not say to continue. -/
  closed : ∀ fired journal, r.phase = .closed fired journal → r.pending ≠ [] →
    (fired = true ∧ (true, .batchesCancelled r.number) ∈ new) ∨ ∃ g ∈ r.past.getLast?, g.Stops o
  /-- A task with these outcomes is completed when all of them are good. -/
  status : ∀ (task : SyncTask) (moment : Timestamp), task.results.map (·.toOutcome) = r.outcomes →
    ((task.finish moment).status = .completed ↔ ∀ outcome ∈ r.outcomes, outcome.success = true)
  /-- One at a time, the platforms are recorded as they were asked for. -/
  order : o.concurrency ≤ 1 → r.outcomes.map (·.platform) <+: platforms
  /-- A sync that ends well without a cancellation leaves no platform out. -/
  complete : ∀ journal, r.phase = .closed false journal →
    (∀ outcome ∈ r.outcomes, outcome.success = true) →
    ∀ id ∈ platforms, ∃ outcome ∈ r.outcomes, outcome.platform = id ∧ outcome.success = true

section Lawful

variable {σ : Type} {p : Publisher σ} {a : Article} {o : SyncOptions} {platforms : List String}
  {new : List (Bool × Event)} {r : Rollout}

/-- The batch at work is one of the batches, of which each has a platform's place. -/
theorem Lawful.length_batch_le {batch : List String}
    (h : Lawful p a o (batches o.batchSize platforms) new r) (hb : r.phase.batch? = some batch) :
    batch.length ≤ o.batchSize := by
  refine length_le_of_mem_batches o.batchSize_pos (l := platforms) ?_
  rw [← h.turns, hb]
  simp

theorem Lawful.length_past_le (h : Lawful p a o (batches o.batchSize platforms) new r) :
    ∀ g ∈ r.past, g.batch.length ≤ o.batchSize := by
  intro g hg
  refine length_le_of_mem_batches o.batchSize_pos (l := platforms) ?_
  rw [← h.turns, List.append_assoc]
  exact List.mem_append_left _ (List.mem_map_of_mem hg)

/-- The platforms, as the batches have them. -/
theorem Lawful.flatten_turns (h : Lawful p a o (batches o.batchSize platforms) new r) :
    (r.past.map Group.batch).flatten ++ r.phase.batch?.toList.flatten ++ r.pending.flatten =
      platforms := by
  rw [← List.flatten_append, ← List.flatten_append, h.turns, flatten_batches]

theorem Lawful.subperm_current (h : Lawful p a o (batches o.batchSize platforms) new r) :
    (r.phase.ended.map (·.2.platform)).Subperm r.phase.batch?.toList.flatten := by
  cases hp : r.phase with
  | working batch c =>
    obtain ⟨earlier, later, -, hw⟩ := h.works batch c hp
    rw [Phase.batch?, Option.toList_some, List.flatten_singleton]
    exact hw.ended_subperm
  | _ => exact List.nil_subperm

theorem Lawful.inFlight_le (h : Lawful p a o (batches o.batchSize platforms) new r) :
    r.phase.inFlight ≤ o.batchSize := by
  cases hp : r.phase with
  | working batch c =>
    obtain ⟨earlier, later, -, hw⟩ := h.works batch c hp
    calc (Phase.working batch c).inFlight ≤ c.members.length := List.countP_le_length
      _ = batch.length := hw.seen.length_eq.symm
      _ ≤ o.batchSize := h.length_batch_le (by rw [hp]; rfl)
  | _ => exact Nat.zero_le _

/-- One at a time, the platforms are recorded as they were asked for. -/
theorem Lawful.prefix_platforms (h : Lawful p a o (batches o.batchSize platforms) new r)
    (ho : o.batchSize ≤ 1) : r.outcomes.map (·.platform) <+: platforms := by
  -- a batch has one platform at most, so no order is left open
  have hpast : (r.past.flatMap Group.records).map (·.2.platform) =
      (r.past.map Group.batch).flatten := by
    have heq : ∀ g ∈ r.past, g.records.map (·.2.platform) = g.batch := fun g hg =>
      eq_of_perm (h.past g hg) ((h.length_past_le g hg).trans ho)
    rw [List.map_flatMap, List.flatMap_def, List.map_congr_left heq]
  have hcurrent : r.phase.ended.map (·.2.platform) <+: r.phase.batch?.toList.flatten := by
    refine prefix_of_subperm h.subperm_current ?_
    cases hb : r.phase.batch? with
    | none => exact Nat.zero_le _
    | some batch =>
      rw [Option.toList_some, List.flatten_singleton]
      exact (h.length_batch_le hb).trans ho
  rw [map_platform_outcomes, hpast, ← h.flatten_turns, List.append_assoc]
  exact (List.prefix_append_right_inj _).2 (hcurrent.trans (List.prefix_append _ _))

/-- A sync leaves no platform out unless a cancellation or a failure has ended it. -/
theorem Lawful.perm_platforms {journal : List (Bool × Event)}
    (h : Lawful p a o (batches o.batchSize platforms) new r)
    (hp : r.phase = .closed false journal) (hs : ¬ ∃ g ∈ r.past.getLast?, g.Stops o) :
    (r.outcomes.map (·.platform)).Perm platforms := by
  have hpending : r.pending = [] := by
    rcases h.closed _ _ hp with hn | ⟨hc, -⟩ | hstops
    · exact hn
    · cases hc
    · exact absurd hstops hs
  -- no batch is left, so each platform has its record
  have hflat := h.flatten_turns
  rw [hpending, hp] at hflat
  rw [map_platform_outcomes, hp, ← hflat]
  simpa [Phase.batch?, Phase.ended] using perm_of_past h.past

/-- **The schedule is kept at every moment of a sync.** -/
theorem scheduled_of_lawful (h : Lawful p a o (batches o.batchSize platforms) new r) :
    Scheduled o platforms new r where
  turns := h.turns
  past := h.past
  current := h.subperm_current
  inFlight := h.inFlight_le
  progress := h.progress
  begun := h.begun
  closed fired journal hp hn := (h.closed fired journal hp).resolve_left hn
  status task moment ht := by
    rw [task.status_finish_eq_completed_iff, ← ht]
    refine ⟨fun h outcome ho => ?_, fun h result hr => h _ (List.mem_map_of_mem hr)⟩
    obtain ⟨result, hr, rfl⟩ := List.mem_map.1 ho
    exact h result hr
  order ho := h.prefix_platforms (Nat.max_le.2 ⟨ho, le_rfl⟩)
  complete journal hp hs id hid := by
    have hgood : ¬ ∃ g ∈ r.past.getLast?, g.Stops o := by
      intro hstops
      obtain ⟨outcome, ho, hf⟩ := exists_failure_of_stops hstops
      rw [hs outcome ho] at hf
      cases hf
    have hids : id ∈ r.outcomes.map (·.platform) := (h.perm_platforms hp hgood).mem_iff.2 hid
    obtain ⟨outcome, ho, hid⟩ := List.mem_map.1 hids
    exact ⟨outcome, ho, hid, hs outcome ho⟩

end Lawful

end Rollout

namespace Publisher

variable {σ : Type} (p : Publisher σ) (a : Article) (o : SyncOptions) (platforms : List String)

/-- **The schedule of a sync.** It is kept at every moment, in whatever order the platforms of
a batch end. Every sync is a rollout; so one at a time, its results are in the order of the
platforms, and if it has ended well without a cancellation, there is a good one for each. -/
theorem sync_schedule :
    (∀ fired journal r,
      Rollout.Reaches p a o (.start fired journal (batches o.batchSize platforms)) r →
        ∃ new, r.phase.journal = journal ++ new ∧ r.Scheduled o platforms new) ∧
    ∀ id cancels (w : World σ) task w', p.sync id a platforms o cancels w = (task, w') →
      (∃ r, p.Goes a o platforms w task w' r) ∧
      (o.concurrency ≤ 1 → task.results.map (·.platform) <+: platforms) ∧
      (w'.cancelled = false → task.status = .completed → ∀ platform ∈ platforms,
        ∃ result ∈ task.results, result.platform = platform ∧ result.success = true) := by
  have hkept : ∀ fired journal r,
      Rollout.Reaches p a o (.start fired journal (batches o.batchSize platforms)) r →
        ∃ new, r.phase.journal = journal ++ new ∧ r.Scheduled o platforms new := by
    intro fired journal r hr
    obtain ⟨new, hjournal, h⟩ := Rollout.lawful_of_reaches (Rollout.lawful_start fired journal _) hr
    exact ⟨new, hjournal, Rollout.scheduled_of_lawful h⟩
  refine ⟨hkept, fun id cancels w task w' hsync => ?_⟩
  obtain ⟨r, hgoes⟩ := p.exists_goes_of_sync a o cancels id platforms w
  rw [hsync] at hgoes
  obtain ⟨new, -, hs⟩ := hkept _ _ r hgoes.reaches
  obtain ⟨journal, _, _, _, hphase, -⟩ := hgoes.closed
  refine ⟨⟨r, hgoes⟩, fun ho => ?_, fun hw hstatus platform hmem => ?_⟩
  · have horder := hs.order ho
    rw [← hgoes.results, List.map_map] at horder
    exact horder
  · rw [hw] at hphase
    have hgood : ∀ outcome ∈ r.outcomes, outcome.success = true := by
      rw [← hgoes.results]
      intro outcome ho
      obtain ⟨result, hr, rfl⟩ := List.mem_map.1 ho
      exact hgoes.status.1 hstatus result hr
    obtain ⟨outcome, ho, hplatform, hsuccess⟩ := hs.complete journal hphase hgood platform hmem
    rw [← hgoes.results] at ho
    obtain ⟨result, hr, rfl⟩ := List.mem_map.1 ho
    exact ⟨result, hr, hplatform, hsuccess⟩

end Publisher

end Syndication
