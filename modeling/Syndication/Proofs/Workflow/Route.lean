import Syndication.Proofs.Program.Realised
import Syndication.Proofs.Workflow.Steps

/-!
# The route of a run

The definition of a platform fixes the states of a run that ends well, and the endpoints
that it executes. Whatever the transport replies and the hooks do, whenever the cancellation
fires and whoever runs at the same time, a run goes the first part of this way, and the
whole of it exactly when it ends well. A run that does not says so, once and last.

The milestones of a run are the first ones of its itinerary and, if it fails, some that
lead nowhere (`Platform.exists_parts_of_course`). Everything about the way that was gone is
read off the first part (`Platform.travels_of_parts`).

* `Platform.run_journey`: the law of a run, for every course of it and so for every run on
  the clock.
-/

namespace Syndication

open Milestone

/-! ### The way that was gone -/

/-- **The way of a run**, as far as it went. -/
structure Platform.Travels (p : Platform) (draftOnly : Bool) (made : List Milestone) : Prop where
  /-- The states that were passed are the first of the route. -/
  states : .idle :: made.filterMap target? <+: p.route draftOnly
  /-- Each was entered from the one before. -/
  passages : made.filterMap passage? <+: (p.route draftOnly).zip (p.route draftOnly).tail
  /-- The endpoints that were executed, with their states, are the first of the plan. -/
  executions : made.filterMap execution? <+: p.plan draftOnly
  /-- None was executed twice. -/
  once : ((made.filterMap execution?).map (·.1)).Nodup
  /-- For a draft, nothing was made public. -/
  unpublished : draftOnly = true → ∀ e, (.publishing, e) ∉ made.filterMap execution?
  /-- Before an execution began, all that was executed earlier had ended well. -/
  succession : ∀ before state e after, made = before ++ .begins p.id state e :: after →
    before.filterMap success? = (before.filterMap execution?).map (·.1)

/-- A milestone that leads nowhere. -/
def Milestone.LeadsNowhere (m : Milestone) : Prop :=
  m.target? = none ∧ m.passage? = none ∧ m.execution? = none ∧ m.success? = none

/-- What is left of a list when what follows a first part does not count. -/
theorem filterMap_append_of_none {γ δ : Type} {f : γ → Option δ} {first tail : List γ}
    (h : ∀ x ∈ tail, f x = none) : (first ++ tail).filterMap f = first.filterMap f := by
  rw [List.filterMap_append, List.filterMap_eq_nil_iff.2 h, List.append_nil]

namespace Platform

variable (p : Platform) (draftOnly : Bool)

/-- The first part of an itinerary is the way of a run. -/
theorem travels_of_parts {first rest tail : List Milestone}
    (hplanned : itinerary p.id .idle (p.legs draftOnly) = first ++ rest)
    (htail : ∀ m ∈ tail, m.LeadsNowhere) : p.Travels draftOnly (first ++ tail) := by
  have hprefix : ∀ {γ : Type} (f : Milestone → Option γ), (∀ m ∈ tail, f m = none) →
      (first ++ tail).filterMap f <+: (itinerary p.id .idle (p.legs draftOnly)).filterMap f := by
    intro γ f hf
    rw [filterMap_append_of_none hf, hplanned, List.filterMap_append]
    exact List.prefix_append _ _
  have hexecutions : (first ++ tail).filterMap execution? <+: p.plan draftOnly := by
    have h := hprefix execution? fun m hm => (htail m hm).2.2.1
    rwa [executions_itinerary] at h
  refine ⟨?_, ?_, hexecutions, ?_, ?_, ?_⟩
  · have h := hprefix target? fun m hm => (htail m hm).1
    rw [targets_itinerary] at h
    exact List.prefix_cons_inj .idle |>.2 h
  · have h := hprefix passage? fun m hm => (htail m hm).2.1
    rwa [passages_itinerary] at h
  · exact (p.nodup_plan draftOnly).sublist (hexecutions.sublist.map _)
  · rintro rfl e he
    exact p.publishing_not_mem_plan e (hexecutions.subset he)
  · intro before state e after hmade
    -- the execution began in the first part, since nothing begins in the tail
    obtain ⟨after', hfirst⟩ : ∃ after', first = before ++ .begins p.id state e :: after' := by
      rcases List.append_eq_append_iff.1 hmade with ⟨as, hbefore, htail'⟩ | ⟨as, hfirst, has⟩
      · have hmem : .begins p.id state e ∈ tail := by simp [htail']
        cases (htail _ hmem).2.2.1
      · cases as with
        | nil =>
          have hmem : .begins p.id state e ∈ tail := by simp [← (List.nil_append tail ▸ has)]
          cases (htail _ hmem).2.2.1
        | cons m as =>
          obtain ⟨rfl, -⟩ := List.cons_eq_cons.1 has
          exact ⟨as, hfirst⟩
    rw [hfirst, List.append_assoc] at hplanned
    exact successes_before_begins p.id .idle hplanned

/-- As long as something of the itinerary is left, the run is not done. -/
theorem done_not_mem_of_parts {first rest : List Milestone}
    (hplanned : itinerary p.id .idle (p.legs draftOnly) = first ++ rest) (hne : rest ≠ []) :
    .done ∉ first.filterMap target? := by
  rw [legs, itinerary_append, ← List.dropLast_concat_getLast hne, ← List.append_assoc] at hplanned
  -- the last milestone of the itinerary is certainly left
  have hbefore := (List.append_inj' hplanned rfl).1
  have htargets := congrArg (List.filterMap target?) hbefore
  rw [targets_itinerary, List.filterMap_append] at htargets
  intro hdone
  have hmem : .done ∈ (p.legsBeforeDone draftOnly).map Leg.state := by
    rw [htargets]
    exact List.mem_append_left _ hdone
  obtain ⟨leg, hleg, hstate⟩ := List.mem_map.1 hmem
  exact p.state_ne_done_of_mem draftOnly hleg hstate

end Platform

/-! ### The law of a run -/

/-- What is reported in a course, in order. -/
def events (log : List Entry) : List Event :=
  (told log).map (·.2)

/-- Whether the event says that a run has failed or was broken off. -/
def Event.isFailure (e : Event) : Bool :=
  e.milestone?.any Milestone.isFailure

/-- **The law of a run** with its course and its result. -/
structure Platform.Journey (p : Platform) (draftOnly : Bool) (log : List Entry)
    (r : Except WorkflowError Publication) : Prop where
  /-- It goes the first part of its way. -/
  travels : p.Travels draftOnly (milestones log)
  /-- It ends well when it is done, and only then. -/
  ok_iff : (∃ x, r = .ok x) ↔ .done ∈ (milestones log).filterMap target?
  /-- If it ends well, no failure is reported. -/
  succeeded : ∀ x, r = .ok x → ∀ e ∈ events log, e.isFailure = false
  /-- A failure is reported once and last, with the state in which the run stood. -/
  failed : ∀ e, r = .error e → e.isInternal = false →
    ∃ before, events log =
        before ++ [.runFailed p.id (standing .idle (milestones log)) e.message] ∧
      ∀ e ∈ before, e.isFailure = false
  /-- A fault is reported once and last, and no failure beside it. -/
  panicked : ∀ text, r = .error (.internal text) →
    ∃ before, events log = before ++ [.runPanicked p.id text] ∧ ∀ e ∈ before, e.isFailure = false
  /-- It leaves a draft exactly when no more was asked for or the platform cannot publish. -/
  draft : ∀ x, r = .ok x →
    (x.draftOnly = true ↔ draftOnly = true ∨ p.definition.endpoint? .publish = none)

theorem milestones_concat_report (log : List Entry) (b : Bool) (e : Event) :
    milestones (log ++ [⟨b, .report e⟩]) = milestones log ++ e.milestone?.toList := by
  cases h : e.milestone? <;> simp [milestones, h]

theorem events_concat_report (log : List Entry) (b : Bool) (e : Event) :
    events (log ++ [⟨b, .report e⟩]) = events log ++ [e] := by
  simp [events]

/-- The failure of a run is one of its milestones. -/
theorem isFailure_eq_false_of_milestones {log : List Entry}
    (h : ∀ m ∈ milestones log, m.isFailure = false) : ∀ e ∈ events log, e.isFailure = false := by
  intro e he
  obtain ⟨entry, hentry, rfl⟩ := List.mem_map.1 he
  unfold Event.isFailure
  cases hm : entry.2.milestone? with
  | none => rfl
  | some m => exact h m (List.mem_filterMap.2 ⟨entry, hentry, hm⟩)

namespace Platform

variable (p : Platform) {k : ContentProcessor} {a : Article} {draftOnly b b' : Bool}
  {log : List Entry}

/-- What the steps of a run that ends with a failure have made, is a first part of the
itinerary, and beyond it at most that an endpoint has failed. -/
theorem exists_parts_of_error {f : Failure}
    (h : (p.drive k a draftOnly).run.Course b log b' (.value (.error f))) :
    ∃ first rest tail, itinerary p.id .idle (p.legs draftOnly) = first ++ rest ∧ rest ≠ [] ∧
      milestones log = first ++ tail ∧ (∀ m ∈ tail, m.LeadsNowhere ∧ m.isFailure = false) ∧
      f.state = standing .idle first ∧ f.error.isInternal = false := by
  obtain ⟨-, hbreak, hinternal⟩ := p.keeps_drive k a draftOnly b h
  obtain ⟨first, rest, hplanned, hne, hstate, hmade⟩ := exists_of_breaksOff hbreak
  rcases hmade with hmade | hmade
  · exact ⟨first, rest, [], hplanned, hne, by rw [hmade, List.append_nil], by simp, hstate,
      hinternal⟩
  · exact ⟨first, rest, _, hplanned, hne, hmade,
      List.forall_mem_singleton.2 ⟨⟨rfl, rfl, rfl, rfl⟩, rfl⟩, hstate, hinternal⟩

/-- A run that does not end well: the first part of the way, and at the end the failure. -/
theorem journey_of_parts {first rest tail : List Milestone} {failure : Event}
    {error : WorkflowError} {m : Milestone}
    (hplanned : itinerary p.id .idle (p.legs draftOnly) = first ++ rest) (hne : rest ≠ [])
    (hlog : milestones log = first ++ tail)
    (htail : ∀ m ∈ tail, m.LeadsNowhere ∧ m.isFailure = false)
    (hm : failure.milestone? = some m) (hnowhere : m.LeadsNowhere)
    (hfailure : (∃ text, error = .internal text ∧ failure = .runPanicked p.id text) ∨
      error.isInternal = false ∧
        failure = .runFailed p.id (standing .idle first) error.message) :
    p.Journey draftOnly (log ++ [⟨b', .report failure⟩]) (.error error) := by
  have hmade : milestones (log ++ [⟨b', .report failure⟩]) = first ++ (tail ++ [m]) := by
    rw [milestones_concat_report, hlog, hm, List.append_assoc]
    rfl
  have htail' : ∀ m' ∈ tail ++ [m], m'.LeadsNowhere := by
    intro m' hm'
    rcases List.mem_append.1 hm' with hm' | hm'
    · exact (htail m' hm').1
    · rwa [List.mem_singleton.1 hm']
  -- no state is entered beyond the first part, so the run stands where that has led
  have htargets : (first ++ (tail ++ [m])).filterMap target? = first.filterMap target? :=
    filterMap_append_of_none fun m' hm' => (htail' m' hm').1
  -- the one failure that is reported is the last event
  have hevents : ∀ e ∈ events log, e.isFailure = false := by
    refine isFailure_eq_false_of_milestones fun m' hm' => ?_
    rw [hlog] at hm'
    rcases List.mem_append.1 hm' with hm' | hm'
    · refine isFailure_of_mem_itinerary p.id .idle (p.legs draftOnly) ?_
      rw [hplanned]
      exact List.mem_append_left _ hm'
    · exact (htail m' hm').2
  refine ⟨?_, ?_, nofun, ?_, ?_, nofun⟩
  · rw [hmade]
    exact p.travels_of_parts draftOnly hplanned htail'
  · rw [hmade, htargets]
    exact iff_of_false nofun (p.done_not_mem_of_parts draftOnly hplanned hne)
  · intro e he hi
    cases he
    obtain ⟨text, rfl, -⟩ | ⟨-, rfl⟩ := hfailure
    · cases hi
    · refine ⟨events log, ?_, hevents⟩
      have hstanding : standing .idle (milestones (log ++
          [⟨b', .report (.runFailed p.id (standing .idle first) error.message)⟩])) =
          standing .idle first := by
        rw [hmade, standing, htargets, standing]
      rw [events_concat_report, hstanding]
  · intro text he
    cases he
    obtain ⟨text', ht, rfl⟩ | ⟨hi, -⟩ := hfailure
    · cases ht
      exact ⟨events log, events_concat_report log b' _, hevents⟩
    · cases hi

/-- A course of a run ends with a result, and is a journey to it. -/
theorem journey_of_course {x : Ending (Except WorkflowError Publication)}
    (h : (p.run k a draftOnly).Course b log b' x) :
    ∃ r, x = .value r ∧ p.Journey draftOnly log r := by
  obtain ⟨publication, hd, rfl⟩ | ⟨log₁, f, hd, rfl, rfl⟩ | ⟨log₁, text, hd, rfl, rfl⟩ :=
    p.course_run h
  · refine ⟨_, rfl, ?_⟩
    obtain ⟨-, hmade, hdraft⟩ := p.keeps_drive k a draftOnly b hd
    refine ⟨?_, ?_, ?_, nofun, nofun, ?_⟩
    · have htravels := p.travels_of_parts draftOnly (List.append_nil _).symm
        (List.forall_mem_nil _)
      rwa [List.append_nil, ← hmade] at htravels
    · refine iff_of_true ⟨_, rfl⟩ ?_
      rw [hmade, targets_itinerary, legs, List.map_append]
      exact List.mem_append_right _ (List.mem_singleton_self _)
    · rintro x -
      refine isFailure_eq_false_of_milestones fun m hm => ?_
      rw [hmade] at hm
      exact isFailure_of_mem_itinerary _ _ _ hm
    · rintro x hx
      cases hx
      exact hdraft
  · obtain ⟨first, rest, tail, hplanned, hne, hlog, htail, hstate, hi⟩ :=
      p.exists_parts_of_error hd
    refine ⟨_, rfl, p.journey_of_parts hplanned hne hlog htail rfl ⟨rfl, rfl, rfl, rfl⟩
      (.inr ⟨hi, by rw [hstate]⟩)⟩
  · obtain ⟨-, rest, hne, hplanned⟩ := p.keeps_drive k a draftOnly b hd
    exact ⟨_, rfl, p.journey_of_parts hplanned hne (List.append_nil _).symm
      (List.forall_mem_nil _) rfl ⟨rfl, rfl, rfl, rfl⟩ (.inl ⟨_, rfl, rfl⟩)⟩

/-- **The law of a run**, whatever the article, the hooks and the transport are, whatever
happens meanwhile and whenever the cancellation fires.

Every course of a run ends with a result and is a journey to it. The result is the error
for a fault exactly when there was a fault in the steps. On the clock, with any transport
and in any world, a run ends with the result of such a journey. -/
theorem run_journey (k : ContentProcessor) (a : Article) (draftOnly : Bool) :
    (∀ b log b' x, (p.run k a draftOnly).Course b log b' x →
      ∃ r, x = .value r ∧ p.Journey draftOnly log r) ∧
    (∀ b log b' text, (p.drive k a draftOnly).run.Course b log b' (.fault text) →
      (p.run k a draftOnly).Course b
        (log ++ [⟨b', .report (.runPanicked p.id (text.getD defaultFault))⟩]) b'
        (.value (.error (.internal (text.getD defaultFault))))) ∧
    (∀ b log b' text, (p.run k a draftOnly).Course b log b' (.value (.error (.internal text))) →
      ∃ log₁ text', (p.drive k a draftOnly).run.Course b log₁ b' (.fault text') ∧
        text = text'.getD defaultFault) ∧
    ∀ (σ : Type) (t : Transport σ) (w : World σ), ∃ b log b' r,
      (p.run k a draftOnly).Course b log b' (.value r) ∧ p.Journey draftOnly log r ∧
      (Syndication.run t w (p.run k a draftOnly)).1 = some r ∧
      (Syndication.run t w (p.run k a draftOnly)).2.journal = w.journal ++ told log := by
  refine ⟨fun _ _ _ _ => p.journey_of_course, fun _ _ _ _ => p.course_run_of_fault, ?_, ?_⟩
  · intro b log b' text h
    obtain ⟨_, _, hv⟩ | ⟨_, f, hd, _, hv⟩ | ⟨log₁, text', hd, -, hv⟩ := p.course_run h
    · cases hv
    · -- the steps themselves never fail with the error for a fault
      obtain ⟨-, -, hi⟩ := p.keeps_drive k a draftOnly b hd
      simp only [Ending.value.injEq, Except.error.injEq] at hv
      rw [← hv] at hi
      cases hi
    · simp only [Ending.value.injEq, Except.error.injEq, WorkflowError.internal.injEq] at hv
      exact ⟨log₁, text', hd, hv⟩
  · intro σ t w
    obtain ⟨b, log, b', x, hc, hr, hj⟩ :=
      Company.exists_course_of_run t w (p.run k a draftOnly)
    obtain ⟨r, rfl, hjourney⟩ := p.journey_of_course hc
    exact ⟨b, log, b', r, hc, hjourney, hr, hj⟩

end Platform

end Syndication
