import Syndication.Proofs.Workflow.Quiet

/-!
# The steps of a run

What is left of a run *keeps to* the milestones that are planned for it: it makes them all
if it ends well, breaks off if it fails, and makes the first of them if there is a fault.
Whatever it begins, it begins before the cancellation has fired.

There is one rule for each kind of step, and the rules compose as the steps of a run do,
from the end backwards, so `keeps_drive` follows the definition of `Platform.drive` line by
line.

* `keeps_enter`: a state is entered only before the firing.
* `keeps_execution`: an endpoint begins to be executed right after its state was entered.
* `keeps_quiet`: what is quiet makes no milestone.
* `keeps_drive`: a run keeps to its itinerary.
* `course_run`: a run is its steps, and the report of how they have failed.
-/

namespace Syndication

variable {α β : Type}

/-- All that is reported belongs to publishing to a platform, and nothing begins after the
firing. -/
def Heeds (log : List Entry) : Prop :=
  ∀ entry ∈ told log, entry.2.Heeds entry.1

theorem heeds_nil : Heeds [] :=
  List.forall_mem_nil _

@[simp] theorem heeds_append {log log' : List Entry} :
    Heeds (log ++ log') ↔ Heeds log ∧ Heeds log' := by
  simp only [Heeds, told_append, List.mem_append, or_imp, forall_and]

/-- How the milestones `made` of a run that stood in `s` fit those that were planned, by the
way in which the run has ended. -/
def Stage.Fits (id : String) (s : WorkflowState) (planned made : List Milestone)
    (good : α → Prop) : Ending (Except Failure α) → Prop
  | .value (.ok a) => made = planned ∧ good a
  | .value (.error f) => BreaksOff id s planned made f.state ∧ f.error.isInternal = false
  | .fault _ => ∃ rest, rest ≠ [] ∧ planned = made ++ rest

/-- `x.Keeps id b s planned good`: from a moment at which the firing stood at `b`, what is
left of a run that stands in `s` keeps to the milestones that are planned, and a value with
which it ends is good. -/
def Stage.Keeps (x : Stage α) (id : String) (b : Bool) (s : WorkflowState)
    (planned : List Milestone) (good : α → Prop) : Prop :=
  ∀ ⦃log : List Entry⦄ ⦃b' : Bool⦄ ⦃y : Ending (Except Failure α)⦄, x.run.Course b log b' y →
    Heeds log ∧ Stage.Fits id s planned (milestones log) good y

/-- What is made of the execution of an endpoint, by the way in which it has ended. -/
def Attempt.Marks (id : String) (s : WorkflowState) (e : Endpoint) :
    Ending (Except WorkflowError α) → List Milestone → Prop
  | .value (.ok _), made => made = [.begins id s e, .ends id s true]
  | .value (.error cause), made =>
    made = [.begins id s e, .ends id s false] ∧ cause.isInternal = false
  | .fault _, made => made = [.begins id s e]

/-- A part of a run that executes the endpoint of a state, when it begins before the
firing. -/
def Attempt.Executes (x : Attempt α) (id : String) (s : WorkflowState) (e : Endpoint) : Prop :=
  ∀ ⦃log : List Entry⦄ ⦃b' : Bool⦄ ⦃y : Ending (Except WorkflowError α)⦄,
    x.run.Course false log b' y → Heeds log ∧ Attempt.Marks id s e y (milestones log)

/-! ### Rules -/

section Rules

variable {id : String} {b : Bool} {s : WorkflowState} {planned made : List Milestone}
  {good : β → Prop} {log : List Entry} {b' : Bool}

/-- A milestone that was planned and made. -/
theorem Stage.Fits.later {y : Ending (Except Failure β)} {m : Milestone}
    (h : Stage.Fits id (m.target?.getD s) planned made good y) :
    Stage.Fits id s (m :: planned) (m :: made) good y := by
  cases y with
  | value r =>
    cases r with
    | ok a => exact ⟨congrArg (m :: ·) h.1, h.2⟩
    | error f => exact ⟨.later h.1, h.2⟩
  | fault text =>
    obtain ⟨rest, hne, rfl⟩ := h
    exact ⟨rest, hne, rfl⟩

theorem Stage.Keeps.mono {x : Stage β} {good' : β → Prop} (h : x.Keeps id b s planned good)
    (hg : ∀ a, good a → good' a) : x.Keeps id b s planned good' := by
  intro log b' y hc
  obtain ⟨hh, hfits⟩ := h hc
  refine ⟨hh, ?_⟩
  cases y with
  | value r =>
    cases r with
    | ok a => exact ⟨hfits.1, hg a hfits.2⟩
    | error f => exact hfits
  | fault text => exact hfits

theorem keeps_pure {a : β} (h : good a) : (pure a : Stage β).Keeps id b s [] good := by
  intro log b' y hc
  obtain ⟨rfl, -, rfl⟩ := Program.course_pure.1 hc
  exact ⟨heeds_nil, rfl, h⟩

/-- What a course of a part in a state is made of, and of what comes after it. The state is
noted with an error. -/
theorem course_within_bind {x : Attempt α} {f : α → Stage β} {y : Ending (Except Failure β)}
    (h : (Attempt.within s x >>= f).run.Course b log b' y) :
    (∃ log₁ b₁ a log₂, x.run.Course b log₁ b₁ (.value (.ok a)) ∧
      (f a).run.Course b₁ log₂ b' y ∧ log = log₁ ++ log₂) ∨
    (∃ e, x.run.Course b log b' (.value (.error e)) ∧ y = .value (.error ⟨s, e⟩)) ∨
    ∃ text, x.run.Course b log b' (.fault text) ∧ y = .fault text := by
  obtain ⟨log₁, b₁, a, log₂, hc, hf, rfl⟩ | ⟨failure, hc, rfl⟩ | ⟨text, hc, rfl⟩ :=
    course_run_bind h
  · obtain ⟨r, hx, hv⟩ | ⟨_, _, hv⟩ := Program.course_map.1 hc
    · cases r <;> cases hv
      exact .inl ⟨log₁, b₁, a, log₂, hx, hf, rfl⟩
    · cases hv
  · obtain ⟨r, hx, hv⟩ | ⟨_, _, hv⟩ := Program.course_map.1 hc
    · cases r <;> cases hv
      exact .inr (.inl ⟨_, hx, rfl⟩)
    · cases hv
  · obtain ⟨_, _, hv⟩ | ⟨_, hx, hv⟩ := Program.course_map.1 hc <;> cases hv
    exact .inr (.inr ⟨text, hx, rfl⟩)

theorem heeds_of_shows {p : Program α} {x : Ending α} (hp : p.Shows Event.IsQuiet)
    (h : p.Course b log b' x) : Heeds log :=
  fun entry he => (hp h entry he).2

/-- **What is quiet makes no milestone.** It may fail before the next state is entered. -/
theorem keeps_quiet {legs : List Leg} {x : Attempt α} {f : α → Stage β} (hx : x.Quiet)
    (hl : legs ≠ []) (hf : ∀ b a, (f a).Keeps id b s (itinerary id s legs) good) :
    (Attempt.within s x >>= f).Keeps id b s (itinerary id s legs) good := by
  intro log b' y h
  obtain ⟨leg, rest, rfl⟩ := List.exists_cons_of_ne_nil hl
  obtain ⟨log₁, b₁, a, log₂, hc, hf', rfl⟩ | ⟨e, hc, rfl⟩ | ⟨text, hc, rfl⟩ :=
    course_within_bind h
  · obtain ⟨hh, hfits⟩ := hf b₁ a hf'
    refine ⟨heeds_append.2 ⟨heeds_of_shows hx.shows hc, hh⟩, ?_⟩
    rw [milestones_append, milestones_of_shows hx.shows hc]
    exact hfits
  · -- nothing was made, so the state of the first leg was not entered
    refine ⟨heeds_of_shows hx.shows hc, ?_, (WorkflowError.lasting_of_isOfContent (hx.error hc)).1⟩
    rw [milestones_of_shows hx.shows hc]
    exact .stops
  · refine ⟨heeds_of_shows hx.shows hc, itinerary id s (leg :: rest), List.cons_ne_nil _ _, ?_⟩
    rw [milestones_of_shows hx.shows hc]
    rfl

/-- **An endpoint begins to be executed right after its state was entered**, and the run
goes on only when it has succeeded. -/
theorem keeps_execution {e : Endpoint} {x : Attempt α} {f : α → Stage β}
    (hx : x.Executes id s e) (hf : ∀ b a, (f a).Keeps id b s planned good) :
    (Attempt.within s x >>= f).Keeps id false s
      (.begins id s e :: .ends id s true :: planned) good := by
  intro log b' y h
  obtain ⟨log₁, b₁, a, log₂, hc, hf', rfl⟩ | ⟨cause, hc, rfl⟩ | ⟨text, hc, rfl⟩ :=
    course_within_bind h
  · obtain ⟨hh₁, hm⟩ := hx hc
    obtain ⟨hh₂, hfits⟩ := hf b₁ a hf'
    refine ⟨heeds_append.2 ⟨hh₁, hh₂⟩, ?_⟩
    rw [milestones_append, hm]
    exact .later (.later hfits)
  · -- the execution began as planned, and its end is the one that was not planned
    obtain ⟨hh, hm, hi⟩ := hx hc
    rw [hm]
    exact ⟨hh, .later .refused, hi⟩
  · -- the execution began and did not end
    obtain ⟨hh, hm⟩ := hx hc
    rw [hm]
    exact ⟨hh, _, List.cons_ne_nil _ _, rfl⟩

/-- What a course of the step from one state to the next is. -/
theorem course_enter {p : Platform} {t : WorkflowState} {y : Ending (Except Failure Unit)}
    (h : (p.enter s t).run.Course b log b' y) :
    (log = [⟨true, .report (.cancelled p.id s)⟩] ∧ y = .value (.error ⟨s, .cancelled⟩)) ∨
    (log = [⟨false, .report (.transition p.id s t)⟩] ∧ b' = false ∧ y = .value (.ok ())) := by
  have hf := Program.course_isCancelled_bind.1 h
  cases b with
  | true =>
    cases hf with
    | report hf =>
      obtain ⟨rfl, -, rfl⟩ := Program.course_done.1 hf
      exact .inl ⟨rfl, rfl⟩
  | false =>
    cases hf with
    | report hf =>
      obtain ⟨rfl, rfl, rfl⟩ := Program.course_done.1 hf
      exact .inr ⟨rfl, rfl, rfl⟩

/-- **A state is entered only before the firing.** -/
theorem keeps_enter {p : Platform} {t : WorkflowState} {f : Unit → Stage β}
    (hf : (f ()).Keeps p.id false t planned good) :
    (p.enter s t >>= f).Keeps p.id b s (.enters p.id s t :: planned) good := by
  intro log b' y h
  obtain ⟨log₁, b₁, a, log₂, hc, hf', rfl⟩ | ⟨failure, hc, rfl⟩ | ⟨text, hc, rfl⟩ :=
    course_run_bind h
  · obtain ⟨_, hv⟩ | ⟨rfl, rfl, hv⟩ := course_enter hc <;> cases hv
    obtain ⟨hh, hfits⟩ := hf hf'
    refine ⟨heeds_append.2 ⟨List.forall_mem_singleton.2 ⟨rfl, nofun⟩, hh⟩, ?_⟩
    rw [milestones_append]
    exact .later hfits
  · obtain ⟨rfl, hv⟩ | ⟨_, _, hv⟩ := course_enter hc <;> cases hv
    exact ⟨List.forall_mem_singleton.2 ⟨rfl, fun _ => rfl⟩, .stops, rfl⟩
  · obtain ⟨_, hv⟩ | ⟨_, _, hv⟩ := course_enter hc <;> cases hv

end Rules

/-! ### Executions -/

section Executions

variable {p : Platform} {s : WorkflowState} {e : Endpoint}

/-- The call of an endpoint is its execution between two reports. A fault leaves out the second. -/
theorem course_call {c : Context} {b b' : Bool} {log : List Entry}
    {y : Ending (Except ExecuteError Execution)} (h : (p.call s e c).Course b log b' y) :
    ∃ during, (p.executor.execute e c).Course b during b' y ∧
      ((∃ r, y = .value r ∧ log = ⟨b, .report (.executing p.id s e c)⟩ ::
        (during ++ [⟨b', .report (.executed p.id s (r.toOption.map (·.outputs)))⟩])) ∨
      ∃ text, y = .fault text ∧ log = ⟨b, .report (.executing p.id s e c)⟩ :: during) := by
  obtain ⟨log', rfl, h'⟩ := Program.course_emit_bind.1 h
  obtain ⟨during, b₁, r, log₂, hx, hr, rfl⟩ | ⟨text, hx, rfl⟩ := Program.course_bind.1 h'
  · obtain ⟨log₃, rfl, hend⟩ := Program.course_emit_bind.1 hr
    obtain ⟨rfl, rfl, rfl⟩ := Program.course_pure.1 hend
    exact ⟨during, hx, .inl ⟨r, rfl, rfl⟩⟩
  · exact ⟨log', hx, .inr ⟨text, rfl, rfl⟩⟩

/-- What is reported when the endpoint of a state is executed. -/
theorem told_of_call {c : Context} {b b' : Bool} {log : List Entry}
    {y : Ending (Except ExecuteError Execution)} (h : (p.call s e c).Course b log b' y) :
    (∃ r, y = .value r ∧ told log =
      [(b, .executing p.id s e c), (b', .executed p.id s (r.toOption.map (·.outputs)))]) ∨
    ∃ text, y = .fault text ∧ told log = [(b, .executing p.id s e c)] := by
  obtain ⟨during, hx, hcall⟩ := course_call h
  have hsilent := Program.told_of_silent (p.executor.silent_execute e c) hx
  obtain ⟨r, rfl, rfl⟩ | ⟨text, rfl, rfl⟩ := hcall
  · refine .inl ⟨r, rfl, ?_⟩
    rw [told_report, told_append, hsilent]
    rfl
  · refine .inr ⟨text, rfl, ?_⟩
    rw [told_report, hsilent]

/-- A part of a run that executes an endpoint and then only looks at what has come of
it. -/
theorem executes_of_call {c : Context} {f : Except ExecuteError Execution → Attempt α}
    (hok : ∀ x, ∃ a, f (.ok x) = pure a)
    (herr : ∀ cause, ∃ e', e'.isInternal = false ∧ f (.error cause) = Attempt.fail e') :
    Attempt.Executes (Attempt.perform (p.call s e c) >>= f) p.id s e := by
  intro log b' y h
  rw [run_perform_bind] at h
  -- all that is reported, the call has reported; the rest only turns its result into another
  obtain ⟨log₁, b₁, r, log₂, hc, hf, rfl⟩ | ⟨text, hc, rfl⟩ := Program.course_bind.1 h
  · obtain ⟨_, hv, ht⟩ | ⟨_, hv, _⟩ := told_of_call hc <;> cases hv
    have hh : Heeds log₁ := by
      intro entry he
      rw [ht] at he
      rcases List.mem_pair.1 he with rfl | rfl
      · exact ⟨rfl, nofun⟩
      · exact ⟨rfl, fun _ => rfl⟩
    have hm : milestones log₁ = [.begins p.id s e,
        .ends p.id s (r.toOption.map (·.outputs)).isSome] := by
      rw [milestones, ht]
      rfl
    cases r with
    | ok x =>
      obtain ⟨a, ha⟩ := hok x
      simp only [ha] at hf
      obtain ⟨rfl, -, rfl⟩ := Program.course_pure.1 hf
      rw [List.append_nil]
      exact ⟨hh, hm⟩
    | error cause =>
      obtain ⟨e', hi, he'⟩ := herr cause
      simp only [he'] at hf
      obtain ⟨rfl, -, rfl⟩ := Program.course_pure.1 hf
      rw [List.append_nil]
      exact ⟨hh, hm, hi⟩
  · obtain ⟨_, hv, _⟩ | ⟨_, hv, ht⟩ := told_of_call hc <;> cases hv
    refine ⟨?_, ?_⟩
    · intro entry he
      rw [ht] at he
      rw [List.mem_singleton.1 he]
      exact ⟨rfl, nofun⟩
    · change milestones log = _
      rw [milestones, ht]
      rfl

/-- The session is checked by the endpoint for it. -/
theorem executes_authenticate (p : Platform) (c : Context) :
    (p.authenticate c).Executes p.id .checkingAuth p.definition.auth := by
  refine executes_of_call (fun x => ⟨_, rfl⟩) fun cause => ?_
  cases cause with
  | hook endpoint cause => exact ⟨_, rfl, rfl⟩
  | transport endpoint cause => exact ⟨_, rfl, rfl⟩
  | rejected endpoint message => exact ⟨_, rfl, rfl⟩

theorem executes_execute (p : Platform) (s : WorkflowState) (e : Endpoint) (c : Context) :
    (p.execute s e c).Executes p.id s e :=
  executes_of_call (fun _ => ⟨_, rfl⟩) fun _ => ⟨_, rfl, rfl⟩

end Executions

/-! ### The whole run -/

namespace Platform

variable (p : Platform)

/-- A step in a state of its own, taken if the platform has the endpoint for it. -/
theorem keeps_takeStep {endpoint : Option Endpoint} {b : Bool} {s target : WorkflowState}
    {c : Context} {rest : List Leg} {good : β → Prop} {f : WorkflowState × Context → Stage β}
    (hf : ∀ b s c, (f (s, c)).Keeps p.id b s (itinerary p.id s rest) good) :
    (p.takeStep endpoint target (s, c) >>= f).Keeps p.id b s
      (itinerary p.id s (Leg.ofStep target endpoint ++ rest)) good := by
  cases endpoint with
  | none => exact hf b s c
  | some e =>
    -- the step is the entry of its state and the execution of its endpoint
    have hsteps : p.takeStep (some e) target (s, c) >>= f = p.enter s target >>= fun _ =>
        Attempt.within target (p.execute target e c) >>= fun c => f (target, c) := by
      simp only [takeStep, bind_assoc, pure_bind]
    rw [hsteps]
    exact keeps_enter (keeps_execution (executes_execute p target e c) fun b c => hf b target c)

/-- The end of a run that leaves it at the draft. -/
theorem keeps_finishDraft (b : Bool) (s : WorkflowState) (c : Context) :
    (p.finishDraft (s, c)).Keeps p.id b s
      (itinerary p.id s [⟨.draftOnly, none⟩, ⟨.done, none⟩]) (·.draftOnly = true) :=
  keeps_enter (keeps_enter (keeps_pure rfl))

/-- The end of a run that makes the post public. -/
theorem keeps_finishPost (e : Endpoint) (b : Bool) (s : WorkflowState) (c : Context) :
    (p.finishPost e (s, c)).Keeps p.id b s
      (itinerary p.id s [⟨.publishing, some e⟩, ⟨.done, none⟩]) (·.draftOnly = false) :=
  keeps_enter (keeps_execution (executes_execute p .publishing e c) fun _ _ =>
    keeps_enter (keeps_pure rfl))

/-- **A run keeps to its itinerary**, and leaves a draft exactly when no more was asked for or
the platform cannot publish. -/
theorem keeps_drive (k : ContentProcessor) (a : Article) (draftOnly b : Bool) :
    (p.drive k a draftOnly).Keeps p.id b .idle (itinerary p.id .idle (p.legs draftOnly))
      fun x => x.draftOnly = true ↔ draftOnly = true ∨ p.definition.endpoint? .publish = none := by
  rw [legs_eq]
  unfold drive
  split
  · -- the run fails before it begins
    intro log b' y h
    obtain ⟨rfl, rfl, rfl⟩ := Program.course_pure.1 h
    exact ⟨heeds_nil, .stops, rfl⟩
  · -- one leg after another, each rule leaving the legs that come after it
    refine keeps_enter (keeps_execution (executes_authenticate p _) fun b user => ?_)
    refine keeps_enter (keeps_quiet (p.quiet_transform k a _) (by simp) fun b c => ?_)
    refine p.keeps_takeStep fun b s c => p.keeps_takeStep fun b s c => ?_
    unfold lastLeg
    cases hpublish : (p.definition.endpoint? .publish).filter fun _ => !draftOnly with
    | none =>
      -- a draft was asked for, or there is no endpoint to publish with
      refine (p.keeps_finishDraft b s c).mono fun x hx => iff_of_true hx ?_
      rw [Option.filter_eq_none_iff] at hpublish
      cases he : p.definition.endpoint? .publish with
      | none => exact .inr rfl
      | some e => exact .inl (by simpa using hpublish e he)
    | some e =>
      obtain ⟨he, hd⟩ := Option.filter_eq_some_iff.1 hpublish
      refine (p.keeps_finishPost e b s c).mono fun x hx => iff_of_false (by simp [hx]) ?_
      rintro (rfl | hnone)
      · cases hd
      · rw [he] at hnone
        cases hnone

/-- **A run is its steps, and the report of how they have failed.** -/
theorem course_run {k : ContentProcessor} {a : Article} {draftOnly b b' : Bool} {log : List Entry}
    {x : Ending (Except WorkflowError Publication)}
    (h : (p.run k a draftOnly).Course b log b' x) :
    (∃ publication, (p.drive k a draftOnly).run.Course b log b' (.value (.ok publication)) ∧
      x = .value (.ok publication)) ∨
    (∃ log₁ f, (p.drive k a draftOnly).run.Course b log₁ b' (.value (.error f)) ∧
      log = log₁ ++ [⟨b', .report (.runFailed p.id f.state f.error.message)⟩] ∧
      x = .value (.error f.error)) ∨
    ∃ log₁ text, (p.drive k a draftOnly).run.Course b log₁ b' (.fault text) ∧
      log = log₁ ++ [⟨b', .report (.runPanicked p.id (text.getD defaultFault))⟩] ∧
      x = .value (.error (.internal (text.getD defaultFault))) := by
  obtain ⟨r, hs, rfl⟩ | ⟨log₁, b₁, text, log₂, hs, hh, rfl⟩ := Program.course_catchFault.1 h
  · obtain ⟨log₁, b₁, r', log₂, hd, hr, rfl⟩ | ⟨text, hd, hv⟩ := Program.course_bind.1 hs
    · cases r' with
      | ok publication =>
        obtain ⟨rfl, rfl, hv⟩ := Program.course_pure.1 hr
        rw [List.append_nil]
        exact .inl ⟨publication, hd, hv⟩
      | error f =>
        obtain ⟨log₃, rfl, hp⟩ := Program.course_emit_bind.1 hr
        obtain ⟨rfl, rfl, hv⟩ := Program.course_pure.1 hp
        exact .inr (.inl ⟨log₁, f, hd, rfl, hv⟩)
    · cases hv
  · obtain ⟨log₃, rfl, hp⟩ := Program.course_emit_bind.1 hh
    obtain ⟨rfl, rfl, rfl⟩ := Program.course_pure.1 hp
    obtain ⟨log₄, b₂, r', log₅, hd, hr, rfl⟩ | ⟨text', hd, hv⟩ := Program.course_bind.1 hs
    · -- the report of a failure does not fault
      cases r' with
      | ok publication =>
        obtain ⟨-, -, hv⟩ := Program.course_pure.1 hr
        cases hv
      | error f =>
        obtain ⟨log₆, -, hp⟩ := Program.course_emit_bind.1 hr
        obtain ⟨-, -, hv⟩ := Program.course_pure.1 hp
        cases hv
    · cases hv
      exact .inr (.inr ⟨log₁, text, hd, rfl, rfl⟩)

/-- A fault of the steps becomes an error of the run. -/
theorem course_run_of_fault {k : ContentProcessor} {a : Article} {draftOnly b b' : Bool}
    {log : List Entry} {text : Option String}
    (h : (p.drive k a draftOnly).run.Course b log b' (.fault text)) :
    (p.run k a draftOnly).Course b
      (log ++ [⟨b', .report (.runPanicked p.id (text.getD defaultFault))⟩]) b'
      (.value (.error (.internal (text.getD defaultFault)))) := by
  refine Program.course_catchFault.2 (.inr ⟨log, b', text, _, ?_, .report .done, rfl⟩)
  exact Program.course_bind.2 (.inr ⟨text, h, rfl⟩)

/-- Nothing begins in a run after the firing. -/
theorem heeds_run {k : ContentProcessor} {a : Article} {draftOnly b b' : Bool} {log : List Entry}
    {x : Ending (Except WorkflowError Publication)}
    (h : (p.run k a draftOnly).Course b log b' x) : Heeds log := by
  obtain ⟨_, hd, -⟩ | ⟨log₁, f, hd, rfl, -⟩ | ⟨log₁, text, hd, rfl, -⟩ := p.course_run h
  · exact (p.keeps_drive k a draftOnly b hd).1
  · exact heeds_append.2 ⟨(p.keeps_drive k a draftOnly b hd).1,
      List.forall_mem_singleton.2 ⟨rfl, fun _ => rfl⟩⟩
  · exact heeds_append.2 ⟨(p.keeps_drive k a draftOnly b hd).1,
      List.forall_mem_singleton.2 ⟨rfl, fun _ => rfl⟩⟩

end Platform

end Syndication
