import Syndication.Proofs.Endpoint.Execution
import Syndication.Proofs.Workflow.Steps

/-!
# Runs that the transport has let down

A run is worth another try only when it has ended with a failure of transport. There is one
thing that such an error comes from: the endpoint that saves a draft, changes it or makes the
post public was executed, its request was sent, and there was no answer or one with a status
that the endpoint does not accept. Everything else that goes wrong has an error of its own.

* `Executor.exists_reply_of_transport`: how the execution of an endpoint fails for the transport.
* `Platform.blames_drive`: a failure of the steps that is worth another try is the transport's.
* `Platform.letDown_of_run`: so is that of a run.
-/

namespace Syndication

variable {α β : Type}

/-! ### Endpoints -/

/-- The reply to the request of an endpoint is a failure of transport. -/
inductive Endpoint.LetDown (e : Endpoint) : Reply → TransportError → Prop where
  /-- There was no answer. -/
  | noAnswer (cause : TransportError) : e.LetDown (.failure cause) cause
  /-- The status of the answer is not accepted. -/
  | unaccepted {r : Response} (h : e.accepts r.status = false) :
    e.LetDown (.answer r) (.status r.status (errorBody r))

theorem Endpoint.letDown_of_after {e : Endpoint} {reply : Reply} {name : String}
    {cause : TransportError} (h : e.after reply = .value (.error (.transport name cause))) :
    name = e.name ∧ e.LetDown reply cause := by
  cases reply with
  | answer r =>
    rcases e.understand_cases r with ⟨htakes, hr⟩ | ⟨-, -, hr⟩ | ⟨-, -, hr⟩
    · cases hr.symm.trans (Ending.value.inj h)
      exact ⟨rfl, .unaccepted (Bool.not_eq_true _ ▸ takes_iff.not.1 htakes)⟩
    · cases hr.symm.trans (Ending.value.inj h)
    · cases hr.symm.trans (Ending.value.inj h)
  | failure cause' =>
    cases h
    exact ⟨rfl, .noAnswer _⟩
  | fault text => cases h

namespace Executor

variable {x : Executor} {e : Endpoint} {c : Context} {b b' : Bool} {log : List Entry}

/-- The hooks change headers and bodies alone. -/
theorem target_of_prepares {r : Request} (h : x.Prepares e c b log b' (.value (.ok r))) :
    r.method = (e.request c).method ∧ r.url = (e.request c).url := by
  cases h
  exact ⟨rfl, rfl⟩

/-- **How the execution of an endpoint fails for the transport**: the last that is seen of it is
the request and what came back. -/
theorem exists_reply_of_transport {name : String} {cause : TransportError}
    (h : (x.execute e c).Course b log b' (.value (.error (.transport name cause)))) :
    name = e.name ∧ ∃ before b₁ r reply,
      log = before ++ [⟨b₁, .send r⟩, ⟨b', .receive reply⟩] ∧ told before = [] ∧
      r.method = (e.request c).method ∧ r.url = (e.request c).url ∧ e.LetDown reply cause := by
  obtain ⟨_, -, hv⟩ | ⟨_, -, hv⟩ | ⟨before, b₁, r, reply, hprepares, -, rfl, hafter⟩ :=
    course_execute.1 h
  · cases hv
  · cases hv
  · obtain ⟨hmethod, hurl⟩ := target_of_prepares hprepares
    obtain ⟨hname, hletDown⟩ := Endpoint.letDown_of_after hafter.symm
    have hquiet := Program.told_of_silent (x.silent_prepare e c) (course_prepare.2 hprepares)
    exact ⟨hname, before, b₁, r, reply, rfl, hquiet, hmethod, hurl, hletDown⟩

end Executor

/-! ### Steps -/

/-- The step that is taken in a state. -/
def WorkflowState.step? : WorkflowState → Option Step
  | .creatingDraft => some .createDraft
  | .updatingDraft => some .updateDraft
  | .publishing => some .publish
  | _ => none

/-- **The transport has let a run down**: the last that its steps show is that the endpoint of a
step was executed, that its request was sent, and what came back. -/
inductive Platform.LetDown (p : Platform) : List Entry → Failure → Prop where
  | execution {before during : List Entry} {b b₁ b₂ : Bool} {s : WorkflowState} {step : Step}
    {e : Endpoint} {c : Context} {r : Request} {reply : Reply} {cause : TransportError}
    (hstep : s.step? = some step) (hendpoint : p.definition.endpoint? step = some e)
    (hduring : told during = []) (hmethod : r.method = (e.request c).method)
    (hurl : r.url = (e.request c).url) (hreply : e.LetDown reply cause) :
    p.LetDown
      (before ++ ⟨b, .report (.executing p.id s e c)⟩ :: (during ++
        [⟨b₁, .send r⟩, ⟨b₂, .receive reply⟩, ⟨b₂, .report (.executed p.id s none)⟩]))
      ⟨s, .execution (.transport e.name cause)⟩

theorem Platform.LetDown.after {p : Platform} {log log' : List Entry} {f : Failure}
    (h : p.LetDown log' f) : p.LetDown (log ++ log') f := by
  obtain ⟨hstep, hendpoint, hduring, hmethod, hurl, hreply⟩ := h
  rw [← List.append_assoc]
  exact .execution hstep hendpoint hduring hmethod hurl hreply

/-- Every failure of a part of a run that is worth another try is the transport's. -/
def Stage.Blames (x : Stage α) (p : Platform) : Prop :=
  ∀ ⦃b : Bool⦄ ⦃log : List Entry⦄ ⦃b' : Bool⦄ ⦃f : Failure⦄,
    x.run.Course b log b' (.value (.error f)) → f.error.isRetryable = true → p.LetDown log f

/-- No failure of a part of a run is worth another try. -/
def Attempt.Lasts (x : Attempt α) : Prop :=
  ∀ ⦃b : Bool⦄ ⦃log : List Entry⦄ ⦃b' : Bool⦄ ⦃e : WorkflowError⦄,
    x.run.Course b log b' (.value (.error e)) → e.isRetryable = false

theorem Attempt.Quiet.lasts {x : Attempt α} (hx : x.Quiet) : x.Lasts :=
  fun _ _ _ _ h => (WorkflowError.lasting_of_isOfContent (hx.error h)).2

section Rules

variable {p : Platform}

theorem blames_pure (a : α) : (pure a : Stage α).Blames p := by
  intro b log b' f h
  obtain ⟨-, -, hv⟩ := Program.course_pure.1 h
  cases hv

theorem Stage.Blames.bind {x : Stage α} {f : α → Stage β} (hx : x.Blames p)
    (hf : ∀ a, (f a).Blames p) : (x >>= f).Blames p := by
  intro b log b' failure h hretry
  obtain ⟨log₁, b₁, a, log₂, -, hf', rfl⟩ | ⟨_, hx', hv⟩ | ⟨_, _, hv⟩ := course_run_bind h
  · exact (hf a hf' hretry).after
  · cases hv
    exact hx hx' hretry
  · cases hv

/-- A failure of a part in a state is one of the part. -/
theorem course_within {x : Attempt α} {s : WorkflowState} {b b' : Bool} {log : List Entry}
    {f : Failure} (h : (Attempt.within s x).run.Course b log b' (.value (.error f))) :
    ∃ e, x.run.Course b log b' (.value (.error e)) ∧ f = ⟨s, e⟩ := by
  obtain ⟨r, hx, hv⟩ | ⟨_, _, hv⟩ := Program.course_map.1 h
  · cases r <;> cases hv
    exact ⟨_, hx, rfl⟩
  · cases hv

theorem blames_within {x : Attempt α} (hx : x.Lasts) (s : WorkflowState) :
    (Attempt.within s x).Blames p := by
  intro b log b' f h hretry
  obtain ⟨e, he, rfl⟩ := course_within h
  rw [hx he] at hretry
  cases hretry

/-- A state that is not entered is no matter of the transport. -/
theorem blames_enter (s t : WorkflowState) : (p.enter s t).Blames p := by
  intro b log b' f h hretry
  obtain ⟨-, hv⟩ | ⟨_, _, hv⟩ := course_enter h <;> cases hv
  cases hretry

/-- A session that cannot be checked is not checked again. -/
theorem lasts_authenticate (c : Context) : (p.authenticate c).Lasts := by
  intro b log b' e h
  rw [Platform.authenticate, run_perform_bind] at h
  obtain ⟨_, _, r, _, -, hr, -⟩ | ⟨_, _, hv⟩ := Program.course_bind.1 h
  · cases r with
    | ok x =>
      obtain ⟨-, -, hv⟩ := Program.course_pure.1 hr
      cases hv
    | error cause =>
      cases cause <;>
      · obtain ⟨-, -, hv⟩ := Program.course_pure.1 hr
        cases hv
        rfl
  · cases hv

/-- The endpoint of a step fails for the transport when that has let it down. -/
theorem blames_execute {s : WorkflowState} {step : Step} {e : Endpoint} (c : Context)
    (hstep : s.step? = some step) (he : p.definition.endpoint? step = some e) :
    (Attempt.within s (p.execute s e c)).Blames p := by
  intro b log b' f h hretry
  obtain ⟨error, herror, rfl⟩ := course_within h
  obtain ⟨name, cause, rfl⟩ := (WorkflowError.isRetryable_iff _).1 hretry
  rw [Platform.execute, run_perform_bind] at herror
  obtain ⟨log₁, b₁, r, log₂, hcall, hr, rfl⟩ | ⟨_, _, hv⟩ := Program.course_bind.1 herror
  · cases r with
    | ok x =>
      obtain ⟨-, -, hv⟩ := Program.course_pure.1 hr
      cases hv
    | error cause' =>
      obtain ⟨rfl, rfl, hv⟩ := Program.course_pure.1 hr
      cases hv
      obtain ⟨during, hexecute, ⟨_, hv, rfl⟩ | ⟨_, hv, -⟩⟩ := course_call hcall <;> cases hv
      obtain ⟨rfl, before, b₅, request, reply, rfl, hbefore, hmethod, hurl, hreply⟩ :=
        Executor.exists_reply_of_transport hexecute
      rw [List.append_nil, List.append_assoc]
      -- nothing is seen before the execution
      change p.LetDown ([] ++ _) _
      exact .execution hstep he hbefore hmethod hurl hreply
  · cases hv

end Rules

/-! ### The whole run -/

namespace Platform

variable (p : Platform)

/-- A step, taken if the platform has the endpoint for it. -/
theorem blames_takeStep {step : Step} {s target : WorkflowState} (c : Context)
    (hstep : target.step? = some step) :
    (p.takeStep (p.definition.endpoint? step) target (s, c)).Blames p := by
  unfold takeStep
  cases he : p.definition.endpoint? step with
  | none => exact blames_pure _
  | some e =>
    exact (blames_enter s target).bind fun _ =>
      (blames_execute c hstep he).bind fun _ => blames_pure _

/-- **A failure of the steps that is worth another try is the transport's.** -/
theorem blames_drive (k : ContentProcessor) (a : Article) (draftOnly : Bool) :
    (p.drive k a draftOnly).Blames p := by
  unfold drive
  split
  · exact blames_within (Attempt.Quiet.fail rfl).lasts _
  · refine (blames_enter _ _).bind fun _ => ?_
    refine (blames_within (lasts_authenticate _) _).bind fun _ => ?_
    refine (blames_enter _ _).bind fun _ =>
      (blames_within (p.quiet_transform k a _).lasts _).bind fun c => ?_
    refine (p.blames_takeStep c rfl).bind fun progress => ?_
    obtain ⟨s, c⟩ := progress
    refine (p.blames_takeStep c rfl).bind fun progress => ?_
    obtain ⟨s, c⟩ := progress
    split
    · exact (blames_enter _ _).bind fun _ => (blames_enter _ _).bind fun _ => blames_pure _
    · rename_i e he
      have hpublish := (Option.filter_eq_some_iff.1 he).1
      exact (blames_enter _ _).bind fun _ => (blames_execute _ rfl hpublish).bind fun _ =>
        (blames_enter _ _).bind fun _ => blames_pure _

/-- **A run that is worth another try was let down by the transport**, and it has said so. -/
theorem letDown_of_run {k : ContentProcessor} {a : Article} {draftOnly b b' : Bool}
    {log : List Entry} {e : WorkflowError}
    (h : (p.run k a draftOnly).Course b log b' (.value (.error e))) (he : e.isRetryable = true) :
    ∃ log₁ s, log = log₁ ++ [⟨b', .report (.runFailed p.id s e.message)⟩] ∧
      p.LetDown log₁ ⟨s, e⟩ := by
  obtain ⟨_, _, hv⟩ | ⟨log₁, f, hd, rfl, hv⟩ | ⟨_, _, _, _, hv⟩ := p.course_run h <;> cases hv
  · exact ⟨log₁, f.state, rfl, p.blames_drive k a draftOnly hd he⟩
  · cases he

end Platform

end Syndication
