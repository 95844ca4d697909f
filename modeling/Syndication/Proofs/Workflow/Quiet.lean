import Syndication.Proofs.Workflow.Itinerary

/-!
# Quiet parts of a run

A part of a run is *quiet* when it makes no milestone and begins nothing once the
cancellation has fired. The work on the content is: images are uploaded, but each upload
begins only after the run has seen that it is not cancelled, and nothing happens between
the look and the upload. A quiet part fails for reasons of its own, never for a fault.

* `shows_uploadOrCancel`: no upload begins after the firing.
* `quiet_transform`: bringing the content into the format of a platform is quiet.
* `silent_execute`: the execution of an endpoint reports nothing by itself.
-/

namespace Syndication

variable {α β : Type}

/-- Whether with the event something new begins: a state, the execution of an endpoint, an
upload or a batch. -/
def Event.isBeginning : Event → Bool
  | .transition .. | .executing .. | .uploading .. | .batchStarted .. => true
  | _ => false

/-- Whether the event is one of publishing to a platform, and not of a sync as a whole. -/
def Event.isOfRun : Event → Bool
  | .progress .. | .syncStarted .. | .batchStarted .. | .batchesCancelled .. |
    .batchesStopped .. | .syncFinished .. | .platformSkipped .. | .definitionsLoaded .. |
    .definitionSkipped .. => false
  | _ => true

/-- The event is one of publishing to a platform, and nothing begins with it after the
firing. -/
def Event.Heeds (fired : Bool) (e : Event) : Prop :=
  e.isOfRun = true ∧ (fired = true → e.isBeginning = false)

/-- The event is no milestone, and it heeds the cancellation. -/
def Event.IsQuiet (fired : Bool) (e : Event) : Prop :=
  e.milestone? = none ∧ e.Heeds fired

theorem milestones_of_shows {p : Program α} {b b' : Bool} {log : List Entry} {x : Ending α}
    (hp : p.Shows Event.IsQuiet) (h : p.Course b log b' x) : milestones log = [] :=
  List.filterMap_eq_nil_iff.2 fun entry he => (hp h entry he).1

theorem Program.Silent.quiet {p : Program α} (h : p.Silent) : p.Shows Event.IsQuiet :=
  (Program.shows_of_reports h).mono fun _ _ => False.elim

/-! ### Endpoints -/

namespace Executor

variable (x : Executor)

theorem silent_prepare (e : Endpoint) (c : Context) : (x.prepare e c).Silent := by
  have hheaders : ∀ r, (x.withHeaders r c).Silent := by
    intro r
    unfold withHeaders
    split
    · exact Program.reports_bind (x.hooks.silent_beforeRequest _ _) fun _ => trivial
    · trivial
  have hbody : ∀ r, (x.withBody r c).Silent := by
    intro r
    unfold withBody
    split
    · exact Program.reports_bind (x.hooks.silent_prepareBody _ _ _) fun _ => trivial
    · trivial
  refine Program.reports_bind (hheaders _) fun result => ?_
  cases result with
  | ok r => exact hbody r
  | error cause => trivial

/-- The execution of an endpoint reports nothing by itself. -/
theorem silent_execute (e : Endpoint) (c : Context) : (x.execute e c).Silent := by
  refine Program.reports_bind (x.silent_prepare e c) fun result => ?_
  cases result with
  | error cause => trivial
  | ok request =>
    refine Program.reports_bind (Program.silent_request request) fun answer => ?_
    cases answer <;> trivial

end Executor

/-! ### Quiet attempts -/

/-- Whether the error is the one for a fault. -/
def WorkflowError.isInternal : WorkflowError → Bool
  | .internal _ => true
  | _ => false

/-- Whether the error is one for which the work on the content may fail. -/
def WorkflowError.isOfContent : WorkflowError → Bool
  | .hook .. | .unsupported _ | .cancelled => true
  | _ => false

/-- It is not the error for a fault, and another try does not help. -/
theorem WorkflowError.lasting_of_isOfContent {e : WorkflowError} (h : e.isOfContent = true) :
    e.isInternal = false ∧ e.isRetryable = false := by
  cases e <;> first | exact ⟨rfl, rfl⟩ | cases h

/-- A part of a run that is quiet, and fails at most as the work on the content does. -/
structure Attempt.Quiet (x : Attempt α) : Prop where
  shows : x.run.Shows Event.IsQuiet
  error : ∀ {b b' : Bool} {log : List Entry} {e : WorkflowError},
    x.run.Course b log b' (.value (.error e)) → e.isOfContent = true

section Bind

variable {ε : Type} {b b' : Bool} {log : List Entry}

/-- What a course of one part of a run after another is made of. -/
theorem course_run_bind {x : ExceptT ε Program α} {f : α → ExceptT ε Program β}
    {y : Ending (Except ε β)} (h : (x >>= f).run.Course b log b' y) :
    (∃ log₁ b₁ a log₂, x.run.Course b log₁ b₁ (.value (.ok a)) ∧
      (f a).run.Course b₁ log₂ b' y ∧ log = log₁ ++ log₂) ∨
    (∃ e, x.run.Course b log b' (.value (.error e)) ∧ y = .value (.error e)) ∨
    ∃ text, x.run.Course b log b' (.fault text) ∧ y = .fault text := by
  rw [ExceptT.run_bind] at h
  obtain ⟨log₁, b₁, r, log₂, hx, hf, rfl⟩ | ⟨text, hx, rfl⟩ := Program.course_bind.1 h
  · cases r with
    | ok a => exact .inl ⟨log₁, b₁, a, log₂, hx, hf, rfl⟩
    | error e =>
      obtain ⟨rfl, rfl, rfl⟩ := Program.course_pure.1 hf
      exact .inr (.inl ⟨e, by rwa [List.append_nil], rfl⟩)
  · exact .inr (.inr ⟨text, hx, rfl⟩)

/-- A part of a run after something that has no errors. -/
theorem run_perform_bind (p : Program α) (f : α → Attempt β) :
    (Attempt.perform p >>= f).run = p >>= fun a => (f a).run := by
  rw [ExceptT.run_bind, Attempt.perform, ExceptT.run_mk, bind_assoc]
  exact bind_congr fun a => by rw [pure_bind]

end Bind

namespace Attempt.Quiet

theorem pure (a : α) : Quiet (Pure.pure a : Attempt α) where
  shows := Program.shows_pure (P := Event.IsQuiet) (Except.ok a)
  error h := by
    obtain ⟨-, -, he⟩ := Program.course_pure.1 h
    cases he

theorem fail {e : WorkflowError} (he : e.isOfContent = true) :
    Quiet (Attempt.fail e : Attempt α) where
  shows := Program.shows_pure (P := Event.IsQuiet) (Except.error e)
  error h := by
    obtain ⟨-, -, he'⟩ := Program.course_pure.1 h
    cases he'
    exact he

theorem perform {p : Program α} (hp : p.Shows Event.IsQuiet) : Quiet (Attempt.perform p) where
  shows := Program.shows_bind hp fun a => Program.shows_pure (Except.ok a)
  error h := by
    obtain ⟨_, _, a, _, _, hr, -⟩ | ⟨_, _, he⟩ := Program.course_bind.1 h
    · obtain ⟨-, -, he⟩ := Program.course_pure.1 hr
      cases he
    · cases he

theorem bind {x : Attempt α} {f : α → Attempt β} (hx : x.Quiet) (hf : ∀ a, (f a).Quiet) :
    Quiet (x >>= f) where
  shows _ _ _ _ h entry he := by
    obtain ⟨log₁, b₁, a, log₂, hx', hf', rfl⟩ | ⟨e, hx', rfl⟩ | ⟨text, hx', rfl⟩ :=
      course_run_bind h
    · rw [told_append, List.mem_append] at he
      exact he.elim (hx.shows hx' entry) ((hf a).shows hf' entry)
    · exact hx.shows hx' entry he
    · exact hx.shows hx' entry he
  error h := by
    obtain ⟨_, _, a, _, _, hf', -⟩ | ⟨e, hx', he⟩ | ⟨text, _, he⟩ := course_run_bind h
    · exact (hf a).error hf'
    · cases he
      exact hx.error hx'
    · cases he

end Attempt.Quiet

/-! ### The content -/

namespace Platform

variable (p : Platform)

theorem silent_transfer (source : String) (c : Context) : (p.transfer source c).Silent := by
  unfold transfer
  split
  · refine Program.reports_bind (p.hooks.silent_uploadImageByUrl _ _) fun result => ?_
    cases result <;> trivial
  · split
    · trivial
    · refine Program.reports_bind ?_ fun result => ?_
      · refine Program.reports_bind (Program.silent_request _) fun answer => ?_
        cases answer with
        | error cause => trivial
        | ok r =>
          change Program.Silent (ite _ _ _)
          split <;> trivial
      · cases result with
        | error cause => trivial
        | ok image => exact Program.reports_bind (p.executor.silent_execute _ _) fun _ => trivial

/-- **No upload begins after the firing.** -/
theorem shows_uploadOrCancel (source : String) (c : Context) :
    (p.uploadOrCancel source c).Shows Event.IsQuiet := by
  -- what is left once the upload has begun reports at most that it was abandoned
  have hrest : ∀ onCancel : Program (Context × Except WorkflowError String),
      onCancel.Reports (fun e => e.milestone? = none ∧ e.isOfRun = true ∧ e.isBeginning = false) →
      (Program.interruptible onCancel (p.transfer source c)).Shows Event.IsQuiet := by
    intro onCancel hc
    have hreports := Program.reports_interruptible
      (Program.reports_mono (fun _ => False.elim) (p.silent_transfer source c)) hc
    exact (Program.shows_of_reports hreports).mono fun _ _ he =>
      ⟨he.1, he.2.1, fun _ => he.2.2⟩
  intro b log b' x h
  have hf := Program.course_isCancelled_bind.1 h
  cases b with
  | true =>
    cases hf with
    | report hf =>
      obtain ⟨rfl, -, -⟩ := Program.course_done.1 hf
      exact List.forall_mem_singleton.2 ⟨rfl, rfl, fun _ => rfl⟩
  | false =>
    cases hf with
    | watch hf =>
      cases hf with
      | report hf =>
        -- nothing lies between the look at the cancellation and the upload
        refine List.forall_mem_cons.2 ⟨⟨rfl, rfl, nofun⟩, hrest _ ?_ hf⟩
        exact ⟨⟨rfl, rfl, rfl⟩, trivial⟩

/-- A wait that the cancellation ends is quiet. -/
theorem quiet_pause (d : Duration) :
    Attempt.Quiet (ExceptT.mk do
      if ← Program.pause d then return .ok () else return .error .cancelled : Attempt Unit) := by
  have hpause : (Program.pause d).Silent := by
    unfold Program.pause Program.Silent
    split
    · trivial
    · exact ⟨trivial, trivial⟩
  constructor
  · refine Program.shows_bind hpause.quiet fun waited => ?_
    cases waited <;> exact Program.shows_pure _
  · intro b b' log e h
    obtain ⟨_, _, waited, _, _, hr, -⟩ | ⟨_, _, he⟩ := Program.course_bind.1 h
    · cases waited with
      | true =>
        obtain ⟨-, -, he⟩ := Program.course_pure.1 hr
        cases he
      | false =>
        obtain ⟨-, -, he⟩ := Program.course_pure.1 hr
        cases he
        rfl
    · cases he

theorem quiet_pace : p.pace.Quiet :=
  quiet_pause _

theorem quiet_uploadAll (sources : List String) (c : Context) (hosted : KeyMap String) :
    (p.uploadAll sources c hosted).Quiet := by
  induction sources generalizing c hosted with
  | nil => exact .pure _
  | cons source rest ih =>
    refine .bind (.perform (p.shows_uploadOrCancel source c)) fun uploaded => ?_
    obtain ⟨c, uploaded⟩ := uploaded
    have hnext : ∀ hosted, Attempt.Quiet
        (if (!rest.isEmpty) = true then p.pace >>= fun _ => p.uploadAll rest c hosted
          else p.uploadAll rest c hosted) := by
      intro hosted
      split
      · exact .bind p.quiet_pace fun _ => ih c hosted
      · exact ih c hosted
    cases uploaded with
    | ok address => exact .bind (.pure _) hnext
    | error e =>
      cases e with
      | cancelled => exact .bind (.fail rfl) hnext
      | _ =>
        exact .bind (.perform (Program.shows_emit fun _ => ⟨rfl, rfl, fun _ => rfl⟩)) fun _ =>
          .bind (.pure _) hnext

theorem quiet_processImages (content : String) (c : Context) :
    (p.processImages content c).Quiet := by
  unfold processImages
  split
  · refine .bind (.perform (p.hooks.silent_processImages content c).quiet) fun result => ?_
    cases result with
    | ok content => exact .pure _
    | error cause => exact .fail rfl
  · split
    · exact .bind (p.quiet_uploadAll _ _ _) fun _ => .pure _
    · exact .pure _

theorem quiet_uploadCover (a : Article) (c : Context) : (p.uploadCover a c).Quiet := by
  unfold uploadCover
  split
  · exact .pure _
  · split
    · refine .bind (.perform (p.shows_uploadOrCancel _ c)) fun uploaded => ?_
      obtain ⟨c, uploaded⟩ := uploaded
      cases uploaded with
      | ok address => exact .pure _
      | error e =>
        cases e with
        | cancelled => exact .fail rfl
        | _ =>
          refine .bind (.perform (Program.shows_emit fun _ => ?_)) fun _ => .pure _
          exact ⟨rfl, rfl, fun _ => rfl⟩
    · exact .pure _

theorem quiet_contentHook (content : String) (c : Context) : (p.contentHook content c).Quiet := by
  unfold contentHook
  split
  · refine .bind (.perform (p.hooks.silent_contentTransform content c).quiet) fun result => ?_
    cases result with
    | ok content => exact .pure _
    | error cause => exact .fail rfl
  · exact .pure _

/-- **Bringing the content into the format of a platform is quiet.** -/
theorem quiet_transform (k : ContentProcessor) (a : Article) (c : Context) :
    (p.transform k a c).Quiet := by
  unfold transform
  split
  · exact .fail rfl
  · refine .bind (.perform (Conversion.silent_program _).quiet) fun text => ?_
    refine .bind (p.quiet_processImages text c) fun result => ?_
    refine .bind (p.quiet_uploadCover a _) fun c => ?_
    refine .bind (p.quiet_contentHook _ c) fun content => ?_
    exact .bind (.perform (Conversion.silent_program _).quiet) fun content => .pure _

end Platform

end Syndication
