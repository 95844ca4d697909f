import Syndication.Proofs.Workflow.Route
import Syndication.Sync.Run

/-!
# Publishing to one platform

What every course of publishing to a platform is like, with its further tries: it ends
with an outcome for that platform, nothing begins in it after the cancellation has fired,
and it ends well only if its last run was done before the firing. The outcome is told at
the very end.

* `publishes_publishFrom`: a run with its further tries.
* `tells_publishAndTell`: publishing to one platform of a sync.
-/

namespace Syndication

/-! ### Outcomes -/

/-- What a course of publishing to a platform is like. -/
structure Publishes (id : String) (log : List Entry) (outcome : Outcome) : Prop where
  /-- The outcome is one for the platform. -/
  platform : outcome.platform = id
  /-- Nothing begins after the firing. -/
  heeds : Heeds log
  /-- What has ended well was done before the firing. -/
  done : outcome.success = true → ∃ s, (false, .transition id s .done) ∈ told log

/-- What was seen before an outcome came about is no less heedful than the rest. -/
theorem Publishes.after {id : String} {log log' : List Entry} {outcome : Outcome}
    (h : Publishes id log' outcome) (hlog : Heeds log) : Publishes id (log ++ log') outcome where
  platform := h.platform
  heeds := heeds_append.2 ⟨hlog, h.heeds⟩
  done hs := by
    obtain ⟨s, hs⟩ := h.done hs
    exact ⟨s, by rw [told_append]; exact List.mem_append_right _ hs⟩

/-- What has failed need not have been done. -/
theorem publishes_failed {id error : String} {log : List Entry} (h : Heeds log) :
    Publishes id log (.failed id error) :=
  ⟨rfl, h, nofun⟩

theorem heeds_singleton {b : Bool} {e : Event} (h : e.Heeds b) : Heeds [⟨b, .report e⟩] :=
  List.forall_mem_singleton.2 h

namespace Platform

variable (p : Platform) {k : ContentProcessor} {a : Article} {b b' : Bool} {log : List Entry}

/-- A run that ends well was done before the firing. -/
theorem exists_done_of_ok {draftOnly : Bool} {publication : Publication}
    (h : (p.run k a draftOnly).Course b log b' (.value (.ok publication))) :
    ∃ s, (false, .transition p.id s .done) ∈ told log := by
  obtain ⟨_, hd, -⟩ | ⟨_, _, _, _, hv⟩ | ⟨_, _, _, _, hv⟩ := p.course_run h
  · obtain ⟨hh, hmade, -⟩ := p.keeps_drive k a draftOnly b hd
    -- the last milestone is the one at which the run is done
    obtain ⟨s, hs⟩ : ∃ s, .enters p.id s .done ∈ milestones log := by
      rw [hmade, legs, itinerary_append]
      exact ⟨_, List.mem_append_right _ List.mem_cons_self⟩
    obtain ⟨⟨fired, e⟩, hentry, he⟩ := List.mem_filterMap.1 hs
    refine ⟨s, ?_⟩
    cases e <;> cases he
    -- it would have been a beginning after the firing
    cases fired with
    | false => exact hentry
    | true => cases (hh _ hentry).2 rfl
  · cases hv
  · cases hv

/-- A run, and what becomes of its failure. -/
theorem publishes_run_bind {draftOnly : Bool} {x : Ending Outcome}
    {f : Except WorkflowError Publication → Program Outcome}
    (hok : ∀ publication, f (.ok publication) = do
      Program.emit (.platformFinished p.id publication.draftOnly)
      return publication.outcome p.id)
    (herror : ∀ {e : WorkflowError} {b : Bool} {log : List Entry},
      (f (.error e)).Course b log b' x → ∃ outcome, x = .value outcome ∧ Publishes p.id log outcome)
    (h : (p.run k a draftOnly >>= f).Course b log b' x) :
    ∃ outcome, x = .value outcome ∧ Publishes p.id log outcome := by
  obtain ⟨log₁, b₁, r, log₂, hrun, hrest, rfl⟩ | ⟨text, hrun, -⟩ := Program.course_bind.1 h
  · cases r with
    | ok publication =>
      rw [hok] at hrest
      obtain ⟨log₃, rfl, hv⟩ := Program.course_emit_bind.1 hrest
      obtain ⟨rfl, -, rfl⟩ := Program.course_pure.1 hv
      refine ⟨_, rfl, rfl, heeds_append.2 ⟨p.heeds_run hrun, ?_⟩, fun _ => ?_⟩
      · exact heeds_singleton ⟨rfl, fun _ => rfl⟩
      · obtain ⟨s, hs⟩ := p.exists_done_of_ok hrun
        exact ⟨s, by rw [told_append]; exact List.mem_append_left _ hs⟩
    | error e =>
      obtain ⟨outcome, rfl, hp⟩ := herror hrest
      exact ⟨outcome, rfl, hp.after (p.heeds_run hrun)⟩
  · -- a run has a result whatever happens
    obtain ⟨r, hv, -⟩ := p.journey_of_course hrun
    cases hv

/-- **A run with its further tries.** -/
theorem publishes_publishFrom {o : SyncOptions} {remaining made : Nat} {x : Ending Outcome}
    (h : (p.publishFrom k a o remaining made).Course b log b' x) :
    ∃ outcome, x = .value outcome ∧ Publishes p.id log outcome := by
  -- giving up is a report and a failure
  have hgiveUp : ∀ {e : WorkflowError} {b : Bool} {log : List Entry},
      (do
        Program.emit (.platformFailed p.id e.message)
        return Outcome.failed p.id e.message : Program Outcome).Course b log b' x →
      ∃ outcome, x = .value outcome ∧ Publishes p.id log outcome := by
    intro e b log h
    obtain ⟨log', rfl, hv⟩ := Program.course_emit_bind.1 h
    obtain ⟨rfl, -, rfl⟩ := Program.course_pure.1 hv
    exact ⟨_, rfl, publishes_failed (heeds_singleton ⟨rfl, fun _ => rfl⟩)⟩
  induction remaining generalizing made b log with
  | zero =>
    rw [publishFrom] at h
    exact p.publishes_run_bind (fun _ => rfl) hgiveUp h
  | succ remaining ih =>
    rw [publishFrom] at h
    refine p.publishes_run_bind (fun _ => rfl) (fun {e b log} h => ?_) h
    have hrest := Program.course_isCancelled_bind.1 h
    split at hrest
    · exact hgiveUp hrest
    · obtain ⟨log₁, rfl, hpause⟩ := Program.course_emit_bind.1 hrest
      obtain ⟨log₂, b₂, waited, log₃, hwait, htry, rfl⟩ | ⟨_, hwait, -⟩ :=
        Program.course_bind.1 hpause
      · -- the wait reports nothing, and the further try is no less heedful
        have hreport : Heeds (⟨b, .report (.retrying p.id (made + 1)
            (o.backoff (made + 1)).toMillis e.message)⟩ :: log₂) := by
          rw [Heeds, told_report, (Program.course_pause hwait).1]
          exact List.forall_mem_singleton.2 ⟨rfl, fun _ => rfl⟩
        cases waited with
        | true =>
          obtain ⟨outcome, rfl, hp⟩ := ih htry
          exact ⟨outcome, rfl, hp.after hreport⟩
        | false =>
          -- the cancellation fired during the wait
          obtain ⟨rfl, -, rfl⟩ := Program.course_pure.1 htry
          exact ⟨_, rfl, (publishes_failed heeds_nil).after hreport⟩
      · obtain ⟨-, _, hv⟩ := Program.course_pause hwait
        cases hv

end Platform

/-! ### Telling -/

/-- The outcome that is told. -/
def Event.progress? : Event → Option Outcome
  | .progress outcome => some outcome
  | _ => none

/-- The outcomes that are told, in order. -/
def progressOf (journal : List (Bool × Event)) : List Outcome :=
  journal.filterMap (·.2.progress?)

@[simp] theorem progressOf_append (journal journal' : List (Bool × Event)) :
    progressOf (journal ++ journal') = progressOf journal ++ progressOf journal' :=
  List.filterMap_append

/-- What is heedful tells no outcome. -/
theorem progressOf_of_heeds {log : List Entry} (h : Heeds log) : progressOf (told log) = [] := by
  refine List.filterMap_eq_nil_iff.2 fun entry he => ?_
  have hrun := (h entry he).1
  cases hevent : entry.2 with
  | progress => rw [hevent] at hrun; cases hrun
  | _ => rfl

namespace Publisher

variable {σ : Type} (p : Publisher σ) {a : Article} {o : SyncOptions} {id : String} {b b' : Bool}
  {log : List Entry} {x : Ending Outcome}

theorem publishes_publishTo (h : (p.publishTo a o id).Course b log b' x) :
    ∃ outcome, x = .value outcome ∧ Publishes id log outcome := by
  unfold publishTo at h
  split at h
  · rename_i platform hplatform
    rw [← Registry.id_of_get? hplatform]
    exact platform.publishes_publishFrom h
  · obtain ⟨log', rfl, hv⟩ := Program.course_emit_bind.1 h
    obtain ⟨rfl, -, rfl⟩ := Program.course_pure.1 hv
    exact ⟨_, rfl, publishes_failed (heeds_singleton ⟨rfl, fun _ => rfl⟩)⟩

/-- **Publishing to one platform of a sync** ends with an outcome for it, which is told at the
very end. -/
theorem tells_publishAndTell (h : (p.publishAndTell a o id).Course b log b' x) :
    ∃ outcome log₁, x = .value outcome ∧ log = log₁ ++ [⟨b', .report (.progress outcome)⟩] ∧
      (p.publishTo a o id).Course b log₁ b' (.value outcome) ∧ Publishes id log₁ outcome := by
  obtain ⟨log₁, b₁, outcome, log₂, hp, hrest, rfl⟩ | ⟨_, hp, -⟩ := Program.course_bind.1 h
  · obtain ⟨log₃, rfl, hv⟩ := Program.course_emit_bind.1 hrest
    obtain ⟨rfl, rfl, rfl⟩ := Program.course_pure.1 hv
    obtain ⟨_, hv, hpublishes⟩ := p.publishes_publishTo hp
    cases hv
    exact ⟨outcome, log₁, rfl, rfl, hp, hpublishes⟩
  · obtain ⟨_, hv, -⟩ := p.publishes_publishTo hp
    cases hv

end Publisher

end Syndication
