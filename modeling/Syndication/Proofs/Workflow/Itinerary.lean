import Mathlib.Data.List.Basic
import Syndication.Proofs.Program.Course
import Syndication.Workflow.Run

/-!
# Itineraries

What a run is meant to do, and how much of it has been done. The *milestones* of a run are
the states it enters and the endpoints it executes for them; everything else that it
reports, about images and about a cancellation, is left out here.

The definition of a platform and the wish for a draft fix the *legs* of a run, one for
each state, and so its *itinerary*: the milestones of a run that ends well. A run that
fails *breaks off*: it has made the first milestones of its itinerary, and either stopped
before the next state or seen an endpoint fail.

* `exists_of_breaksOff`: what was made before a run broke off is the beginning of the
  itinerary, and something of it is left.
* `targets_itinerary`, `executions_itinerary`: the states and the executions of an
  itinerary are those of its legs.
* `successes_before_begins`: nothing is executed on an itinerary before all that was
  executed earlier has ended well.
-/

namespace Syndication

/-! ### Milestones -/

/-- What counts of a run. -/
inductive Milestone where
  /-- It goes from one state to the next. -/
  | enters (platform : String) (source target : WorkflowState)
  /-- It begins to execute the endpoint of a state. -/
  | begins (platform : String) (state : WorkflowState) (endpoint : Endpoint)
  /-- The endpoint of a state has been executed. -/
  | ends (platform : String) (state : WorkflowState) (success : Bool)
  /-- It has failed in a state. -/
  | fails (platform : String) (state : WorkflowState) (error : String)
  /-- It was broken off by a fault. -/
  | panics (platform error : String)
deriving DecidableEq, Repr

/-- The milestone that an event reports. -/
def Event.milestone? : Event → Option Milestone
  | .transition platform source target => some (.enters platform source target)
  | .executing platform state endpoint _ => some (.begins platform state endpoint)
  | .executed platform state outputs => some (.ends platform state outputs.isSome)
  | .runFailed platform state error => some (.fails platform state error)
  | .runPanicked platform error => some (.panics platform error)
  | _ => none

/-- The milestones of a course. -/
def milestones (log : List Entry) : List Milestone :=
  (told log).filterMap (·.2.milestone?)

@[simp] theorem milestones_nil : milestones [] = [] := rfl

@[simp] theorem milestones_append (log log' : List Entry) :
    milestones (log ++ log') = milestones log ++ milestones log' := by
  simp [milestones]

namespace Milestone

/-- The states between which a milestone leads. -/
def passage? : Milestone → Option (WorkflowState × WorkflowState)
  | enters _ source target => some (source, target)
  | _ => none

/-- The state that is entered. -/
def target? : Milestone → Option WorkflowState
  | enters _ _ target => some target
  | _ => none

/-- The state and the endpoint that begins to be executed for it. -/
def execution? : Milestone → Option (WorkflowState × Endpoint)
  | begins _ state endpoint => some (state, endpoint)
  | _ => none

/-- The state whose endpoint has been executed with success. -/
def success? : Milestone → Option WorkflowState
  | ends _ state true => some state
  | _ => none

/-- Whether a run ends with it before it is done. -/
def isFailure : Milestone → Bool
  | fails .. | panics .. => true
  | _ => false

end Milestone

open Milestone

/-- The state in which a run stands that began in `s`. -/
def standing (s : WorkflowState) (made : List Milestone) : WorkflowState :=
  (made.filterMap target?).getLastD s

@[simp] theorem standing_nil (s : WorkflowState) : standing s [] = s := rfl

theorem standing_cons (s : WorkflowState) (m : Milestone) (made : List Milestone) :
    standing s (m :: made) = standing (m.target?.getD s) made := by
  unfold standing
  cases h : m.target? with
  | none =>
    rw [List.filterMap_cons_none h]
    rfl
  | some t =>
    rw [List.filterMap_cons_some h, List.getLastD_cons]
    rfl

/-! ### Legs -/

/-- A part of a run: a state, and the endpoint that is executed for it. -/
structure Leg where
  /-- The state. -/
  state : WorkflowState
  /-- The endpoint, if the state has one. -/
  endpoint : Option Endpoint

namespace Leg

/-- What is executed for a leg. -/
def execution? (leg : Leg) : Option (WorkflowState × Endpoint) :=
  leg.endpoint.map (leg.state, ·)

/-- The milestones of a leg that begins in `source` and goes well. -/
def milestones (id : String) (source : WorkflowState) (leg : Leg) : List Milestone :=
  .enters id source leg.state ::
    match leg.endpoint with
    | some e => [.begins id leg.state e, .ends id leg.state true]
    | none => []

end Leg

/-- The milestones of legs that all go well. -/
def itinerary (id : String) : WorkflowState → List Leg → List Milestone
  | _, [] => []
  | source, leg :: rest => leg.milestones id source ++ itinerary id leg.state rest

section Itinerary

variable (id : String) (s : WorkflowState)

theorem itinerary_append (legs legs' : List Leg) :
    itinerary id s (legs ++ legs') =
      itinerary id s legs ++ itinerary id ((legs.map Leg.state).getLastD s) legs' := by
  induction legs generalizing s with
  | nil => rfl
  | cons leg rest ih =>
    rw [List.cons_append, itinerary, ih, itinerary, List.append_assoc, List.map_cons,
      List.getLastD_cons]

@[simp] theorem targets_itinerary (legs : List Leg) :
    (itinerary id s legs).filterMap target? = legs.map Leg.state := by
  induction legs generalizing s with
  | nil => rfl
  | cons leg rest ih =>
    obtain ⟨state, endpoint⟩ := leg
    cases endpoint <;> simp [itinerary, Leg.milestones, List.filterMap_cons, target?, ih]

/-- Every leg leads on from the state of the one before. -/
theorem passages_itinerary (legs : List Leg) :
    (itinerary id s legs).filterMap passage? =
      (s :: legs.map Leg.state).zip (legs.map Leg.state) := by
  induction legs generalizing s with
  | nil => rfl
  | cons leg rest ih =>
    obtain ⟨state, endpoint⟩ := leg
    cases endpoint <;> simp [itinerary, Leg.milestones, List.filterMap_cons, passage?, ih]

@[simp] theorem executions_itinerary (legs : List Leg) :
    (itinerary id s legs).filterMap Milestone.execution? = legs.filterMap Leg.execution? := by
  induction legs generalizing s with
  | nil => rfl
  | cons leg rest ih =>
    obtain ⟨state, endpoint⟩ := leg
    cases endpoint <;>
      simp [itinerary, Leg.milestones, List.filterMap_cons, Milestone.execution?,
        Leg.execution?, ih]

theorem isFailure_of_mem_itinerary (legs : List Leg) {m : Milestone}
    (h : m ∈ itinerary id s legs) : m.isFailure = false := by
  induction legs generalizing s with
  | nil => cases h
  | cons leg rest ih =>
    obtain ⟨state, endpoint⟩ := leg
    rcases List.mem_append.1 h with h | h
    · cases endpoint <;> simp only [Leg.milestones, List.mem_cons, List.not_mem_nil] at h
      · rcases h with rfl | h
        · rfl
        · cases h
      · rcases h with rfl | rfl | rfl | h
        · rfl
        · rfl
        · rfl
        · cases h
    · exact ih state h

/-- **Nothing is executed before all that was executed earlier has ended well.** -/
theorem successes_before_begins {legs : List Leg} {before after : List Milestone}
    {state : WorkflowState} {e : Endpoint}
    (h : itinerary id s legs = before ++ .begins id state e :: after) :
    before.filterMap success? = (before.filterMap Milestone.execution?).map (·.1) := by
  induction legs generalizing s before with
  | nil => simp [itinerary] at h
  | cons leg rest ih =>
    obtain ⟨t, endpoint⟩ := leg
    -- the execution began in this leg, or all of the leg comes before it
    cases endpoint with
    | none =>
      cases before with
      | nil => simp [itinerary, Leg.milestones] at h
      | cons m before =>
        obtain ⟨rfl, hr⟩ : .enters id s t = m ∧
            itinerary id t rest = before ++ .begins id state e :: after := by
          simpa [itinerary, Leg.milestones] using h
        simpa [List.filterMap_cons, success?, Milestone.execution?] using ih t hr
    | some e' =>
      match before with
      | [] => simp [itinerary, Leg.milestones] at h
      | [m] =>
        -- this leg's own execution: nothing was executed before it
        obtain ⟨rfl, -⟩ : .enters id s t = m ∧ _ := by
          simpa [itinerary, Leg.milestones] using h
        rfl
      | [m, m'] => simp [itinerary, Leg.milestones] at h
      | m :: m' :: m'' :: before =>
        obtain ⟨rfl, rfl, rfl, hr⟩ : .enters id s t = m ∧ .begins id t e' = m' ∧
            .ends id t true = m'' ∧
            itinerary id t rest = before ++ .begins id state e :: after := by
          simpa [itinerary, Leg.milestones] using h
        simpa [List.filterMap_cons, success?, Milestone.execution?] using ih t hr

end Itinerary

/-! ### The legs of a platform -/

/-- The leg of a step that is taken if the platform has the endpoint for it. -/
def Leg.ofStep (state : WorkflowState) (endpoint : Option Endpoint) : List Leg :=
  (endpoint.map fun e => ⟨state, some e⟩).toList

namespace Platform

/-- The last leg before a run is done: the post is made public, unless the platform cannot
do so or a draft is all that was asked for. -/
def lastLeg (p : Platform) (draftOnly : Bool) : Leg :=
  match (p.definition.endpoint? .publish).filter fun _ => !draftOnly with
  | some e => ⟨.publishing, some e⟩
  | none => ⟨.draftOnly, none⟩

/-- The legs before a run is done. -/
def legsBeforeDone (p : Platform) (draftOnly : Bool) : List Leg :=
  [⟨.checkingAuth, some p.definition.auth⟩, ⟨.transforming, none⟩] ++
    Leg.ofStep .creatingDraft (p.definition.endpoint? .createDraft) ++
    Leg.ofStep .updatingDraft (p.definition.endpoint? .updateDraft) ++ [p.lastLeg draftOnly]

/-- The legs of a run. -/
def legs (p : Platform) (draftOnly : Bool) : List Leg :=
  p.legsBeforeDone draftOnly ++ [⟨.done, none⟩]

/-- The states of a run that ends well, in order. -/
def route (p : Platform) (draftOnly : Bool) : List WorkflowState :=
  .idle :: (p.legs draftOnly).map Leg.state

/-- What a run that ends well executes, in order. -/
def plan (p : Platform) (draftOnly : Bool) : List (WorkflowState × Endpoint) :=
  (p.legs draftOnly).filterMap Leg.execution?

variable (p : Platform) (draftOnly : Bool)

theorem legs_eq :
    p.legs draftOnly = ⟨.checkingAuth, some p.definition.auth⟩ :: ⟨.transforming, none⟩ ::
      (Leg.ofStep .creatingDraft (p.definition.endpoint? .createDraft) ++
        (Leg.ofStep .updatingDraft (p.definition.endpoint? .updateDraft) ++
          [p.lastLeg draftOnly, ⟨.done, none⟩])) := by
  simp [legs, legsBeforeDone]

theorem state_ne_done_of_mem {leg : Leg} (h : leg ∈ p.legsBeforeDone draftOnly) :
    leg.state ≠ .done := by
  have hstep : ∀ {state : WorkflowState} {endpoint : Option Endpoint},
      leg ∈ Leg.ofStep state endpoint → leg.state = state := by
    intro state endpoint h
    cases endpoint with
    | none => cases h
    | some e => rw [List.mem_singleton.1 h]
  simp only [legsBeforeDone, List.mem_append, List.mem_cons, List.not_mem_nil, or_false] at h
  obtain (((rfl | rfl) | h) | h) | rfl := h
  · nofun
  · nofun
  · rw [hstep h]
    nofun
  · rw [hstep h]
    nofun
  · unfold lastLeg
    split <;> nofun

/-- Nothing is executed twice. -/
theorem nodup_plan : ((p.plan draftOnly).map (·.1)).Nodup := by
  unfold plan legs legsBeforeDone lastLeg
  cases p.definition.endpoint? .createDraft <;> cases p.definition.endpoint? .updateDraft <;>
    cases (p.definition.endpoint? .publish).filter fun _ => !draftOnly <;>
    simp [Leg.ofStep, List.filterMap_cons, Leg.execution?]

/-- A run for a draft does not publish. -/
theorem publishing_not_mem_plan (e : Endpoint) : (.publishing, e) ∉ p.plan true := by
  unfold plan legs legsBeforeDone lastLeg
  cases p.definition.endpoint? .createDraft <;> cases p.definition.endpoint? .updateDraft <;>
    simp [Leg.ofStep, List.filterMap_cons, Leg.execution?]

end Platform

/-! ### Breaking off -/

/-- `BreaksOff id s planned made s'`: a run that stood in `s` before the milestones
`planned` has made `made` and failed in `s'`. -/
inductive BreaksOff (id : String) :
    WorkflowState → List Milestone → List Milestone → WorkflowState → Prop where
  /-- It goes no further. -/
  | stops {s t : WorkflowState} {rest : List Milestone} :
    BreaksOff id s (.enters id s t :: rest) [] s
  /-- An endpoint has failed. -/
  | refused {s : WorkflowState} {rest : List Milestone} :
    BreaksOff id s (.ends id s true :: rest) [.ends id s false] s
  /-- It breaks off later. -/
  | later {s s' : WorkflowState} {m : Milestone} {rest made : List Milestone}
    (h : BreaksOff id (m.target?.getD s) rest made s') : BreaksOff id s (m :: rest) (m :: made) s'

/-- **What was made before a run broke off is the beginning of its itinerary**, and
something of it is left. Beyond it, an endpoint may have failed. -/
theorem exists_of_breaksOff {id : String} {s s' : WorkflowState} {planned made : List Milestone}
    (h : BreaksOff id s planned made s') :
    ∃ first rest, planned = first ++ rest ∧ rest ≠ [] ∧ s' = standing s first ∧
      (made = first ∨ made = first ++ [.ends id s' false]) := by
  induction h with
  | stops => exact ⟨[], _, rfl, by simp, rfl, .inl rfl⟩
  | refused => exact ⟨[], _, rfl, by simp, rfl, .inr rfl⟩
  | @later s s' m rest made _ ih =>
    obtain ⟨first, rest', rfl, hne, hs, hmade⟩ := ih
    refine ⟨m :: first, rest', rfl, hne, by rw [hs, standing_cons], ?_⟩
    rcases hmade with rfl | rfl
    · exact .inl rfl
    · exact .inr rfl

end Syndication
