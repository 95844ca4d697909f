import Syndication.Schedule

/-!
# Runs that nothing cancels

A cancellation comes from a moment that was set for it, from a request that was named for it or
from a value that fires it. Where there is none of these, none fires: every step of the clock
leaves the world as calm as it was.

* `World.IsCalm.advance`, `Batch.isCalm_of_step?`: a turn of a program and a step of a batch.
* `isCalm_runAll`, `isCalm_run`: a whole run.
-/

namespace Syndication

variable {σ α : Type} {t : Transport σ} {w : World σ}

/-- No cancellation has fired, and none is to come. -/
structure World.IsCalm (w : World σ) : Prop where
  cancelled : w.cancelled = false
  cancelAt : w.cancelAt = none
  cancelOnRequest : w.cancelOnRequest = none

theorem World.isCalm_start (transport : σ) : (World.start transport).IsCalm :=
  ⟨rfl, rfl, rfl⟩

namespace World.IsCalm

theorem report (h : w.IsCalm) (e : Event) : (w.report e).IsCalm :=
  ⟨h.cancelled, h.cancelAt, h.cancelOnRequest⟩

theorem send (h : w.IsCalm) (r : Request) : (w.send t r).2.IsCalm := by
  obtain ⟨hcancelled, hat, hrequest⟩ := h
  constructor
  · simp [World.send, hcancelled, hrequest]
  · simp [World.send, hat]
  · exact hrequest

/-- A program that runs to its next wait fires nothing. -/
theorem advance (h : w.IsCalm) (p : Program α) (ticket : Option Nat) :
    (advance t p ticket w).2.IsCalm := by
  induction p generalizing ticket w with
  | done value => exact h
  | fault text => exact h
  | report e next ih => exact ih (h.report e) ticket
  | ifCancelled next ih => exact ih _ h ticket
  | fetch r next ih =>
    simp only [Syndication.advance]
    split
    · exact ih _ (h.send r) ticket
    · exact h.send r
  | fetchOr r onCancel next _ ih =>
    simp only [Syndication.advance]
    split
    · exact ih _ (h.send r) ticket
    · have hsent := h.send (t := t) r
      split
      · exact hsent
      · exact ⟨hsent.cancelled, hsent.cancelAt, hsent.cancelOnRequest⟩
  | sleep d next ih =>
    simp only [Syndication.advance]
    split
    · exact ih h ticket
    · exact h
  | sleepOr d onCancel next ihc ih =>
    simp only [Syndication.advance]
    split
    · exact ih h ticket
    · split
      · exact h
      · split
        · exact ihc h none
        · exact ⟨h.cancelled, h.cancelAt, h.cancelOnRequest⟩
  | watch next ih =>
    exact ih (w := { w with tickets := w.tickets + 1 })
      ⟨h.cancelled, h.cancelAt, h.cancelOnRequest⟩ (some w.tickets)
  | unwatch next ih => exact ih h none

end World.IsCalm

/-! ### Batches -/

namespace Batch

variable {cancels : α → Bool} {b b' : Batch σ α} {value : Option α}

theorem world_place (b : Batch σ α) (w : World σ) (queue : List Nat) (i : Nat) (s : Slot α) :
    (b.place w queue i s false).world = w := by
  simp only [place, Bool.false_eq_true, if_false]
  split <;> rfl

/-- **A step of a calm batch leaves it calm** when no value fires the cancellation. -/
theorem isCalm_of_step? (hcancels : ∀ a, cancels a = false) (h : b.world.IsCalm)
    (hs : b.step? t cancels = some (b', value)) : b'.world.IsCalm := by
  have hlater : ∀ moment, World.IsCalm { b.world with now := b.world.now.longer moment } :=
    fun _ => ⟨h.cancelled, h.cancelAt, h.cancelOnRequest⟩
  unfold step? at hs
  split at hs
  · rename_i i queue _
    split at hs
    · -- the first in the queue has its turn
      rename_i ticket p _
      have hadvance := h.advance (t := t) p ticket
      rw [Option.some.injEq, runFirst] at hs
      simp only at hs
      split at hs
      · cases hs
        rw [hcancels, world_place]
        exact hadvance
      · cases hs
        rw [world_place]
        exact hadvance
    · cases hs
      exact h
  · split at hs
    · cases hs
    · rename_i moment i _
      -- no moment is set at which the cancellation fires
      rw [h.cancelAt] at hs
      cases hs
      exact hlater moment

theorem isCalm_drain (hcancels : ∀ a, cancels a = false) (h : b.world.IsCalm) :
    (b.drain t cancels).2.IsCalm := by
  induction b using Batch.drain.induct t cancels with
  | case1 b hs =>
    rw [drain_of_step?_eq_none hs]
    exact h
  | case2 b b' value hs values w hd ih =>
    rw [drain_of_step?_eq_some hs]
    exact ih (isCalm_of_step? hcancels h hs)

end Batch

theorem isCalm_runAll {cancels : α → Bool} (hcancels : ∀ a, cancels a = false) (h : w.IsCalm)
    (programs : List (Program α)) : (runAll t cancels w programs).2.IsCalm :=
  Batch.isCalm_drain hcancels h

/-- **A program that is run alone in a calm world leaves it calm.** -/
theorem isCalm_run (h : w.IsCalm) (p : Program α) : (run t w p).2.IsCalm :=
  isCalm_runAll (fun _ => rfl) h [p]

end Syndication
