import Syndication.Proofs.Sync.Retrying
import Syndication.Proofs.Sync.Rollout
import Syndication.Proofs.Workflow.Threading

/-!
# The contexts of all runs

A platform may be run more than once, and many platforms run side by side. The contexts of a run
are a function of the article and of what was seen of that run alone, so nothing comes into them
from an earlier run or from another platform.

* `Context.find?_outputs`: what a context finds after a step.
* `Publisher.Attempted`: what is recorded of a platform, run by run.
* `Publisher.contexts_threaded`: the contexts of every run, try and platform of a sync.
-/

namespace Syndication

/-- The first value that is found under a name is the first of an expression of that name. -/
theorem KeyMap.find?_filterMap_evaluate (extract : List (String × Expression)) (answer : Json)
    (name : String) :
    KeyMap.find? name (extract.filterMap fun (key, e) =>
      (e.evaluate answer).map fun value => (key, value)) =
      (extract.filter fun e => e.1 = name).findSome? fun e => e.2.evaluate answer := by
  induction extract with
  | nil => rfl
  | cons first rest ih =>
    obtain ⟨key, e⟩ := first
    cases he : e.evaluate answer with
    | none =>
      rw [List.filterMap_cons_none (by simp [he]), ih]
      by_cases hkey : key = name <;> simp [hkey, he]
    | some value =>
      rw [List.filterMap_cons_some (b := (key, value)) (by simp [he])]
      by_cases hkey : key = name
      · simp [KeyMap.find?, hkey, he]
      · simp [KeyMap.find?, hkey, ih]

/-- **What a context finds after a step**: what the last extract expression of that name has found
that has found anything, and else what it has found before. -/
theorem Context.find?_outputs (c : Context) (contract : ResponseContract) (answer : Json)
    (name : String) :
    (c.merge (contract.outputs answer)).data.find? name =
      ((contract.extract.reverse.filter fun e => e.1 = name).findSome? fun e =>
        e.2.evaluate answer).or (c.data.find? name) := by
  rw [find?_merge, ResponseContract.outputs, ← List.filterMap_reverse,
    KeyMap.find?_filterMap_evaluate]

namespace Publisher

variable {σ : Type} (p : Publisher σ) (a : Article) (o : SyncOptions)

/-- What is seen of publishing to a platform that is registered: its runs, each with contexts of
its own. -/
def Attempted (platform : Platform) (log : List Entry) (outcome : Outcome) : Prop :=
  ∃ b' trials, platform.Tries p.converter a o (min o.retries 5) 0 trials log b' outcome ∧
    ∀ t ∈ trials, platform.Threaded a t.log

variable {p a o}

/-- The runs of a platform have contexts of their own. -/
theorem attempted_of_publishTo {id : String} {platform : Platform} {b b' : Bool}
    {log : List Entry} {x : Ending Outcome} (hplatform : p.registry.get? id = some platform)
    (h : (p.publishTo a o id).Course b log b' x) :
    ∃ outcome, x = .value outcome ∧ p.Attempted a o platform log outcome := by
  rw [publishTo, hplatform] at h
  have hallowed := o.allowedRetries_le
  have hnumber : 0 + o.allowedRetries ≤ 32 := by
    unfold SyncOptions.maxRetries at hallowed
    omega
  obtain ⟨outcome, trials, rfl, htries⟩ := platform.exists_tries hnumber h
  refine ⟨outcome, rfl, b', trials, htries, fun t ht => ?_⟩
  obtain ⟨b, hrun⟩ := htries.runs t ht
  exact Platform.threaded_of_run hrun

variable (p a o)

/-- **The contexts of every run.** Each step of a run is executed in the context that the article
and the steps of this run seen before it make, together with what its second stage has written;
no file is bound in it, and of two values under one name it has the later. This holds of every
course of a run, on the clock with any transport, for every try of publishing to a platform, and
for all that is recorded of the platforms of a sync. -/
theorem contexts_threaded :
    (∀ (platform : Platform) (k : ContentProcessor) (draftOnly : Bool) b log b' x,
      (platform.run k a draftOnly).Course b log b' x → platform.Threaded a log) ∧
    (∀ (platform : Platform) (k : ContentProcessor) (draftOnly : Bool) (t : Transport σ)
      (w : World σ), ∃ log, platform.Threaded a log ∧
        (run t w (platform.run k a draftOnly)).2.journal = w.journal ++ told log) ∧
    (∀ (platform : Platform) cover content before,
      (platform.sees a cover content before).blobs = []) ∧
    (∀ (c : Context) (contract : ResponseContract) answer name,
      (c.merge (contract.outputs answer)).data.find? name =
        ((contract.extract.reverse.filter fun e => e.1 = name).findSome? fun e =>
          e.2.evaluate answer).or (c.data.find? name)) ∧
    (∀ id platform, p.registry.get? id = some platform →
      ∀ b log b' x, (p.publishTo a o id).Course b log b' x →
        ∃ outcome, x = .value outcome ∧ p.Attempted a o platform log outcome) ∧
    ∀ id platforms cancels (w : World σ),
      ∃ r, p.Goes a o platforms w (p.sync id a platforms o cancels w).1
          (p.sync id a platforms o cancels w).2 r ∧
        ∀ record ∈ r.records, ∀ platform, p.registry.get? record.2.platform = some platform →
          ∃ log b, record.1 = log ++ [⟨b, .report (.progress record.2)⟩] ∧
            p.Attempted a o platform log record.2 := by
  refine ⟨fun platform k draftOnly b log b' x h => Platform.threaded_of_run h, ?_, ?_, ?_, ?_, ?_⟩
  · intro platform k draftOnly t w
    obtain ⟨b, log, b', x, hc, -, hjournal⟩ :=
      Company.exists_course_of_run t w (platform.run k a draftOnly)
    exact ⟨log, Platform.threaded_of_run hc, hjournal⟩
  · exact fun platform cover content before => Context.blobs_threaded _ _ _ _ _ _
  · exact Context.find?_outputs
  · exact fun id platform hplatform b log b' x h => attempted_of_publishTo hplatform h
  · intro id platforms cancels w
    obtain ⟨r, hgoes⟩ := p.exists_goes_of_sync a o cancels id platforms w
    obtain ⟨new, -, hlawful⟩ := hgoes.lawful
    refine ⟨r, hgoes, fun record hr platform hplatform => ?_⟩
    obtain ⟨log, _, b, hlog, hc, -⟩ := (hlawful.records record hr).1.publishes
    obtain ⟨_, hv, hattempted⟩ := attempted_of_publishTo hplatform hc
    cases hv
    exact ⟨log, b, hlog, hattempted⟩

end Publisher

end Syndication
