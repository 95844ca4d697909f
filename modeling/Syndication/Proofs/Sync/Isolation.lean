import Syndication.Proofs.Program.Calm
import Syndication.Proofs.Sync.Scheduling

/-!
# Platforms do not notice each other

The platforms of a sync share the article, the options, the registry and the transport. A hook is
a program like any other and remembers nothing, so that what one platform does is seen by another
only if the transport remembers it. When the replies depend on the request alone, and the
cancellation does not fire, each platform comes to what it would have come to on its own, with
all of its further tries. The order in which the platforms of a batch go on decides the order of
the results and nothing else.

Main statements:

* `Publisher.exists_alone`, `Publisher.Alone.unique`: what a platform comes to on its own.
* `Publisher.Recorded.alone`: what a platform of a sync comes to.
* `Publisher.sync_isolated`: a sync that continues on errors has the results that its platforms
  have on their own.
-/

namespace Syndication

/-- The replies depend on the request alone, although how long they take may not. -/
def Transport.IsFixed {σ : Type} (t : Transport σ) : Prop :=
  ∀ s s' r, (t.deliver s r).1.reply = (t.deliver s' r).1.reply

theorem Transport.isFixed_stateless (reply : Request → Delivery) : (stateless reply).IsFixed :=
  fun _ _ _ => rfl

theorem Transport.IsFixed.eq_of_gives {σ : Type} {t : Transport σ} (ht : t.IsFixed) (s : σ)
    {r : Request} {reply : Reply} (h : t.Gives r reply) : reply = (t.deliver s r).1.reply := by
  obtain ⟨s', rfl⟩ := h
  exact ht s' s r

namespace Publisher

section Alone

variable {σ : Type} (p : Publisher σ) (a : Article) (o : SyncOptions) (answer : Request → Reply)

/-- Publishing to a platform on its own comes to an outcome, with these answers and without a
cancellation. -/
def Alone (id : String) (outcome : Outcome) : Prop :=
  ∃ log, (p.publishTo a o id).Course false log false (.value outcome) ∧
    Answered (fun r reply => reply = answer r) (actsOf log)

theorem exists_alone (id : String) : ∃ outcome, p.Alone a o answer id outcome := by
  obtain ⟨log, x, hc, ha⟩ := (p.publishTo a o id).exists_answered_course answer
  obtain ⟨outcome, rfl, -⟩ := p.publishes_publishTo hc
  exact ⟨outcome, log, hc, ha⟩

variable {p a o answer} {id : String} {outcome outcome' : Outcome}

/-- **A platform comes to one outcome on its own.** -/
theorem Alone.unique (h : p.Alone a o answer id outcome) (h' : p.Alone a o answer id outcome') :
    outcome = outcome' := by
  obtain ⟨log, hc, ha⟩ := h
  obtain ⟨log', hc', ha'⟩ := h'
  have hfixed : ∀ r reply reply', reply = answer r → reply' = answer r → reply = reply' :=
    fun _ _ _ he he' => he.trans he'.symm
  obtain ⟨-, hv⟩ := Program.Course.eq_of_answered hfixed hc hc' ha ha'
  cases hv
  rfl

/-- **What a platform of a sync comes to is what it comes to on its own.** It has told so before
the cancellation fired, so nothing of what came before was cut short. -/
theorem Recorded.alone {record : List Entry × Outcome} (h : p.Recorded a o id record)
    (hmarks : ∀ entry ∈ told record.1, entry.1 = false)
    (ha : Answered (fun r reply => reply = answer r) (actsOf record.1)) :
    p.Alone a o answer id record.2 := by
  obtain ⟨log, b, b', hlog, hc, -⟩ := h.publishes
  -- the mark of what is told at the end is where the firing stood then
  have htold : (b', .progress record.2) ∈ told record.1 := by
    rw [hlog, told_append]
    exact List.mem_append_right _ (List.mem_singleton_self _)
  obtain rfl : b' = false := hmarks _ htold
  cases hc.unfired
  rw [hlog, actsOf_append] at ha
  exact ⟨log, hc, ha.left⟩

/-- What a run on the clock gives is what the platform comes to on its own. -/
theorem exists_alone_of_run {w : World σ}
    (hgives : ∀ r reply, p.transport.Gives r reply → reply = answer r)
    (hw : (run p.transport w (p.publishTo a o id)).2.cancelled = false) :
    ∃ outcome, (run p.transport w (p.publishTo a o id)).1 = some outcome ∧
      p.Alone a o answer id outcome := by
  obtain ⟨b, log, b', x, hc, ha, hle, hvalue, -⟩ :=
    Company.exists_answered_course_of_run p.transport w (p.publishTo a o id)
  rw [hw] at hle
  obtain rfl : b' = false := Bool.eq_false_of_le_false hle
  cases hc.unfired
  obtain ⟨outcome, rfl, -⟩ := p.publishes_publishTo hc
  exact ⟨outcome, hvalue, log, hc, ha.mono hgives⟩

end Alone

end Publisher

namespace Rollout

variable {σ : Type} {p : Publisher σ} {a : Article} {o : SyncOptions} {platforms : List String}
  {answer : Request → Reply} {journal journal' : List (Bool × Event)} {r : Rollout}

/-- **What has become of the platforms of a sync** is what they come to on their own. -/
theorem alone_of_reaches
    (hr : Reaches p a o (start false journal (batches o.batchSize platforms)) r)
    (hf : r.phase.fired = false) (ha : r.IsAnswered fun r reply => reply = answer r) :
    ∀ outcome ∈ r.outcomes, p.Alone a o answer outcome.platform outcome := by
  intro outcome houtcome
  obtain ⟨record, hrecord, rfl⟩ := List.mem_map.1 houtcome
  have hstart : Lawful p a o (batches o.batchSize platforms) [] (start false journal _) :=
    lawful_start false journal _
  obtain ⟨new, hjournal, h⟩ := lawful_of_reaches hstart hr
  obtain ⟨hrec, htold⟩ := h.records record hrecord
  refine hrec.alone (fun entry he => ?_) (ha record hrecord)
  have hmark := (marked_of_reaches hstart hr hjournal entry (htold he)).2
  rw [hf] at hmark
  exact Bool.eq_false_of_le_false hmark

/-- **The outcomes of a sync that continues on errors** are those of its platforms on their
own, in some order. -/
theorem perm_alone (ho : o.continueOnError = true)
    (hr : Reaches p a o (start false journal (batches o.batchSize platforms)) r)
    (hp : r.phase = .closed false journal')
    (ha : r.IsAnswered fun r reply => reply = answer r) {alone : String → Outcome}
    (halone : ∀ id, p.Alone a o answer id (alone id)) : r.outcomes.Perm (platforms.map alone) := by
  obtain ⟨new, -, h⟩ := lawful_of_reaches (lawful_start false journal _) hr
  have hf : r.phase.fired = false := by rw [hp]; rfl
  have hgoes : ¬ ∃ g ∈ r.past.getLast?, g.Stops o := by
    rintro ⟨g, -, -, hstops⟩
    rw [ho] at hstops
    cases hstops
  have heach : ∀ outcome ∈ r.outcomes, alone outcome.platform = outcome := fun outcome hmem =>
    (halone _).unique (alone_of_reaches hr hf ha outcome hmem)
  calc r.outcomes = r.outcomes.map fun outcome => alone outcome.platform :=
        ((List.map_congr_left heach).trans (List.map_id _)).symm
    _ = (r.outcomes.map (·.platform)).map alone := by rw [List.map_map]; rfl
    List.Perm _ (platforms.map alone) := (h.perm_platforms hp hgoes).map alone

end Rollout

namespace Publisher

/-- So are those of a sync on the clock. -/
theorem Goes.perm_alone {σ : Type} {p : Publisher σ} {a : Article} {o : SyncOptions}
    {platforms : List String} {answer : Request → Reply} {w w' : World σ} {task : SyncTask}
    {r : Rollout} (hgoes : p.Goes a o platforms w task w' r) (hw : w'.cancelled = false)
    (ho : o.continueOnError = true) (ha : r.IsAnswered fun r reply => reply = answer r)
    {alone : String → Outcome} (halone : ∀ id, p.Alone a o answer id (alone id)) :
    (task.results.map (·.toOutcome)).Perm (platforms.map alone) := by
  have hstart : w.cancelled = false := by
    have hle := hgoes.cancelled_le
    rw [hw] at hle
    exact Bool.eq_false_of_le_false hle
  obtain ⟨journal, _, _, _, hphase, -⟩ := hgoes.closed
  have hreaches := hgoes.reaches
  rw [hstart] at hreaches
  rw [hw] at hphase
  rw [hgoes.results]
  exact Rollout.perm_alone ho hreaches hphase ha halone

variable {σ : Type} (p : Publisher σ) (a : Article) (o : SyncOptions) (platforms : List String)

theorem isCalm_runBatches {cancels : Outcome → Bool} (hcancels : ∀ outcome, cancels outcome = false)
    (number : Nat) (pending : List (List String)) {w : World σ} (h : w.IsCalm) :
    (p.runBatches a o cancels number pending w).2.IsCalm := by
  induction pending generalizing number w with
  | nil => exact h
  | cons batch pending ih =>
    have hbatch : (p.runBatch a o cancels batch
        (w.report (.batchStarted number batch.length))).2.IsCalm :=
      isCalm_runAll hcancels (h.report _) _
    rw [runBatches_cons h.cancelled rfl]
    split
    · exact hbatch.report _
    · exact ih (number + 1) hbatch

/-- **Platforms do not notice each other.** With fixed answers and without a cancellation a
platform comes to one outcome on its own, and whatever the order in which the platforms of a
sync that continues on errors go on, its outcomes are these. So are the results on the clock,
with every transport whose replies depend on the request alone: they are what comes of
publishing to each platform of the list separately, whatever the worlds in which that is done.
Where nothing cancels, no cancellation fires. -/
theorem sync_isolated :
    (∀ answer : Request → Reply, ∃ alone : String → Outcome,
      (∀ id outcome, p.Alone a o answer id outcome ↔ outcome = alone id) ∧
      ∀ journal journal' r, o.continueOnError = true →
        Rollout.Reaches p a o (.start false journal (batches o.batchSize platforms)) r →
        r.phase = .closed false journal' → (r.IsAnswered fun r reply => reply = answer r) →
        r.outcomes.Perm (platforms.map alone)) ∧
    (p.transport.IsFixed → o.continueOnError = true →
      ∀ id cancels (w : World σ) task w', p.sync id a platforms o cancels w = (task, w') →
        w'.cancelled = false →
        ∀ separate : List (String × World σ), separate.map (·.1) = platforms →
          (∀ call ∈ separate,
            (run p.transport call.2 (p.publishTo a o call.1)).2.cancelled = false) →
          (task.results.map fun result => some result.toOutcome).Perm
            (separate.map fun call => (run p.transport call.2 (p.publishTo a o call.1)).1)) ∧
    ∀ (w : World σ), w.IsCalm →
      (∀ id cancels, (∀ outcome, cancels outcome = false) →
        (p.sync id a platforms o cancels w).2.cancelled = false) ∧
      ∀ id, (run p.transport w (p.publishTo a o id)).2.cancelled = false := by
  refine ⟨fun answer => ?_, fun ht ho id cancels w task w' hsync hw separate hids hcalls => ?_,
    fun w h => ⟨fun id cancels hcancels => ?_, fun id => (isCalm_run h _).cancelled⟩⟩
  · choose alone halone using p.exists_alone a o answer
    refine ⟨alone, fun id outcome => ⟨fun h => h.unique (halone id), ?_⟩, ?_⟩
    · rintro rfl
      exact halone id
    · intro journal journal' r ho hr hp ha
      exact Rollout.perm_alone ho hr hp ha halone
  · -- the answers are those that the transport gives in any of its states
    let answer : Request → Reply := fun r => (p.transport.deliver w.transport r).1.reply
    have hgives : ∀ r reply, p.transport.Gives r reply → reply = answer r :=
      fun _ _ => ht.eq_of_gives w.transport
    choose alone halone using p.exists_alone a o answer
    obtain ⟨r, hgoes, ha⟩ := p.exists_answered_goes_of_sync a o cancels id platforms w
    rw [hsync] at hgoes
    have hperm : (task.results.map (·.toOutcome)).Perm (platforms.map alone) :=
      hgoes.perm_alone hw ho (fun record hrecord => (ha record hrecord).mono hgives) halone
    have hseparate : ∀ call ∈ separate,
        (run p.transport call.2 (p.publishTo a o call.1)).1 = some (alone call.1) := by
      intro call hcall
      obtain ⟨outcome, hrun, h⟩ := exists_alone_of_run hgives (hcalls call hcall)
      rw [hrun, h.unique (halone call.1)]
    calc task.results.map (fun result => some result.toOutcome)
        = (task.results.map (·.toOutcome)).map some := by rw [List.map_map]; rfl
      List.Perm _ ((platforms.map alone).map some) := hperm.map some
      _ = separate.map fun call => some (alone call.1) := by
        rw [← hids, List.map_map, List.map_map]
        rfl
      _ = separate.map fun call => (run p.transport call.2 (p.publishTo a o call.1)).1 :=
        (List.map_congr_left hseparate).symm
  · have hstart := h.report (.syncStarted platforms.length o.concurrency)
    exact (p.isCalm_runBatches a o hcancels 1 (batches o.batchSize platforms) hstart).cancelled

end Publisher

end Syndication
