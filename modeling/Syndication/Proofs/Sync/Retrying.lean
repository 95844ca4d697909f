import Syndication.Proofs.Sync.Publishing
import Syndication.Proofs.Workflow.TransportFailure

/-!
# Further tries

Publishing to a platform is a sequence of runs, the *trials*, with a wait between one and the
next. Each trial is a course of the run of the platform, and nothing is assumed about what it
comes to. Another one follows when it has ended with a failure of transport, the cancellation
has not fired and there are tries left.

The law is one about the trials that are left when some were made (`Platform.Tries`). There is
one lemma for each way in which a trial goes on: it is the last (`tries_last`), the cancellation
cuts the wait after it (`tries_cut`), or the others follow it (`tries_cons`).

* `Platform.exists_tries`: every course of publishing to a platform is such a sequence.
* `Publisher.publishTo_retries`: the law, for every course and on the clock.
-/

namespace Syndication

/-- One run among the tries of a platform. -/
structure Trial where
  /-- What is seen of the run. -/
  log : List Entry
  /-- Whether the cancellation had fired when it ended. -/
  fired : Bool
  /-- What it has come to. -/
  result : Except WorkflowError Publication
  /-- What is seen between the run and the next one, or until the wait after it is cut. -/
  wait : List Entry

namespace Trial

variable (id : String) (t : Trial)

/-- Whether the cancellation has ended the wait after the run. -/
def isCut : Bool :=
  t.wait.contains ⟨true, .cut⟩

/-- The outcome when the trial is the last. -/
def outcome : Outcome :=
  match t.result with
  | .ok publication => publication.outcome id
  | .error e => .failed id (if t.isCut then WorkflowError.cancelled.message else e.message)

/-- What is reported of it when it is the last. -/
def report : List Entry :=
  match t.result with
  | .ok publication => [⟨t.fired, .report (.platformFinished id publication.draftOnly)⟩]
  | .error e => if t.isCut then [] else [⟨t.fired, .report (.platformFailed id e.message)⟩]

end Trial

namespace Platform

/-- The wait before further try number `number`. -/
def waitBefore (o : SyncOptions) (number : Nat) : Duration :=
  ⟨min (o.retryBaseDelay.nanoseconds * Nat.pow 2 (number - 1)) 60000000000⟩

/-- What is reported before that try. -/
def announces (p : Platform) (o : SyncOptions) (number : Nat) (e : WorkflowError) : Entry :=
  ⟨false, .report (.retrying p.id number (waitBefore o number).toMillis e.message)⟩

/-- **The law of the tries that are left** when `made` further ones were made and `allowed` more
may be made. -/
structure Tries (p : Platform) (k : ContentProcessor) (a : Article) (o : SyncOptions)
    (allowed made : Nat) (trials : List Trial) (log : List Entry) (b' : Bool)
    (outcome : Outcome) : Prop where
  /-- There is one run, and at most as many more as are allowed. -/
  count : 0 < trials.length ∧ trials.length ≤ allowed + 1
  /-- Each is a run of the platform. -/
  runs : ∀ t ∈ trials, ∃ b, (p.run k a o.draftOnly).Course b t.log t.fired (.value t.result)
  /-- One that is worth another try was let down by the transport. -/
  letDown : ∀ t ∈ trials, ∀ e, t.result = .error e → e.isRetryable = true →
    ∃ log₁ s, t.log = log₁ ++ [⟨t.fired, .report (.runFailed p.id s e.message)⟩] ∧
      p.LetDown log₁ ⟨s, e⟩
  /-- Another follows only upon a failure of transport that came before the firing. Before it
  there is the wait for its number, which is waited out, and nothing else. -/
  again : ∀ n t, trials[n]? = some t → n + 1 < trials.length →
    ∃ e b₁, t.result = .error e ∧ e.isRetryable = true ∧ t.fired = false ∧
      t.wait = p.announces o (made + n + 1) e ::
        Program.waited (waitBefore o (made + n + 1)) false b₁
  /-- Another does follow upon such a failure while more are allowed, unless the cancellation
  has fired by the end of the run or cuts the wait after it. -/
  persists : ∀ n t e, trials[n]? = some t → t.result = .error e → e.isRetryable = true →
    n < allowed → n + 1 < trials.length ∨ t.fired = true ∨ t.isCut = true
  /-- The firing is never taken back. -/
  fired : ∀ t ∈ trials, t.fired = true ∨ t.isCut = true → b' = true
  /-- A wait that is cut is the one for the next try, and that is not made. -/
  cut : ∀ n t, trials[n]? = some t → t.isCut = true → n + 1 = trials.length ∧ n < allowed ∧
    ∃ e, t.result = .error e ∧ e.isRetryable = true ∧ t.fired = false ∧
      t.wait = [p.announces o (made + n + 1) e, ⟨false, .sleep (waitBefore o (made + n + 1))⟩,
        ⟨true, .cut⟩]
  /-- Nothing is seen but the runs, the waits and the report of the last. The outcome is that of
  the last, and it is a success exactly when the last run ended well. -/
  last : ∃ t, trials.getLast? = some t ∧ (t.isCut = false → t.wait = []) ∧
    log = trials.flatMap (fun t => t.log ++ t.wait) ++ t.report p.id ∧
    outcome = t.outcome p.id ∧ (outcome.success = true ↔ ∃ publication, t.result = .ok publication)

section Cases

variable {p : Platform} {k : ContentProcessor} {a : Article} {o : SyncOptions}
  {allowed made : Nat} {b b₁ b' : Bool} {log log' : List Entry} {e : WorkflowError}

/-- What a run that is worth another try has come from. -/
theorem letDown_of_eq {r : Except WorkflowError Publication}
    (hrun : (p.run k a o.draftOnly).Course b log b₁ (.value r)) :
    ∀ e, r = .error e → e.isRetryable = true →
      ∃ log₁ s, log = log₁ ++ [⟨b₁, .report (.runFailed p.id s e.message)⟩] ∧
        p.LetDown log₁ ⟨s, e⟩ := by
  rintro e rfl he
  exact p.letDown_of_run hrun he

theorem eq_of_getElem?_singleton {t t' : Trial} {n : Nat} (h : [t][n]? = some t') :
    n = 0 ∧ t = t' := by
  cases n with
  | zero => exact ⟨rfl, Option.some.inj h⟩
  | succ n => cases h

/-- A trial that is the last. -/
theorem tries_last {r : Except WorkflowError Publication}
    (hrun : (p.run k a o.draftOnly).Course b log b₁ (.value r))
    (hstop : ∀ e, r = .error e → e.isRetryable = true → allowed = 0 ∨ b₁ = true) :
    p.Tries k a o allowed made [⟨log, b₁, r, []⟩]
      (log ++ Trial.report p.id ⟨log, b₁, r, []⟩) b₁ (Trial.outcome p.id ⟨log, b₁, r, []⟩) where
  count := ⟨Nat.zero_lt_one, Nat.le_add_left 1 allowed⟩
  runs := List.forall_mem_singleton.2 ⟨b, hrun⟩
  letDown := List.forall_mem_singleton.2 (letDown_of_eq hrun)
  again n t ht hn := by
    rw [List.length_singleton] at hn
    omega
  persists n t e ht he hretry hn := by
    obtain ⟨rfl, rfl⟩ := eq_of_getElem?_singleton ht
    rcases hstop e he hretry with rfl | hfired
    · omega
    · exact .inr (.inl hfired)
  fired := List.forall_mem_singleton.2 fun h => h.resolve_right nofun
  cut n t ht hcut := by
    obtain ⟨rfl, rfl⟩ := eq_of_getElem?_singleton ht
    cases hcut
  last := by
    refine ⟨_, rfl, fun _ => rfl, by simp, rfl, ?_⟩
    cases r with
    | ok publication => simp [Trial.outcome, Publication.outcome]
    | error e => simp [Trial.outcome, Outcome.failed]

/-- A trial after which the cancellation cuts the wait. -/
theorem tries_cut (hrun : (p.run k a o.draftOnly).Course b log false (.value (.error e)))
    (he : e.isRetryable = true) (hallowed : 0 < allowed) :
    p.Tries k a o allowed made
      [⟨log, false, .error e, [p.announces o (made + 1) e,
        ⟨false, .sleep (waitBefore o (made + 1))⟩, ⟨true, .cut⟩]⟩]
      (log ++ [p.announces o (made + 1) e, ⟨false, .sleep (waitBefore o (made + 1))⟩,
        ⟨true, .cut⟩]) true (.failed p.id WorkflowError.cancelled.message) where
  count := ⟨Nat.zero_lt_one, Nat.le_add_left 1 allowed⟩
  runs := List.forall_mem_singleton.2 ⟨b, hrun⟩
  letDown := List.forall_mem_singleton.2 (letDown_of_eq hrun)
  again n t ht hn := by
    rw [List.length_singleton] at hn
    omega
  persists n t e ht he hretry hn := by
    obtain ⟨rfl, rfl⟩ := eq_of_getElem?_singleton ht
    exact .inr (.inr rfl)
  fired := List.forall_mem_singleton.2 fun _ => rfl
  cut n t ht hcut := by
    obtain ⟨rfl, rfl⟩ := eq_of_getElem?_singleton ht
    exact ⟨rfl, hallowed, e, rfl, he, rfl, rfl⟩
  last := by
    refine ⟨_, rfl, nofun, ?_, rfl, ?_⟩
    · simp [Trial.report, Trial.isCut]
    · simp [Outcome.failed]

theorem not_cut_of_waited (p : Platform) (o : SyncOptions) (number : Nat) (e : WorkflowError)
    (d : Duration) (b₁ : Bool) :
    (p.announces o number e :: Program.waited d false b₁).contains ⟨true, .cut⟩ = false := by
  unfold Program.waited
  split <;> simp [announces]

/-- A trial that others follow. -/
theorem Tries.tries_cons {trials : List Trial} {outcome : Outcome}
    (h : p.Tries k a o allowed (made + 1) trials log' b' outcome)
    (hrun : (p.run k a o.draftOnly).Course b log false (.value (.error e)))
    (he : e.isRetryable = true) :
    p.Tries k a o (allowed + 1) made
      (⟨log, false, .error e, p.announces o (made + 1) e ::
        Program.waited (waitBefore o (made + 1)) false b₁⟩ :: trials)
      (log ++ p.announces o (made + 1) e ::
        (Program.waited (waitBefore o (made + 1)) false b₁ ++ log')) b' outcome := by
  have hcut := not_cut_of_waited p o (made + 1) e (waitBefore o (made + 1)) b₁
  -- the trials after the first have numbers that count on from it
  have hnumber : ∀ n, made + (n + 1) + 1 = made + 1 + n + 1 := fun n => by omega
  constructor
  case count => exact ⟨Nat.succ_pos _, Nat.succ_le_succ h.count.2⟩
  case runs => exact List.forall_mem_cons.2 ⟨⟨b, hrun⟩, h.runs⟩
  case letDown => exact List.forall_mem_cons.2 ⟨letDown_of_eq hrun, h.letDown⟩
  case again =>
    intro n t ht hn
    cases n with
    | zero =>
      cases ht
      exact ⟨e, b₁, rfl, he, rfl, rfl⟩
    | succ n =>
      rw [hnumber]
      exact h.again n t ht (Nat.lt_of_succ_lt_succ hn)
  case persists =>
    intro n t e ht he hretry hn
    cases n with
    | zero => exact .inl (Nat.succ_lt_succ h.count.1)
    | succ n =>
      exact (h.persists n t e ht he hretry (Nat.lt_of_succ_lt_succ hn)).imp_left Nat.succ_lt_succ
  case fired =>
    refine List.forall_mem_cons.2 ⟨?_, h.fired⟩
    rintro (hfired | hcut')
    · cases hfired
    · rw [Trial.isCut, hcut] at hcut'
      cases hcut'
  case cut =>
    intro n t ht hcut'
    cases n with
    | zero =>
      cases ht
      rw [Trial.isCut, hcut] at hcut'
      cases hcut'
    | succ n =>
      obtain ⟨hn, hallowed, hwait⟩ := h.cut n t ht hcut'
      rw [hnumber]
      exact ⟨congrArg (· + 1) hn, Nat.succ_lt_succ hallowed, hwait⟩
  case last =>
    obtain ⟨t, hlast, hwait, rfl, houtcome⟩ := h.last
    refine ⟨t, ?_, hwait, ?_, houtcome⟩
    · rw [List.getLast?_cons, hlast]
      rfl
    · rw [List.flatMap_cons, List.append_assoc, List.append_assoc]
      rfl

end Cases

/-! ### All tries -/

theorem backoff_eq_waitBefore (o : SyncOptions) {number : Nat} (h : number ≤ 32) :
    o.backoff number = waitBefore o number :=
  o.backoff_eq h

section Course

variable {p : Platform} {k : ContentProcessor} {a : Article} {o : SyncOptions}
  {allowed made : Nat} {b b₁ b' : Bool} {log₁ log₂ : List Entry} {x : Ending Outcome}

/-- A run, and what comes of its failure. -/
theorem exists_tries_run_bind {log : List Entry}
    {f : Except WorkflowError Publication → Program Outcome}
    (hok : ∀ publication, f (.ok publication) = do
      Program.emit (.platformFinished p.id publication.draftOnly)
      return publication.outcome p.id)
    (herror : ∀ {e : WorkflowError} {b₁ : Bool} {log₁ log₂ : List Entry},
      (p.run k a o.draftOnly).Course b log₁ b₁ (.value (.error e)) →
      (f (.error e)).Course b₁ log₂ b' x → ∃ outcome trials, x = .value outcome ∧
        p.Tries k a o allowed made trials (log₁ ++ log₂) b' outcome)
    (h : (p.run k a o.draftOnly >>= f).Course b log b' x) :
    ∃ outcome trials, x = .value outcome ∧
      p.Tries k a o allowed made trials log b' outcome := by
  obtain ⟨log₁, b₁, r, log₂, hrun, hrest, rfl⟩ | ⟨text, hrun, -⟩ := Program.course_bind.1 h
  · cases r with
    | ok publication =>
      rw [hok] at hrest
      obtain ⟨log₃, rfl, hv⟩ := Program.course_emit_bind.1 hrest
      obtain ⟨rfl, rfl, rfl⟩ := Program.course_pure.1 hv
      exact ⟨_, _, rfl, tries_last hrun nofun⟩
    | error e => exact herror hrun hrest
  · -- a run has a result whatever happens
    obtain ⟨r, hv, -⟩ := p.journey_of_course hrun
    cases hv

/-- The end after a run that has failed and is not followed by another. -/
theorem exists_tries_of_giveUp {e : WorkflowError}
    (hrun : (p.run k a o.draftOnly).Course b log₁ b₁ (.value (.error e)))
    (hstop : e.isRetryable = true → allowed = 0 ∨ b₁ = true)
    (hrest : (do
      Program.emit (.platformFailed p.id e.message)
      return Outcome.failed p.id e.message : Program Outcome).Course b₁ log₂ b' x) :
    ∃ outcome trials, x = .value outcome ∧
      p.Tries k a o allowed made trials (log₁ ++ log₂) b' outcome := by
  obtain ⟨log₃, rfl, hv⟩ := Program.course_emit_bind.1 hrest
  obtain ⟨rfl, rfl, rfl⟩ := Program.course_pure.1 hv
  refine ⟨_, _, rfl, tries_last hrun fun e' he => ?_⟩
  cases he
  exact hstop

end Course

/-- **Every course of publishing to a platform is a sequence of tries.** -/
theorem exists_tries (p : Platform) {k : ContentProcessor} {a : Article} {o : SyncOptions}
    {remaining made : Nat} {b b' : Bool} {log : List Entry} {x : Ending Outcome}
    (hnumber : made + remaining ≤ 32)
    (h : (p.publishFrom k a o remaining made).Course b log b' x) :
    ∃ outcome trials, x = .value outcome ∧
      p.Tries k a o remaining made trials log b' outcome := by
  induction remaining generalizing made b log with
  | zero =>
    rw [publishFrom] at h
    exact exists_tries_run_bind (fun _ => rfl)
      (fun hrun => exists_tries_of_giveUp hrun fun _ => .inl rfl) h
  | succ remaining ih =>
    rw [publishFrom] at h
    refine exists_tries_run_bind (fun _ => rfl) (fun {e b₁ log₁ log₂} hrun hrest => ?_) h
    have hlook := Program.course_isCancelled_bind.1 hrest
    split at hlook
    · rename_i hstop
      refine exists_tries_of_giveUp hrun (fun hretry => .inr ?_) hlook
      simpa [hretry] using hstop
    · rename_i hgo
      have hgo' : e.isRetryable = true ∧ b₁ = false := by simpa using hgo
      obtain ⟨hretry, rfl⟩ := hgo'
      rw [backoff_eq_waitBefore o (by omega)] at hlook
      obtain ⟨log₃, rfl, hpause⟩ := Program.course_emit_bind.1 hlook
      obtain ⟨log₄, b₂, waited, log₅, hwait, htry, rfl⟩ | ⟨_, hwait, -⟩ :=
        Program.course_bind.1 hpause
      · obtain ⟨rfl, hv⟩ | ⟨-, rfl, rfl, hv⟩ := Program.course_pause_cases hwait <;> cases hv
        · obtain ⟨outcome, trials, rfl, htries⟩ := ih (by omega) htry
          exact ⟨outcome, _, rfl, htries.tries_cons hrun hretry⟩
        · -- the cancellation has fired during the wait
          obtain ⟨rfl, rfl, rfl⟩ := Program.course_pure.1 htry
          exact ⟨_, _, rfl, tries_cut hrun hretry (Nat.succ_pos remaining)⟩
      · obtain ⟨-, _, hv⟩ := Program.course_pause hwait
        cases hv

end Platform

/-! ### The law of further tries -/

/-- **The law of further tries** for a platform that is registered, whatever the runs come to.

Every course of publishing to it is a sequence of at most `min retries 5 + 1` runs that keeps to
`Platform.Tries`, and without a cancellation all tries that are allowed are made as long as the
transport is at fault. The waits are what the doubling comes to in the end, whatever the first
wait is. On the clock, with any transport and in any world, publishing ends so. A platform that
is not registered is not tried. -/
theorem Publisher.publishTo_retries {σ : Type} (p : Publisher σ) (a : Article) (o : SyncOptions)
    (id : String) :
    (p.registry.get? id = none → ∀ b log b' x, (p.publishTo a o id).Course b log b' x →
      log = [⟨b, .report (.notRegistered id)⟩] ∧
      x = .value (.failed id s!"Platform not registered: {id}")) ∧
    (∀ platform, p.registry.get? id = some platform →
      (∀ b log b' x, (p.publishTo a o id).Course b log b' x →
        ∃ outcome trials, x = .value outcome ∧
          platform.Tries p.converter a o (min o.retries 5) 0 trials log b' outcome) ∧
      ∀ (t : Transport σ) (w : World σ), ∃ b log b' outcome trials,
        (p.publishTo a o id).Course b log b' (.value outcome) ∧
        platform.Tries p.converter a o (min o.retries 5) 0 trials log b' outcome ∧
        (run t w (p.publishTo a o id)).1 = some outcome ∧
        (run t w (p.publishTo a o id)).2.journal = w.journal ++ told log) := by
  constructor
  · intro hnone b log b' x h
    rw [publishTo, hnone] at h
    obtain ⟨log', rfl, hv⟩ := Program.course_emit_bind.1 h
    obtain ⟨rfl, -, rfl⟩ := Program.course_pure.1 hv
    exact ⟨rfl, rfl⟩
  · intro platform hplatform
    have htries : ∀ b log b' x, (p.publishTo a o id).Course b log b' x →
        ∃ outcome trials, x = .value outcome ∧
          platform.Tries p.converter a o (min o.retries 5) 0 trials log b' outcome := by
      intro b log b' x h
      rw [publishTo, hplatform] at h
      have hallowed := o.allowedRetries_le
      exact platform.exists_tries (by unfold SyncOptions.maxRetries at hallowed; omega) h
    refine ⟨htries, fun t w => ?_⟩
    obtain ⟨b, log, b', x, hc, hresult, hjournal⟩ :=
      Company.exists_course_of_run t w (p.publishTo a o id)
    obtain ⟨outcome, trials, rfl, htrials⟩ := htries b log b' x hc
    exact ⟨b, log, b', outcome, trials, hc, htrials, hresult, hjournal⟩

end Syndication
