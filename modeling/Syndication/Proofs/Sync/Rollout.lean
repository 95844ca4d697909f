import Syndication.Proofs.Sync.Batch

/-!
# Rollouts

A sync, with everything left open that the outside decides. Its batches go on one after
another, and while one is at work, it is a company of the platforms in it.

* `Rollout.lawful_of_move`, `Rollout.lawful_of_reaches`: what holds of a sync while it is
  under way.
* `Rollout.marked_of_reaches`: what is reported says whether the cancellation had fired.
* `Publisher.exists_answered_goes_of_sync`: what the clock does with a sync is one of the
  things that may happen, with the replies that the transport gives.
-/

namespace Syndication

/-- What stands between the beginning of a sync and its end. -/
inductive Phase where
  /-- No batch is at work. -/
  | between (fired : Bool) (journal : List (Bool × Event))
  /-- A batch is at work. -/
  | working (batch : List String) (company : Company Outcome)
  /-- No batch is at work, and none will be. -/
  | closed (fired : Bool) (journal : List (Bool × Event))

namespace Phase

/-- Whether the cancellation has fired. -/
def fired : Phase → Bool
  | between fired _ | closed fired _ => fired
  | working _ company => company.fired

/-- What has been reported. -/
def journal : Phase → List (Bool × Event)
  | between _ journal | closed _ journal => journal
  | working _ company => company.journal

/-- The batch that is at work. -/
def batch? : Phase → Option (List String)
  | working batch _ => some batch
  | _ => none

/-- What is recorded of the batch that is at work. -/
def ended : Phase → List (List Entry × Outcome)
  | working _ company => company.ended
  | _ => []

/-- How many platforms have begun or are about to, and have not ended. -/
def inFlight : Phase → Nat
  | working _ company => company.members.countP fun m => !m.stance.isFinished
  | _ => 0

end Phase

/-- A batch that has ended, with its records in the order in which they came. -/
structure Group where
  /-- The platforms. -/
  batch : List String
  /-- What is recorded of them. -/
  records : List (List Entry × Outcome)

/-- Something has failed, and the options do not say to continue. -/
def Group.Stops (o : SyncOptions) (g : Group) : Prop :=
  (∃ record ∈ g.records, record.2.success = false) ∧ o.continueOnError = false

/-- A sync under way. -/
structure Rollout where
  /-- The batches that have ended. -/
  past : List Group
  /-- Where it stands. -/
  phase : Phase
  /-- The batches that have not begun. -/
  pending : List (List String)

namespace Rollout

/-- The number of the batch that is at work or would be next. -/
def number (r : Rollout) : Nat :=
  r.past.length + 1

/-- What is recorded, in order. -/
def records (r : Rollout) : List (List Entry × Outcome) :=
  r.past.flatMap Group.records ++ r.phase.ended

/-- The outcomes that are recorded, in order. -/
def outcomes (r : Rollout) : List Outcome :=
  r.records.map (·.2)

/-- Every reply that is seen in what is recorded is an answer. -/
def IsAnswered (answers : Request → Reply → Prop) (r : Rollout) : Prop :=
  ∀ record ∈ r.records, Answered answers (actsOf record.1)

/-- The platforms of the outcomes. -/
theorem map_platform_outcomes (r : Rollout) :
    r.outcomes.map (·.platform) =
      (r.past.flatMap Group.records).map (·.2.platform) ++ r.phase.ended.map (·.2.platform) := by
  rw [outcomes, List.map_map, records, List.map_append]
  rfl

/-- No more is recorded than of the batches that have ended, unless one is at work. -/
theorem isAnswered_of_past {answers : Request → Reply → Prop} {r : Rollout}
    (hpast : ∀ g ∈ r.past, ∀ record ∈ g.records, Answered answers (actsOf record.1))
    (hidle : r.phase.ended = []) : r.IsAnswered answers := by
  intro record hr
  rw [records, hidle, List.append_nil] at hr
  obtain ⟨g, hg, hrecord⟩ := List.mem_flatMap.1 hr
  exact hpast g hg record hrecord

/-- The sync at its beginning. -/
def start (fired : Bool) (journal : List (Bool × Event)) (batches : List (List String)) : Rollout :=
  ⟨[], .between fired journal, batches⟩

section Moves

variable {σ : Type} (p : Publisher σ) (a : Article) (o : SyncOptions)

/-- **What may happen in a sync.** -/
inductive Move : Rollout → Rollout → Prop where
  /-- The cancellation fires while no batch is at work. -/
  | fire (past : List Group) (journal : List (Bool × Event)) (pending : List (List String)) :
    Move ⟨past, .between false journal, pending⟩ ⟨past, .between true journal, pending⟩
  /-- A batch begins. -/
  | begin (past : List Group) (journal : List (Bool × Event)) (batch : List String)
    (pending : List (List String)) :
    Move ⟨past, .between false journal, batch :: pending⟩
      ⟨past, .working batch (.start false
        (journal ++ [(false, .batchStarted (past.length + 1) batch.length)])
        (batch.map (p.publishAndTell a o))), pending⟩
  /-- Something happens in the batch that is at work. -/
  | work (past : List Group) (batch : List String) (pending : List (List String))
    {c c' : Company Outcome} (hm : Company.Move c c') :
    Move ⟨past, .working batch c, pending⟩ ⟨past, .working batch c', pending⟩
  /-- The batch has ended. -/
  | turn (past : List Group) (batch : List String) (pending : List (List String))
    {c : Company Outcome} (hfin : c.IsFinished) (hs : ¬ (Group.mk batch c.ended).Stops o) :
    Move ⟨past, .working batch c, pending⟩
      ⟨past ++ [⟨batch, c.ended⟩], .between c.fired c.journal, pending⟩
  /-- The batch has ended, and none is to follow a failure. -/
  | stop (past : List Group) (batch : List String) (pending : List (List String))
    {c : Company Outcome} (hfin : c.IsFinished) (hs : (Group.mk batch c.ended).Stops o) :
    Move ⟨past, .working batch c, pending⟩
      ⟨past ++ [⟨batch, c.ended⟩],
        .closed c.fired (c.journal ++ [(c.fired, .batchesStopped (past.length + 1))]), pending⟩
  /-- None is to follow the cancellation. -/
  | refuse (past : List Group) (journal : List (Bool × Event)) (batch : List String)
    (pending : List (List String)) :
    Move ⟨past, .between true journal, batch :: pending⟩
      ⟨past, .closed true (journal ++ [(true, .batchesCancelled (past.length + 1))]),
        batch :: pending⟩
  /-- None is left. -/
  | finish (past : List Group) (fired : Bool) (journal : List (Bool × Event)) :
    Move ⟨past, .between fired journal, []⟩ ⟨past, .closed fired journal, []⟩

/-- What a sync may come to. -/
def Reaches : Rollout → Rollout → Prop :=
  Relation.ReflTransGen (Move p a o)

/-! ### What holds of a sync under way -/

/-- Batch number `number` of `all` has begun when exactly what became of those before it had
been told. -/
def Begins (all : List (List String)) (before : List (Bool × Event)) (number size : Nat) : Prop :=
  ∃ done batch rest, all = done ++ batch :: rest ∧ number = done.length + 1 ∧
    size = batch.length ∧ ((progressOf before).map (·.platform)).Perm done.flatten

/-- So has every batch that has begun. -/
def Begun (all : List (List String)) (new : List (Bool × Event)) : Prop :=
  ∀ (i : Nat) (fired : Bool) (number size : Nat),
    new[i]? = some (fired, .batchStarted number size) → Begins all (new.take i) number size

/-- **What holds of a sync while it is under way**: `all` are its batches, and `new` is what it
has reported. -/
structure Lawful (all : List (List String)) (new : List (Bool × Event)) (r : Rollout) : Prop where
  turns : r.past.map Group.batch ++ r.phase.batch?.toList ++ r.pending = all
  /-- Each batch that has ended has recorded each of its platforms once. -/
  past : ∀ g ∈ r.past, (g.records.map (·.2.platform)).Perm g.batch
  /-- What is recorded is what has become of a platform. -/
  records : ∀ record ∈ r.records,
    p.Recorded a o record.2.platform record ∧ told record.1 ⊆ new
  /-- The outcomes are told in the order in which they are recorded. -/
  progress : progressOf new = r.outcomes
  /-- Nothing begins after the firing. -/
  heeds : ∀ entry ∈ new, entry.1 = true → entry.2.isBeginning = false
  begun : Begun all new
  /-- The batch at work is one. -/
  works : ∀ batch c, r.phase = .working batch c →
    ∃ earlier later, new = earlier ++ later ∧ p.Works a o batch later c
  /-- A sync that has ended early was cancelled or has failed. -/
  closed : ∀ fired journal, r.phase = .closed fired journal →
    r.pending = [] ∨ (fired = true ∧ (true, .batchesCancelled r.number) ∈ new) ∨
      ∃ g ∈ r.past.getLast?, g.Stops o

variable {p a o} {all : List (List String)} {new more : List (Bool × Event)} {r r' : Rollout}

theorem Begun.append (h : Begun all new)
    (hmore : ∀ (i : Nat) (fired : Bool) (number size : Nat),
      more[i]? = some (fired, .batchStarted number size) →
        Begins all (new ++ more.take i) number size) : Begun all (new ++ more) := by
  intro i fired number size he
  rw [List.getElem?_append] at he
  split at he
  · rename_i hi
    rw [List.take_append_of_le_length hi.le]
    exact h i fired number size he
  · -- all that came before `more` had been reported
    rename_i hi
    rw [List.take_append, List.take_of_length_le (Nat.le_of_not_lt hi)]
    exact hmore _ fired number size he

theorem Begun.append_of_steady (h : Begun all new) (hmore : ∀ entry ∈ more, Steady entry) :
    Begun all (new ++ more) :=
  h.append fun _ _ number size he => absurd rfl ((hmore _ (List.mem_of_getElem? he)).2 number size)

theorem lawful_start (fired : Bool) (journal : List (Bool × Event)) (all : List (List String)) :
    Lawful p a o all [] (start fired journal all) where
  turns := rfl
  past := List.forall_mem_nil _
  records := List.forall_mem_nil _
  progress := rfl
  heeds := List.forall_mem_nil _
  begun i _ _ _ he := by cases he
  works _ _ h := by cases h
  closed _ _ h := by cases h

/-- What has been told before the batch that is at work is what is recorded of those before
it. -/
theorem Lawful.progress_earlier {past : List Group} {batch : List String} {c : Company Outcome}
    {pending : List (List String)} {earlier later : List (Bool × Event)}
    (h : Lawful p a o all (earlier ++ later) ⟨past, .working batch c, pending⟩)
    (hw : p.Works a o batch later c) :
    progressOf earlier = (past.flatMap Group.records).map (·.2) := by
  have hp := h.progress
  rw [progressOf_append, hw.progress] at hp
  refine List.append_cancel_right (hp.trans ?_)
  rw [outcomes, Rollout.records, List.map_append]
  rfl

/-- What is recorded of the batches that have ended is of their platforms. -/
theorem perm_of_past {past : List Group}
    (h : ∀ g ∈ past, (g.records.map (·.2.platform)).Perm g.batch) :
    ((past.flatMap Group.records).map (·.2.platform)).Perm (past.map Group.batch).flatten := by
  induction past with
  | nil => exact .refl _
  | cons g past ih =>
    obtain ⟨hg, hpast⟩ := List.forall_mem_cons.1 h
    rw [List.flatMap_cons, List.map_append, List.map_cons, List.flatten_cons]
    exact hg.append (ih hpast)

/-- A sync that reports nothing of note goes on in lawful order, when no batch is at work. -/
theorem Lawful.rest (h : Lawful p a o all new r)
    (hturns : r'.past.map Group.batch ++ r'.phase.batch?.toList ++ r'.pending = all)
    (hpast : ∀ g ∈ r'.past, (g.records.map (·.2.platform)).Perm g.batch)
    (hrecords : r'.records = r.records) (hidle : ∀ batch c, r'.phase ≠ .working batch c)
    (hmore : ∀ entry ∈ more, Steady entry ∧ entry.2.progress? = none)
    (hclosed : ∀ fired journal, r'.phase = .closed fired journal →
      r'.pending = [] ∨ (fired = true ∧ (true, .batchesCancelled r'.number) ∈ more) ∨
        ∃ g ∈ r'.past.getLast?, g.Stops o) :
    Lawful p a o all (new ++ more) r' where
  turns := hturns
  past := hpast
  records record hr := by
    obtain ⟨hrec, htold⟩ := h.records record (hrecords ▸ hr)
    exact ⟨hrec, List.Subset.trans htold (List.subset_append_left _ _)⟩
  progress := by
    have hnone : progressOf more = [] := List.filterMap_eq_nil_iff.2 fun e he => (hmore e he).2
    rw [progressOf_append, hnone, List.append_nil, h.progress, outcomes, outcomes, hrecords]
  heeds entry he := by
    rcases List.mem_append.1 he with he | he
    · exact h.heeds entry he
    · exact (hmore entry he).1.1
  begun := h.begun.append_of_steady fun entry he => (hmore entry he).1
  works batch c hp := absurd hp (hidle batch c)
  closed fired journal hp :=
    (hclosed fired journal hp).imp_right fun h => h.imp_left (.imp_right (List.mem_append_right _))

/-- The records of a sync whose batch has ended. -/
theorem records_turn (past : List Group) (batch : List String) (c : Company Outcome)
    (pending : List (List String)) {phase : Phase} (h : phase.ended = []) :
    (Rollout.mk (past ++ [⟨batch, c.ended⟩]) phase pending).records =
      (Rollout.mk past (.working batch c) pending).records := by
  rw [records, records, h]
  simp [Phase.ended]

theorem lawful_begin {past : List Group} {journal : List (Bool × Event)} {batch : List String}
    {pending : List (List String)}
    (h : Lawful p a o all new ⟨past, .between false journal, batch :: pending⟩) :
    Lawful p a o all (new ++ [(false, .batchStarted (past.length + 1) batch.length)])
      ⟨past, .working batch (.start false
        (journal ++ [(false, .batchStarted (past.length + 1) batch.length)])
        (batch.map (p.publishAndTell a o))), pending⟩ where
  turns := by
    rw [← h.turns]
    simp [Phase.batch?]
  past := h.past
  records record hr := by
    obtain ⟨hrec, htold⟩ := h.records record hr
    exact ⟨hrec, List.Subset.trans htold (List.subset_append_left _ _)⟩
  progress := by
    rw [progressOf_append, h.progress]
    exact List.append_nil _
  heeds entry he := by
    rcases List.mem_append.1 he with he | he
    · exact h.heeds entry he
    · rw [List.mem_singleton.1 he]
      exact nofun
  begun := by
    refine h.begun.append fun i fired number size he => ?_
    obtain ⟨rfl, he⟩ : i = 0 ∧ _ := by simpa [List.getElem?_singleton] using he
    obtain ⟨rfl, rfl, rfl⟩ := he
    refine ⟨past.map Group.batch, batch, pending, ?_, by rw [List.length_map], rfl, ?_⟩
    · rw [← h.turns]
      simp [Phase.batch?]
    · -- what has been told is what is recorded of the batches before it
      rw [List.take_zero, List.append_nil, h.progress, map_platform_outcomes]
      exact (List.append_nil _).symm ▸ perm_of_past h.past
  works batch' c hp := by
    cases hp
    exact ⟨_, [], (List.append_nil _).symm, p.works_start _ _ _⟩
  closed _ _ hp := by cases hp

theorem lawful_work {past : List Group} {batch : List String} {pending : List (List String)}
    {c c' : Company Outcome} (h : Lawful p a o all new ⟨past, .working batch c, pending⟩)
    (hm : Company.Move c c') :
    ∃ more, c'.journal = c.journal ++ more ∧ (∀ entry ∈ more, entry.1 = c.fired) ∧
      Lawful p a o all (new ++ more) ⟨past, .working batch c', pending⟩ := by
  obtain ⟨earlier, later, rfl, hw⟩ := h.works batch c rfl
  obtain ⟨more, hjournal, hfired, hw'⟩ := Publisher.works_of_move hw hm
  have hearlier := h.progress_earlier hw
  refine ⟨more, hjournal, hfired, ⟨h.turns, h.past, ?_, ?_, ?_, ?_, ?_, nofun⟩⟩
  · intro record hr
    -- a record of a batch that has ended, or one of the batch at work
    rcases List.mem_append.1 hr with hr | hr
    · obtain ⟨hrec, htold⟩ := h.records record (List.mem_append_left _ hr)
      exact ⟨hrec, List.Subset.trans htold (List.subset_append_left _ _)⟩
    · obtain ⟨⟨id, -, hrec⟩, htold⟩ := hw'.recorded_of_mem hr
      refine ⟨hrec.platform ▸ hrec, List.Subset.trans htold ?_⟩
      rw [List.append_assoc]
      exact List.subset_append_right _ _
  · rw [List.append_assoc, progressOf_append, hearlier, hw'.progress, ← List.map_append]
    rfl
  · intro entry he
    rcases List.mem_append.1 he with he | he
    · exact h.heeds entry he
    · exact (hw'.steady entry (List.mem_append_right _ he)).1
  · exact h.begun.append_of_steady fun entry he => hw'.steady entry (List.mem_append_right _ he)
  · intro batch' c₁ hp
    cases hp
    exact ⟨earlier, later ++ more, List.append_assoc _ _ _, hw'⟩

/-- **A sync goes on in lawful order**, and what it reports meanwhile is marked with whether
the cancellation has fired. -/
theorem lawful_of_move (h : Lawful p a o all new r) (hm : Move p a o r r') :
    ∃ more, r'.phase.journal = r.phase.journal ++ more ∧
      (∀ entry ∈ more, entry.1 = r.phase.fired) ∧ Lawful p a o all (new ++ more) r' := by
  cases hm with
  | fire past journal pending =>
    exact ⟨[], (List.append_nil _).symm, List.forall_mem_nil _,
      h.rest h.turns h.past rfl nofun (List.forall_mem_nil _) nofun⟩
  | begin past journal batch pending =>
    exact ⟨_, rfl, List.forall_mem_singleton.2 rfl, lawful_begin h⟩
  | work past batch pending hm => exact lawful_work h hm
  | @turn past batch pending c hfin hs =>
    -- the records are those that the company had; now they are all there are of the batch
    obtain ⟨earlier, later, -, hw⟩ := h.works batch c rfl
    refine ⟨[], (List.append_nil _).symm, List.forall_mem_nil _,
      h.rest ?_ ?_ (records_turn _ _ _ _ rfl) nofun (List.forall_mem_nil _) nofun⟩
    · rw [← h.turns]
      simp [Phase.batch?]
    · exact List.forall_mem_append.2 ⟨h.past, List.forall_mem_singleton.2 (hw.ended_perm hfin)⟩
  | @stop past batch pending c hfin hs =>
    obtain ⟨earlier, later, -, hw⟩ := h.works batch c rfl
    refine ⟨_, rfl, List.forall_mem_singleton.2 rfl,
      h.rest ?_ ?_ (records_turn _ _ _ _ rfl) nofun ?_ fun _ _ _ => .inr (.inr ⟨_, ?_, hs⟩)⟩
    · rw [← h.turns]
      simp [Phase.batch?]
    · exact List.forall_mem_append.2 ⟨h.past, List.forall_mem_singleton.2 (hw.ended_perm hfin)⟩
    · exact List.forall_mem_singleton.2 ⟨⟨fun _ => rfl, nofun⟩, rfl⟩
    · exact List.getLast?_concat
  | refuse past journal batch pending =>
    exact ⟨_, rfl, List.forall_mem_singleton.2 rfl,
      h.rest h.turns h.past rfl nofun (List.forall_mem_singleton.2 ⟨⟨fun _ => rfl, nofun⟩, rfl⟩)
        fun _ _ hp => .inr (.inl ⟨by cases hp; rfl, List.mem_singleton_self _⟩)⟩
  | finish past fired journal =>
    exact ⟨[], (List.append_nil _).symm, List.forall_mem_nil _,
      h.rest h.turns h.past rfl nofun (List.forall_mem_nil _) fun _ _ _ => .inl rfl⟩

theorem lawful_of_reaches (h : Lawful p a o all new r) (hr : Reaches p a o r r') :
    ∃ more, r'.phase.journal = r.phase.journal ++ more ∧ Lawful p a o all (new ++ more) r' := by
  induction hr with
  | refl => exact ⟨[], (List.append_nil _).symm, (List.append_nil new).symm ▸ h⟩
  | tail _ hm ih =>
    obtain ⟨more, hjournal, h'⟩ := ih
    obtain ⟨more', hjournal', -, h''⟩ := lawful_of_move h' hm
    refine ⟨more ++ more', ?_, List.append_assoc new more more' ▸ h''⟩
    rw [hjournal', hjournal, List.append_assoc]

/-- A sync that has ended because of a failure has recorded one. -/
theorem exists_failure_of_stops (h : ∃ g ∈ r.past.getLast?, g.Stops o) :
    ∃ outcome ∈ r.outcomes, outcome.success = false := by
  obtain ⟨g, hg, ⟨record, hr, hf⟩, -⟩ := h
  have hmem : record ∈ r.records :=
    List.mem_append_left _ (List.mem_flatMap.2 ⟨g, List.mem_of_getLast? hg, hr⟩)
  exact ⟨record.2, List.mem_map_of_mem hmem, hf⟩

/-! ### Earlier and later -/

/-- What a sync has come to by a later moment. -/
structure Later (r r' : Rollout) : Prop where
  fired : r.phase.fired ≤ r'.phase.fired
  /-- What is recorded stays as it is. -/
  records : r.records <+: r'.records
  /-- After the firing no batch begins. -/
  pending : r.phase.fired = true → r'.pending = r.pending

theorem later_refl (r : Rollout) : Later r r :=
  ⟨le_rfl, List.prefix_refl _, fun _ => rfl⟩

theorem Later.trans {r'' : Rollout} (h : Later r r') (h' : Later r' r'') : Later r r'' where
  fired := h.fired.trans h'.fired
  records := h.records.trans h'.records
  pending hf := (h'.pending (h.fired hf)).trans (h.pending hf)

theorem later_of_move (hm : Move p a o r r') : Later r r' := by
  cases hm with
  | fire => exact ⟨Bool.le_true _, List.prefix_refl _, fun _ => rfl⟩
  | begin => exact ⟨le_rfl, List.prefix_refl _, nofun⟩
  | work past batch pending hm =>
    refine ⟨Company.fired_le_of_reaches (.single hm), ?_, fun _ => rfl⟩
    exact (List.prefix_append_right_inj _).2 (Company.ended_prefix_of_move hm)
  | turn | stop =>
    refine ⟨le_rfl, ⟨[], ?_⟩, fun _ => rfl⟩
    rw [List.append_nil, records_turn]
    rfl
  | refuse => exact ⟨le_rfl, List.prefix_refl _, fun _ => rfl⟩
  | finish => exact ⟨le_rfl, List.prefix_refl _, fun _ => rfl⟩

theorem later_of_reaches (hr : Reaches p a o r r') : Later r r' := by
  induction hr with
  | refl => exact later_refl r
  | tail _ hm ih => exact ih.trans (later_of_move hm)

/-- **What is reported is marked with where the firing stood meanwhile.** -/
theorem marked_of_reaches (h : Lawful p a o all new r) (hr : Reaches p a o r r')
    {more : List (Bool × Event)} (hmore : r'.phase.journal = r.phase.journal ++ more) :
    ∀ entry ∈ more, r.phase.fired ≤ entry.1 ∧ entry.1 ≤ r'.phase.fired := by
  induction hr generalizing more with
  | refl =>
    rw [List.self_eq_append_right.1 hmore]
    exact List.forall_mem_nil _
  | @tail r₁ r₂ hr hm ih =>
    obtain ⟨more₁, hjournal₁, h₁⟩ := lawful_of_reaches h hr
    obtain ⟨more₂, hjournal₂, hfired₂, -⟩ := lawful_of_move h₁ hm
    have hlast := (later_of_move hm).fired
    -- what the last move has reported comes after the rest
    have hsplit : more = more₁ ++ more₂ := by
      refine List.append_cancel_left (hmore.symm.trans ?_)
      rw [hjournal₂, hjournal₁, List.append_assoc]
    rw [hsplit]
    refine List.forall_mem_append.2 ⟨fun entry he => ?_, fun entry he => ?_⟩
    · obtain ⟨hle, hge⟩ := ih hjournal₁ entry he
      exact ⟨hle, hge.trans hlast⟩
    · rw [hfired₂ entry he]
      exact ⟨(later_of_reaches hr).fired, hlast⟩

/-- After the firing all that is reported is marked so. -/
theorem fired_of_reaches (h : Lawful p a o all new r) (hr : Reaches p a o r r')
    (hf : r.phase.fired = true) {more : List (Bool × Event)}
    (hmore : r'.phase.journal = r.phase.journal ++ more) : ∀ entry ∈ more, entry.1 = true := by
  intro entry he
  have hle := (marked_of_reaches h hr hmore entry he).1
  rw [hf] at hle
  exact Bool.eq_true_of_true_le hle

end Moves

end Rollout

/-! ### The clock keeps to a rollout -/

namespace Publisher

open Rollout

variable {σ : Type} (p : Publisher σ) (a : Article) (o : SyncOptions) (cancels : Outcome → Bool)

theorem stops_iff (batch : List String) {ended : List (List Entry × Outcome)}
    {results : List SyncResult} (h : results.map (·.toOutcome) = ended.map (·.2)) :
    (Group.mk batch ended).Stops o ↔
      (results.any (!·.success) && !o.continueOnError) = true := by
  have hany : results.any (!·.success) = (results.map (·.toOutcome)).any (!·.success) := by
    rw [List.any_map]
    rfl
  rw [hany, h, Group.Stops]
  simp

/-- A batch that is run is one at work until it has ended. -/
theorem exists_working_of_runBatch (past : List Group) (batch : List String)
    (pending : List (List String)) {w w' : World σ} (hw : w.cancelled = false)
    {results : List SyncResult} (h : p.runBatch a o cancels batch
      (w.report (.batchStarted (past.length + 1) batch.length)) = (results, w')) :
    ∃ c, Reaches p a o ⟨past, .between w.cancelled w.journal, batch :: pending⟩
        ⟨past, .working batch c, pending⟩ ∧ c.IsFinished ∧ c.fired = w'.cancelled ∧
      c.journal = w'.journal ∧ results.map (·.toOutcome) = c.ended.map (·.2) ∧
      ∀ record ∈ c.ended, Answered p.transport.Gives (actsOf record.1) := by
  obtain ⟨c, hr, hfin, ha, hfired, hjournal, hended⟩ :=
    Company.exists_company_of_runAll p.transport cancels
      (w.report (.batchStarted (past.length + 1) batch.length))
      (batch.map (p.publishAndTell a o))
  obtain ⟨rfl, rfl⟩ := Prod.mk.inj h
  refine ⟨c, ?_, hfin, hfired, hjournal, ?_, fun record hrecord => ?_⟩
  · rw [World.journal_report, World.cancelled_report, hw] at hr
    rw [hw]
    refine (Relation.ReflTransGen.single (.begin past w.journal batch pending)).trans ?_
    exact hr.lift (fun c => (⟨past, .working batch c, pending⟩ : Rollout))
      fun _ _ hm => .work past batch pending hm
  · rw [hended, List.map_map]
    rfl
  · -- it is recorded of a platform that has ended
    obtain ⟨m, hm, hl⟩ := List.mem_filterMap.1
      ((Company.ended_perm hr (Company.ended_perm_start _ _ _)).mem_iff.1 hrecord)
    rw [(m.landed?_eq_some_iff.1 hl).1]
    exact ha m hm

/-- **Batches that are run one after another are a rollout**, with the replies that the
transport gives. -/
theorem exists_rollout_of_runBatches (past : List Group) (pending : List (List String))
    (w : World σ) (hpast : ∀ g ∈ past, ∀ record ∈ g.records,
      Answered p.transport.Gives (actsOf record.1)) :
    ∃ r, Reaches p a o ⟨past, .between w.cancelled w.journal, pending⟩ r ∧
      r.phase = .closed (p.runBatches a o cancels (past.length + 1) pending w).2.cancelled
        (p.runBatches a o cancels (past.length + 1) pending w).2.journal ∧
      r.outcomes = (past.flatMap Group.records).map (·.2) ++
        (p.runBatches a o cancels (past.length + 1) pending w).1.map (·.toOutcome) ∧
      r.IsAnswered p.transport.Gives := by
  -- batch by batch, each with the world that the one before has left
  induction pending generalizing past w with
  | nil =>
    refine ⟨_, .single (.finish past _ _), rfl, ?_, isAnswered_of_past hpast rfl⟩
    rw [outcomes, records, List.map_append]
    rfl
  | cons batch pending ih =>
    by_cases hw : w.cancelled = true
    · -- none is to follow the cancellation
      rw [hw, runBatches, if_pos hw]
      refine ⟨_, .single (.refuse past _ _ _), ?_, ?_, isAnswered_of_past hpast rfl⟩
      · rw [World.journal_report, World.cancelled_report, hw]
      · rw [outcomes, records, List.map_append]
        rfl
    · rw [Bool.not_eq_true] at hw
      obtain ⟨⟨results, w'⟩, hrun⟩ : ∃ x, p.runBatch a o cancels batch
          (w.report (.batchStarted (past.length + 1) batch.length)) = x := ⟨_, rfl⟩
      obtain ⟨c, hr, hfin, hfired, hjournal, hended, hanswered⟩ :=
        p.exists_working_of_runBatch a o cancels past batch pending hw hrun
      have hstops := stops_iff o batch hended
      have hpast' : ∀ g ∈ past ++ [⟨batch, c.ended⟩], ∀ record ∈ g.records,
          Answered p.transport.Gives (actsOf record.1) :=
        List.forall_mem_append.2 ⟨hpast, List.forall_mem_singleton.2 hanswered⟩
      rw [runBatches_cons hw hrun]
      split
      · -- none is to follow the failure
        rename_i hs
        refine ⟨_, hr.tail (.stop past batch pending hfin (hstops.2 hs)), ?_, ?_,
          isAnswered_of_past hpast' rfl⟩
        · rw [hfired, hjournal]
          rfl
        · rw [outcomes, records_turn, hended, records, List.map_append]
          exacts [rfl, rfl]
      · rename_i hs
        have hturn := hr.tail (.turn past batch pending hfin (hs ∘ hstops.1))
        rw [hfired, hjournal] at hturn
        obtain ⟨r, hr', hphase, houtcomes, hr⟩ := ih (past ++ [⟨batch, c.ended⟩]) w' hpast'
        rw [List.length_append, List.length_singleton] at hphase houtcomes
        refine ⟨r, hturn.trans hr', hphase, ?_, hr⟩
        rw [houtcomes, List.map_append, hended, List.flatMap_append, List.map_append,
          List.append_assoc]
        simp

/-- A sync from `w` that has ended in `w'` with a task went as the rollout `r`. -/
structure Goes (platforms : List String) (w : World σ) (task : SyncTask) (w' : World σ)
    (r : Rollout) : Prop where
  reaches : Reaches p a o (start w.cancelled
    (w.journal ++ [(w.cancelled, .syncStarted platforms.length o.concurrency)])
    (batches o.batchSize platforms)) r
  /-- The rollout goes on until it is closed, and then the end of the sync is reported. -/
  closed : ∃ journal status succeeded finished, r.phase = .closed w'.cancelled journal ∧
    w'.journal = journal ++ [(w'.cancelled, .syncFinished status succeeded finished)]
  results : task.results.map (·.toOutcome) = r.outcomes
  status : task.status = .completed ↔ ∀ result ∈ task.results, result.success = true

variable {p a o} {platforms : List String} {w w' : World σ} {task : SyncTask} {r : Rollout}

theorem Goes.lawful (h : p.Goes a o platforms w task w' r) :
    ∃ new, r.phase.journal =
        w.journal ++ [(w.cancelled, .syncStarted platforms.length o.concurrency)] ++ new ∧
      Lawful p a o (batches o.batchSize platforms) new r :=
  lawful_of_reaches (lawful_start _ _ _) h.reaches

theorem Goes.cancelled_le (h : p.Goes a o platforms w task w' r) : w.cancelled ≤ w'.cancelled := by
  obtain ⟨journal, _, _, _, hphase, -⟩ := h.closed
  have hle := (later_of_reaches h.reaches).fired
  rw [hphase] at hle
  exact hle

variable (p a o)

/-- **A sync is a rollout**, with the replies that the transport gives. -/
theorem exists_answered_goes_of_sync (id : Uuid) (platforms : List String) (w : World σ) :
    ∃ r, p.Goes a o platforms w (p.sync id a platforms o cancels w).1
      (p.sync id a platforms o cancels w).2 r ∧ r.IsAnswered p.transport.Gives := by
  obtain ⟨r, hr, hphase, houtcomes, ha⟩ := p.exists_rollout_of_runBatches a o cancels []
    (batches o.batchSize platforms) (w.report (.syncStarted platforms.length o.concurrency))
    (List.forall_mem_nil _)
  exact ⟨r, ⟨hr, ⟨_, _, _, _, hphase, rfl⟩, houtcomes.symm,
    SyncTask.status_finish_eq_completed_iff _ _⟩, ha⟩

/-- A sync is a rollout. -/
theorem exists_goes_of_sync (id : Uuid) (platforms : List String) (w : World σ) :
    ∃ r, p.Goes a o platforms w (p.sync id a platforms o cancels w).1
      (p.sync id a platforms o cancels w).2 r :=
  (p.exists_answered_goes_of_sync a o cancels id platforms w).imp fun _ h => h.1

end Publisher

end Syndication
