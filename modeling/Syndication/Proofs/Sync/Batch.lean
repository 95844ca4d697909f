import Mathlib.Data.List.Perm.Basic
import Syndication.Proofs.Program.Company
import Syndication.Proofs.Sync.Publishing

/-!
# Batches

The platforms of a batch run side by side, in company. Whatever the order in which they go
on, every outcome is told in the very step in which its platform ends, so the outcomes are
told in the order in which they are recorded; and when all have ended, there is one outcome
for each platform of the batch.

* `works_of_move`: what holds of a batch while it is at work.
* `Works.recorded_of_mem`: what is recorded of a platform.
* `Works.ended_perm`: a batch that has ended has recorded each of its platforms once.
-/

namespace Syndication

/-! ### What is told meanwhile -/

/-- Nothing begins with the entry after the firing, and no batch begins with it. -/
def Steady (entry : Bool × Event) : Prop :=
  (entry.1 = true → entry.2.isBeginning = false) ∧
    ∀ number size, entry.2 ≠ .batchStarted number size

theorem steady_of_heeds {entry : Bool × Event} (h : entry.2.Heeds entry.1) : Steady entry := by
  refine ⟨h.2, fun number size he => ?_⟩
  have hrun := h.1
  rw [he] at hrun
  cases hrun

theorem steady_progress (fired : Bool) (outcome : Outcome) : Steady (fired, .progress outcome) :=
  ⟨fun _ => rfl, nofun⟩

namespace Publisher

variable {σ : Type} (p : Publisher σ) (a : Article) (o : SyncOptions)

/-- What has been seen of a platform that is being published to. -/
abbrev Seen (fired : Bool) (id : String) (m : Member Outcome) : Prop :=
  Company.Follows fired (p.publishAndTell a o id) m

/-- What is recorded of a platform: a course of publishing to it, and the outcome with which it
has ended. -/
def Recorded (id : String) (record : List Entry × Outcome) : Prop :=
  ∃ b b', (p.publishAndTell a o id).Course b record.1 b' (.value record.2)

variable {p a o}

/-- An outcome that is recorded was told at the end. -/
theorem Recorded.publishes {id : String} {record : List Entry × Outcome}
    (h : p.Recorded a o id record) :
    ∃ log b b', record.1 = log ++ [⟨b', .report (.progress record.2)⟩] ∧
      (p.publishTo a o id).Course b log b' (.value record.2) ∧ Publishes id log record.2 := by
  obtain ⟨b, b', hc⟩ := h
  obtain ⟨outcome, log, hv, h⟩ := p.tells_publishAndTell hc
  cases hv
  exact ⟨log, b, b', h⟩

theorem Recorded.platform {id : String} {record : List Entry × Outcome}
    (h : p.Recorded a o id record) : record.2.platform = id := by
  obtain ⟨_, _, _, -, -, hp⟩ := h.publishes
  exact hp.platform

variable {fired : Bool} {id : String} {m : Member Outcome}

/-- A platform that has ended has a record. -/
theorem Seen.recorded {x : Ending Outcome} (h : p.Seen a o fired id m)
    (hx : m.stance = .finished x) :
    ∃ outcome, x = .value outcome ∧ p.Recorded a o id (m.log, outcome) := by
  obtain ⟨b', -, b, hc⟩ := h.finished x hx
  rw [List.append_nil] at hc
  obtain ⟨outcome, _, rfl, -⟩ := p.tells_publishAndTell hc
  exact ⟨outcome, rfl, b, b', hc⟩

/-- A platform that is at work has told no outcome. -/
theorem Seen.heeds (h : p.Seen a o fired id m) (hfin : ∀ x, m.stance ≠ .finished x)
    (hfresh : ∀ q, m.stance ≠ .fresh q) : Heeds m.log := by
  -- what has been seen is the beginning of some course, which tells its outcome last
  obtain ⟨acts, q, hw⟩ := Stance.exists_wakes fired hfin
  obtain ⟨log, b', x, hq⟩ := Program.exists_course q fired
  obtain ⟨b, hc⟩ := h.on le_rfl hw hq
  obtain ⟨outcome, log₁, -, hlog, -, hp⟩ := p.tells_publishAndTell hc
  -- the outcome is told after the wait in which the platform is
  have hrest : stamp fired acts ++ log ≠ [] := by
    cases hs : m.stance with
    | fresh q => exact absurd hs (hfresh q)
    | finished x => exact absurd hs (hfin x)
    | _ =>
      rw [hs] at hw
      cases hw <;> exact List.cons_ne_nil _ _
  have hlog₁ := congrArg List.dropLast hlog
  rw [List.dropLast_append_of_ne_nil hrest, List.dropLast_concat] at hlog₁
  have hheeds := hp.heeds
  rw [← hlog₁] at hheeds
  exact (heeds_append.1 hheeds).1

/-- **The outcome of a platform is told in the step in which it ends**, and nothing else is. -/
theorem Seen.settled (h : p.Seen a o fired id m) (hfresh : ∀ q, m.stance ≠ .fresh q) :
    progressOf (told m.log) = (m.landed?.map (·.2)).toList := by
  cases hs : m.stance with
  | finished x =>
    obtain ⟨outcome, rfl, hr⟩ := h.recorded hs
    obtain ⟨log, _, b', hlog, -, hp⟩ := hr.publishes
    simp only at hlog hp
    rw [m.landed?_of_finished hs, hlog, told_append, progressOf_append,
      progressOf_of_heeds hp.heeds]
    rfl
  | _ =>
    rw [progressOf_of_heeds (h.heeds (by simp [hs]) hfresh)]
    simp [Member.landed?, hs]

/-- All that is reported of a platform is steady. -/
theorem Seen.steady (h : p.Seen a o fired id m) : ∀ entry ∈ told m.log, Steady entry := by
  obtain ⟨b, log, b', x, hc⟩ := h.exists_course
  obtain ⟨outcome, log₁, -, hlog, -, hp⟩ := p.tells_publishAndTell hc
  intro entry he
  have hmem : entry ∈ told (m.log ++ log) := by
    rw [told_append]
    exact List.mem_append_left _ he
  rw [hlog, told_append] at hmem
  rcases List.mem_append.1 hmem with hmem | hmem
  · exact steady_of_heeds (hp.heeds _ hmem)
  · rw [List.mem_singleton.1 hmem]
    exact steady_progress b' outcome

/-! ### A batch at work -/

variable (p a o)

/-- **What holds of a batch while it is at work**, whatever the company does: `new` is what
it has reported. -/
structure Works (batch : List String) (new : List (Bool × Event)) (c : Company Outcome) :
    Prop where
  seen : List.Forall₂ (p.Seen a o c.fired) batch c.members
  /-- Each outcome is told in the step in which its platform ends. -/
  settled : ∀ m ∈ c.members, progressOf (told m.log) = (m.landed?.map (·.2)).toList
  /-- What is recorded is what has become of the platforms that have ended. -/
  ended : c.ended.Perm (c.members.filterMap Member.landed?)
  /-- The outcomes are told in the order in which they are recorded. -/
  progress : progressOf new = c.ended.map (·.2)
  steady : ∀ entry ∈ new, Steady entry
  logged : ∀ m ∈ c.members, told m.log ⊆ new

variable {p a o} {batch : List String} {new : List (Bool × Event)} {c c' : Company Outcome}

theorem works_start (fired : Bool) (journal : List (Bool × Event)) (batch : List String) :
    p.Works a o batch [] (Company.start fired journal (batch.map (p.publishAndTell a o))) := by
  refine ⟨?_, fun m hm => ?_, Company.ended_perm_start _ _ _, rfl, List.forall_mem_nil _,
    fun m hm => ?_⟩
  · rw [Company.start, List.map_map, List.forall₂_map_right_iff, List.forall₂_same]
    exact fun id _ => Company.follows_fresh fired _
  · rw [(Company.eq_of_mem_start hm).1, (Company.eq_of_mem_start hm).2]
    rfl
  · rw [(Company.eq_of_mem_start hm).1]
    exact List.nil_subset _

/-- Each member is a platform of the batch. -/
theorem Works.exists_seen (h : p.Works a o batch new c) (hm : m ∈ c.members) :
    ∃ id ∈ batch, p.Seen a o c.fired id m := by
  obtain ⟨i, hi, rfl⟩ := List.getElem_of_mem hm
  have hib : i < batch.length := h.seen.length_eq ▸ hi
  exact ⟨batch[i], List.getElem_mem hib, h.seen.get hib hi⟩

/-- **A batch at work stays one**, and what it reports meanwhile is marked with whether the
cancellation has fired. -/
theorem works_of_move (h : p.Works a o batch new c) (hm : Company.Move c c') :
    ∃ more, c'.journal = c.journal ++ more ∧ (∀ entry ∈ more, entry.1 = c.fired) ∧
      p.Works a o batch (new ++ more) c' := by
  have hseen := Company.follows_of_move hm (List.forall₂_map_left_iff.2 h.seen)
  rw [List.forall₂_map_left_iff] at hseen
  have hended := Company.ended_perm_of_move hm h.ended
  cases hm with
  | fire =>
    refine ⟨[], (List.append_nil _).symm, List.forall_mem_nil _, ?_⟩
    rw [List.append_nil]
    exact ⟨hseen, h.settled, hended, h.progress, h.steady, h.logged⟩
  | @go i m acts q hm hw =>
    -- the member after it has gone on, and what it has reported meanwhile
    generalize hst : (q.poll c.fired).2 = st at hseen hended ⊢
    generalize hacts : acts ++ (q.poll c.fired).1 = acts' at hseen hended ⊢
    have hfresh : ∀ q, st ≠ .fresh q := hst ▸ poll_ne_fresh q c.fired
    let m' : Member Outcome := ⟨m.log ++ stamp c.fired acts', st⟩
    have hmem : m ∈ c.members := List.mem_of_getElem? hm
    have hi : i < (c.seat i m acts' st).members.length := by
      simpa [Company.seat] using (List.getElem?_eq_some_iff.1 hm).1
    have hib : i < batch.length := hseen.length_eq ▸ hi
    have hm' : p.Seen a o c.fired batch[i] m' := by
      simpa [Company.seat] using hseen.get hib hi
    have hsettled := hm'.settled hfresh
    -- it has told no outcome before
    have hquiet : progressOf (told m.log) = [] := by
      rw [h.settled m hmem, Member.landed?_of_wakes hw]
      rfl
    refine ⟨told (stamp c.fired acts'), rfl, fun entry => fired_of_mem_told_stamp,
      ⟨hseen, ?_, hended, ?_, ?_, ?_⟩⟩
    · intro n hn
      rcases List.mem_or_eq_of_mem_set hn with hn | rfl
      · exact h.settled n hn
      · exact hsettled
    · rw [progressOf_append, h.progress]
      rw [told_append, progressOf_append, hquiet, List.nil_append] at hsettled
      rw [hsettled, Company.seat, List.map_append, Option.toList_map]
    · intro entry he
      rcases List.mem_append.1 he with he | he
      · exact h.steady entry he
      · refine hm'.steady entry ?_
        rw [told_append]
        exact List.mem_append_right _ he
    · intro n hn
      rcases List.mem_or_eq_of_mem_set hn with hn | rfl
      · exact List.Subset.trans (h.logged n hn) (List.subset_append_left _ _)
      · rw [told_append]
        refine List.append_subset.2 ⟨?_, List.subset_append_right _ _⟩
        exact List.Subset.trans (h.logged m hmem) (List.subset_append_left _ _)

/-! ### What is recorded -/

/-- A platform that has ended has a record. -/
theorem Seen.recorded_of_landed {record : List Entry × Outcome} (h : p.Seen a o fired id m)
    (hr : m.landed? = some record) : p.Recorded a o id record := by
  obtain ⟨hlog, hs⟩ := m.landed?_eq_some_iff.1 hr
  obtain ⟨outcome, hv, hrec⟩ := h.recorded hs
  cases hv
  rw [← hlog] at hrec
  exact hrec

/-- **What is recorded of a platform** is what has become of it, and all that it has reported
is among what the batch has. -/
theorem Works.recorded_of_mem {record : List Entry × Outcome} (h : p.Works a o batch new c)
    (hr : record ∈ c.ended) : (∃ id ∈ batch, p.Recorded a o id record) ∧ told record.1 ⊆ new := by
  obtain ⟨m, hm, hl⟩ := List.mem_filterMap.1 (h.ended.mem_iff.1 hr)
  obtain ⟨id, hid, hseen⟩ := h.exists_seen hm
  refine ⟨⟨id, hid, hseen.recorded_of_landed hl⟩, ?_⟩
  rw [(m.landed?_eq_some_iff.1 hl).1]
  exact h.logged m hm

/-- Each platform of the batch has one record at most. -/
theorem Works.ended_subperm (h : p.Works a o batch new c) :
    (c.ended.map (·.2.platform)).Subperm batch := by
  refine (h.ended.map _).subperm.trans (List.Sublist.subperm ?_)
  -- platform by platform: those that have not ended are left out
  have hseen := h.seen
  generalize c.members = members at hseen
  clear h
  induction hseen with
  | nil => exact List.Sublist.refl _
  | @cons id m batch members hm _ ih =>
    cases hl : m.landed? with
    | none =>
      rw [List.filterMap_cons_none hl]
      exact ih.cons _
    | some record =>
      rw [List.filterMap_cons_some hl, List.map_cons, (hm.recorded_of_landed hl).platform]
      exact ih.cons_cons _

/-- **A batch that has ended has recorded each of its platforms once.** -/
theorem Works.ended_perm (h : p.Works a o batch new c) (hfin : c.IsFinished) :
    (c.ended.map (·.2.platform)).Perm batch := by
  -- there are as many records as platforms
  refine h.ended_subperm.perm_of_length_le ?_
  have hl : ∀ m ∈ c.members, m.landed?.isSome := by
    intro m hm
    obtain ⟨id, -, hseen⟩ := h.exists_seen hm
    obtain ⟨x, hx⟩ := hfin m hm
    obtain ⟨outcome, rfl, -⟩ := hseen.recorded hx
    rw [m.landed?_of_finished hx]
    rfl
  have hlen : (c.members.filterMap Member.landed?).length = c.members.length :=
    List.filterMap_length_eq_length.2 hl
  rw [h.seen.length_eq, List.length_map, h.ended.length_eq, hlen]

end Publisher

end Syndication
