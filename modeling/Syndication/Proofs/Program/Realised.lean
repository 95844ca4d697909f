import Syndication.Proofs.Program.Answers
import Syndication.Proofs.Program.Company
import Syndication.Schedule

/-!
# The clock keeps to a company

What the clock does with programs that run side by side is one of the things that may
happen in a company of them. So whatever holds of every company, of whatever the outside
decides, holds of the runs of `runAll` too. What the transport decides of it is the replies:
every one that is seen of a program, the transport has given to the request before it.

A turn of a program on the clock may be several moves of the company, since an answer that
is there at once is no wait for the clock. A wait that ends makes its program ready for a
turn and changes nothing in the company, which keeps open which program goes on.

* `exists_passes`: a turn of a program is some moves of its member.
* `exists_reaches_of_drain`: a batch that runs to its end is a company that does.
* `exists_company_of_runAll`, `exists_answered_course_of_run`: the same for the programs from
  their beginning, and for one program alone.
-/

namespace Syndication

variable {σ α : Type}

/-! ### Slots and stances -/

/-- The transport gives a reply to a request in one of its states. -/
def Transport.Gives (t : Transport σ) (r : Request) (reply : Reply) : Prop :=
  ∃ s, (t.deliver s r).1.reply = reply

/-- A member may go on as a program, and the transport has given what replies are seen of it
by then. -/
def Member.MayGo (m : Member α) (t : Transport σ) (fired : Bool) (p : Program α) : Prop :=
  ∃ acts, m.stance.Wakes fired acts p ∧ Answered t.Gives (actsOf m.log ++ acts)

theorem Member.MayGo.mono {m : Member α} {t : Transport σ} {fired fired' : Bool} {p : Program α}
    (h : m.MayGo t fired p) (hf : fired ≤ fired') : m.MayGo t fired' p :=
  h.imp fun _ hw => ⟨hw.1.mono hf, hw.2⟩

/-- `s.Stands t fired m`: the slot `s` of the clock is one for the member `m`. What the clock
has decided for the program is a way in which the member may go on. -/
def Slot.Stands (t : Transport σ) (fired : Bool) : Slot α → Member α → Prop
  | .finished, m => ∃ x, m.stance = .finished x
  | .ready _ q, m => m.MayGo t fired q
  | .waits _ _ next, m => m.MayGo t fired next
  | .waitsOr _ _ _ onCancel next, m => m.MayGo t fired next ∧ m.MayGo t true onCancel

namespace Slot.Stands

variable {t : Transport σ} {fired fired' : Bool} {s : Slot α} {m : Member α}

theorem mono (h : s.Stands t fired m) (hf : fired ≤ fired') : s.Stands t fired' m := by
  cases s with
  | finished => exact h
  | ready | waits => exact Member.MayGo.mono h hf
  | waitsOr => exact ⟨Member.MayGo.mono h.1 hf, h.2⟩

theorem awake (h : s.Stands t fired m) : s.awake.Stands t fired m := by
  cases s with
  | finished | ready | waits => exact h
  | waitsOr => exact h.1

theorem cancelled (h : s.Stands t true m) : s.cancelled.Stands t true m := by
  cases s with
  | finished | ready | waits => exact h
  | waitsOr => exact h.2

end Slot.Stands

/-! ### A turn of one program -/

@[simp] theorem World.journal_send (w : World σ) (t : Transport σ) (r : Request) :
    (w.send t r).2.journal = w.journal := rfl

theorem World.cancelled_le_send (w : World σ) (t : Transport σ) (r : Request) :
    w.cancelled ≤ (w.send t r).2.cancelled :=
  Bool.left_le_or _ _

namespace Company

@[simp] theorem actsOf_stamp (b : Bool) (acts : List Act) : actsOf (stamp b acts) = acts := by
  simp [actsOf, stamp, Function.comp_def]

/-- Member `i` of a company has had a turn, after which the clock has it at `halt` and the
world is `w`. -/
structure Passes (t : Transport σ) (c : Company α) (i : Nat) (halt : Halt α) (w : World σ)
    (c' : Company α) (m : Member α) : Prop where
  /-- The turn is some moves of the company. -/
  reaches : Reaches c c'
  fired : c'.fired = w.cancelled
  journal : c'.journal = w.journal
  /-- Only this member has moved. -/
  members : c'.members = c.members.set i m
  ended : c'.ended = c.ended ++ m.landed?.toList
  stands : (Slot.ofHalt halt).Stands t c'.fired m
  /-- The transport has given the replies that are seen of it. -/
  answered : Answered t.Gives (actsOf m.log)
  value : m.landed?.map (·.2) = halt.value?

/-- The company in which member `i` waits, and the cancellation has fired or not. -/
def await (c : Company α) (i : Nat) (m : Member α) (acts : List Act) (st : Stance α)
    (fired : Bool) : Company α :=
  { c.seat i m acts st with fired }

section Await

variable {t : Transport σ} {c : Company α} {i : Nat} {m : Member α} {acts : List Act}
  {st : Stance α} {b : Bool}

theorem reaches_await (hgo : Move c (c.seat i m acts st)) (hb : c.fired ≤ b) :
    Reaches c (c.await i m acts st b) :=
  (Relation.ReflTransGen.single hgo).trans (reaches_fired hb)

@[simp] theorem journal_await :
    (c.await i m acts st b).journal = c.journal ++ told (stamp c.fired acts) := rfl

theorem getElem?_await (hm : c.members[i]? = some m) :
    (c.await i m acts st b).members[i]? = some ⟨m.log ++ stamp c.fired acts, st⟩ := by
  have hi : i < c.members.length := (List.getElem?_eq_some_iff.1 hm).1
  simp [await, seat, hi]

/-- A member whose wait is finished goes on. -/
theorem move_await {acts' : List Act} {p : Program α} (hm : c.members[i]? = some m)
    (hw : st.Wakes b acts' p) :
    Move (c.await i m acts st b) ((c.await i m acts st b).seat i
      ⟨m.log ++ stamp c.fired acts, st⟩ (acts' ++ (p.poll b).1) (p.poll b).2) :=
  .go _ (getElem?_await hm) hw

/-- A turn that goes on after a wait that was none for the clock. -/
theorem exists_passes_after {halt : Halt α} {w : World σ} (hgo : Move c (c.seat i m acts st))
    (hst : st.isFinished = false) (hb : c.fired ≤ b)
    (h : ∃ c' m', (c.await i m acts st b).Passes t i halt w c' m') :
    ∃ c' m', c.Passes t i halt w c' m' := by
  obtain ⟨c', m', h⟩ := h
  refine ⟨c', m', (reaches_await hgo hb).trans h.reaches, h.fired, h.journal, ?_, ?_, h.stands,
    h.answered, h.value⟩
  · rw [h.members]
    simp [await, seat]
  · rw [h.ended]
    cases st with
    | finished x => cases hst
    | _ => simp [await, seat, Member.landed?]

/-- A turn that ends with a wait for the clock. -/
theorem passes_await {halt : Halt α} {w : World σ} (hgo : Move c (c.seat i m acts st))
    (hst : st.isFinished = false) (hb : c.fired ≤ w.cancelled)
    (hj : c.journal ++ told (stamp c.fired acts) = w.journal)
    (hs : (Slot.ofHalt halt).Stands t w.cancelled ⟨m.log ++ stamp c.fired acts, st⟩)
    (ha : Answered t.Gives (actsOf (m.log ++ stamp c.fired acts))) (hv : halt.value? = none) :
    c.Passes t i halt w (c.await i m acts st w.cancelled) ⟨m.log ++ stamp c.fired acts, st⟩ where
  reaches := reaches_await hgo hb
  fired := rfl
  journal := hj
  members := rfl
  ended := rfl
  stands := hs
  answered := ha
  value := by
    cases st with
    | finished x => cases hst
    | _ => simp [Member.landed?, hv]

/-- What is seen of a member that has shown one more. -/
theorem actsOf_await (log : List Entry) (acts : List Act) (act : Act) :
    actsOf (log ++ stamp b (acts ++ [act])) = actsOf log ++ acts ++ [act] := by
  rw [actsOf_append, actsOf_stamp, List.append_assoc]

/-- A member that begins to wait for something else than a reply. -/
theorem answered_await (ha : Answered t.Gives (actsOf m.log ++ acts)) (b : Bool) (act : Act)
    (hact : act.isReply = false) :
    Answered t.Gives (actsOf (m.log ++ stamp b (acts ++ [act]))) := by
  rw [actsOf_await]
  exact ha.concat act hact

/-- A member that waits for what the transport has given. -/
theorem answered_reply {w : World σ} {r : Request} (ha : Answered t.Gives (actsOf m.log ++ acts)) :
    Answered t.Gives (actsOf (m.log ++ stamp b (acts ++ [.send r])) ++
      [.receive (w.send t r).1.reply]) := by
  rw [actsOf_await]
  exact (ha.concat (.send r) rfl).concat_reply ⟨w.transport, rfl⟩

end Await

/-- **A turn of a program is some moves of its member.** The member has gone on and shown
`acts` since its last wait, and the rest of what it does until the next one is in `p`. -/
theorem exists_passes (t : Transport σ) (p : Program α) (ticket : Option Nat) {w : World σ}
    {c : Company α} {i : Nat} {m : Member α} {acts : List Act} (hf : c.fired = w.cancelled)
    (hj : c.journal ++ told (stamp c.fired acts) = w.journal)
    (hm : c.members[i]? = some m) (ha : Answered t.Gives (actsOf m.log ++ acts))
    (hgo : Move c (c.seat i m (acts ++ (p.poll c.fired).1) (p.poll c.fired).2)) :
    ∃ c' m', c.Passes t i (advance t p ticket w).1 (advance t p ticket w).2 c' m' := by
  -- the move `hgo` would end at the next wait; where the clock does not stop there, it is made
  -- and what is left is a turn of the member after it
  induction p generalizing ticket w c m acts with
  | done a =>
    simp only [Program.poll, List.append_nil] at hgo
    exact ⟨_, ⟨m.log ++ stamp c.fired acts, .finished (.value a)⟩, .single hgo, hf, hj, rfl, rfl,
      ⟨_, rfl⟩, by simpa using ha, rfl⟩
  | fault text =>
    simp only [Program.poll, List.append_nil] at hgo
    exact ⟨_, ⟨m.log ++ stamp c.fired acts, .finished (.fault text)⟩, .single hgo, hf, hj, rfl, rfl,
      ⟨_, rfl⟩, by simpa using ha, rfl⟩
  | report e next ih =>
    have hj' : c.journal ++ told (stamp c.fired (acts ++ [.report e])) = (w.report e).journal := by
      rw [stamp_append, told_append, ← List.append_assoc, hj, World.journal_report, ← hf]
      rfl
    have ha' : Answered t.Gives (actsOf m.log ++ (acts ++ [.report e])) := by
      rw [← List.append_assoc]
      exact ha.concat (.report e) rfl
    refine ih _ hf hj' hm ha' ?_
    rw [List.append_assoc]
    exact hgo
  | ifCancelled next ih =>
    rw [advance, ← hf]
    exact ih c.fired _ hf hj hm ha hgo
  | watch next ih => exact ih _ hf hj hm ha hgo
  | unwatch next ih => exact ih _ hf hj hm ha hgo
  | fetch r next ih =>
    change Move c (c.seat i m (acts ++ [.send r]) (.receives next)) at hgo
    have hb : c.fired ≤ (w.send t r).2.cancelled := hf.trans_le (w.cancelled_le_send t r)
    have hj' : c.journal ++ told (stamp c.fired (acts ++ [.send r])) =
        (w.send t r).2.journal := by simpa using hj
    simp only [advance]
    split
    · -- an answer that is there at once: one more move
      exact exists_passes_after hgo rfl hb
        (ih _ _ rfl (by simpa using hj') (getElem?_await hm) (answered_reply ha)
          (move_await hm (.receives next _)))
    · exact ⟨_, _, passes_await hgo rfl hb hj' ⟨_, .receives _ _, answered_reply ha⟩
        (answered_await ha _ (.send r) rfl) rfl⟩
  | fetchOr r onCancel next ihc ih =>
    change Move c (c.seat i m (acts ++ [.send r]) (.receivesOr onCancel next)) at hgo
    have hb : c.fired ≤ (w.send t r).2.cancelled := hf.trans_le (w.cancelled_le_send t r)
    have hj' : c.journal ++ told (stamp c.fired (acts ++ [.send r])) =
        (w.send t r).2.journal := by simpa using hj
    have hsend := answered_await ha c.fired (.send r) rfl
    simp only [advance]
    split
    · exact exists_passes_after hgo rfl hb
        (ih _ _ rfl (by simpa using hj') (getElem?_await hm) (answered_reply ha)
          (move_await hm (.receivesOr onCancel next _)))
    · -- at its place in the line or not, the wait has the same ways on
      cases ticket with
      | some place =>
        exact ⟨_, _, passes_await hgo rfl hb hj' ⟨⟨_, .receivesOr _ _ _, answered_reply ha⟩, _,
          .receivesCut _ _ rfl, hsend.concat .cut rfl⟩ hsend rfl⟩
      | none =>
        exact ⟨_, _, passes_await hgo rfl hb hj' ⟨⟨_, .receivesOr _ _ _, answered_reply ha⟩, _,
          .receivesCut _ _ rfl, hsend.concat .cut rfl⟩ hsend rfl⟩
  | sleep d next ih =>
    change Move c (c.seat i m (acts ++ [.sleep d]) (.sleeps next)) at hgo
    have hj' : c.journal ++ told (stamp c.fired (acts ++ [.sleep d])) = w.journal := by
      simpa using hj
    have hsleep := answered_await ha c.fired (.sleep d) rfl
    simp only [advance]
    split
    · exact exists_passes_after hgo rfl hf.le
        (ih _ rfl (by simpa using hj') (getElem?_await hm) (hsleep.concat .wake rfl)
          (move_await hm (.sleeps next)))
    · exact ⟨_, _, passes_await hgo rfl hf.le hj' ⟨_, .sleeps _, hsleep.concat .wake rfl⟩ hsleep
        rfl⟩
  | sleepOr d onCancel next ihc ih =>
    change Move c (c.seat i m (acts ++ [.sleep d]) (.sleepsOr onCancel next)) at hgo
    have hj' : c.journal ++ told (stamp c.fired (acts ++ [.sleep d])) = w.journal := by
      simpa using hj
    have hsleep := answered_await ha c.fired (.sleep d) rfl
    have hs : ∀ {place : Nat} {moment : Duration}, (Slot.waitsOr moment ticket place onCancel
        next).Stands t w.cancelled
          ⟨m.log ++ stamp c.fired (acts ++ [.sleep d]), .sleepsOr onCancel next⟩ :=
      ⟨⟨_, .sleepsOr _ _, hsleep.concat .wake rfl⟩, _, .sleepsCut _ _ rfl,
        hsleep.concat .cut rfl⟩
    simp only [advance]
    split
    · exact exists_passes_after hgo rfl hf.le
        (ih _ rfl (by simpa using hj') (getElem?_await hm) (hsleep.concat .wake rfl)
          (move_await hm (.sleepsOr onCancel next)))
    · cases ticket with
      | some place => exact ⟨_, _, passes_await hgo rfl hf.le hj' hs hsleep rfl⟩
      | none =>
        simp only
        split
        · -- too late for the clock to begin the wait: its end is one more move
          rename_i hw
          exact exists_passes_after hgo rfl hf.le
            (ihc _ rfl (by simpa using hj') (getElem?_await hm) (hsleep.concat .cut rfl)
              (move_await hm (.sleepsCut onCancel next hw)))
        · exact ⟨_, _, passes_await hgo rfl hf.le hj' hs hsleep rfl⟩

/-! ### Batches -/

/-- The clock has a batch where the company stands. -/
structure Tallies (t : Transport σ) (c : Company α) (b : Batch σ α) : Prop where
  fired : c.fired = b.world.cancelled
  journal : c.journal = b.world.journal
  length : c.members.length = b.slots.length
  stands : ∀ {i : Nat} {m : Member α} {s : Slot α},
    c.members[i]? = some m → b.slots[i]? = some s → s.Stands t c.fired m
  /-- The transport has given the replies that are seen. -/
  answered : ∀ m ∈ c.members, Answered t.Gives (actsOf m.log)
  /-- Whoever can go on has a turn to come. -/
  queued : ∀ {i : Nat} {ticket : Option Nat} {p : Program α},
    b.slots[i]? = some (.ready ticket p) → i ∈ b.queue

/-- The waits in the line are those of the slots that stand in it. -/
theorem mem_line {slots : List (Slot α)} {i : Nat} {s : Slot α} {place : Nat}
    (hs : slots[i]? = some s) (hp : s.place? = some place) : i ∈ Batch.line slots := by
  refine List.mem_map.2 ⟨(place, i), ?_, rfl⟩
  rw [List.mem_mergeSort]
  refine List.mem_filterMap.2 ⟨(s, i), ?_, by simp [hp]⟩
  exact List.mem_zipIdx_iff_getElem?.2 hs

/-- When the clock has no moment to move to, nobody waits for one. -/
theorem moment?_eq_none_of_earliest {slots : List (Slot α)} {i : Nat}
    (h : Batch.earliest i slots = none) {s : Slot α} (hs : s ∈ slots) : s.moment? = none := by
  induction slots generalizing i with
  | nil => cases hs
  | cons first rest ih =>
    have hfirst : first.moment? = none := by
      by_contra hne
      obtain ⟨moment, hm⟩ := Option.ne_none_iff_exists'.1 hne
      cases hr : Batch.earliest (i + 1) rest with
      | none => simp [Batch.earliest, hm, hr] at h
      | some best =>
        simp only [Batch.earliest, hm, hr] at h
        split at h <;> cases h
    rcases List.mem_cons.1 hs with rfl | hs
    · exact hfirst
    · refine ih (i := i + 1) ?_ hs
      simpa [Batch.earliest, hfirst] using h

namespace Tallies

variable {t : Transport σ} {c : Company α} {b : Batch σ α}

/-- The firing ends the waits in the line. -/
theorem endWaits (h : c.Tallies t b) (hf : c.fired = true) : c.Tallies t b.endWaits where
  fired := h.fired
  journal := h.journal
  length := by simpa [Batch.endWaits] using h.length
  stands {i m s} hm hs := by
    simp only [Batch.endWaits, List.getElem?_map, Option.map_eq_some_iff] at hs
    obtain ⟨s, hs, rfl⟩ := hs
    have hst := h.stands hm hs
    rw [hf] at hst ⊢
    exact hst.cancelled
  answered := h.answered
  queued {i ticket p} hs := by
    simp only [Batch.endWaits, List.getElem?_map, Option.map_eq_some_iff] at hs
    obtain ⟨s, hs, hc⟩ := hs
    refine List.mem_append.2 ?_
    cases s with
    | finished | waits => cases hc
    | ready ticket' q => exact .inl (h.queued hs)
    | waitsOr => exact .inr (mem_line hs rfl)

section Turn

variable {w w' : World σ} {c' : Company α} {m' : Member α} {i : Nat} {queue : List Nat}
  {halt : Halt α}

/-- A member that has had a turn stands where the clock has it, before the firing ends any
wait. -/
theorem pass (h : c.Tallies t b) (hp : c.Passes t i halt w c' m') (hq : b.queue = i :: queue)
    (hf : c'.fired ≤ w'.cancelled) (hj : w'.journal = w.journal) :
    Tallies t { c' with fired := w'.cancelled }
      (⟨w', queue, b.slots.set i (.ofHalt halt)⟩ : Batch σ α) where
  fired := rfl
  journal := hp.journal.trans hj.symm
  length := by simpa [hp.members] using h.length
  stands {j m s} hm hs := by
    simp only [hp.members, List.getElem?_set] at hm hs
    have hlen := h.length
    by_cases hij : i = j
    · simp only [hij, if_true] at hm hs
      split at hm
      · rw [if_pos (by omega)] at hs
        cases hm
        cases hs
        exact hp.stands.mono hf
      · cases hm
    · -- the others stand where they stood
      simp only [hij, if_false] at hm hs
      exact (h.stands hm hs).mono ((fired_le_of_reaches hp.reaches).trans hf)
  answered m hm := by
    rw [hp.members] at hm
    rcases List.mem_or_eq_of_mem_set hm with hm | rfl
    · exact h.answered m hm
    · exact hp.answered
  queued {j ticket p} hs := by
    simp only [List.getElem?_set] at hs
    by_cases hij : i = j
    · -- a turn goes on as far as it can, so no slot is ready after it
      simp only [hij, if_true] at hs
      split at hs
      · cases halt <;> cases hs
      · cases hs
    · simp only [hij, if_false] at hs
      have hmem := h.queued hs
      rw [hq] at hmem
      exact (List.mem_cons.1 hmem).resolve_left fun hji => hij hji.symm

/-- A member that has had a turn stands where the clock places it. -/
theorem place (h : c.Tallies t b) (hp : c.Passes t i halt w c' m') (hq : b.queue = i :: queue)
    (fires : Bool) :
    ∃ c'', Reaches c' c'' ∧ c''.Tallies t (b.place w queue i (.ofHalt halt) fires) ∧
      c''.ended = c'.ended := by
  unfold Batch.place
  generalize hw : (if fires = true then w.cancel else w) = w'
  have hf : c'.fired ≤ w'.cancelled := by
    rw [hp.fired, ← hw]
    cases fires
    · exact le_rfl
    · exact Bool.le_true _
  have hj : w'.journal = w.journal := by
    rw [← hw]
    cases fires <;> rfl
  refine ⟨_, reaches_fired hf, ?_, rfl⟩
  have hpass := h.pass hp hq hf hj
  simp only
  split
  · rename_i hc
    exact hpass.endWaits (Bool.and_eq_true_iff.1 hc).1
  · exact hpass

end Turn

/-- The clock moves to a moment for which a program waits. -/
theorem wake (h : c.Tallies t b) (hq : b.queue = []) (moment : Duration) (i : Nat) :
    c.Tallies t (b.wake moment i) where
  fired := h.fired
  journal := h.journal
  length := by simpa [Batch.wake] using h.length
  stands {j m s} hm hs := by
    simp only [Batch.wake, List.getElem?_modify, Option.map_eq_map, Option.map_eq_some_iff] at hs
    obtain ⟨s, hs, rfl⟩ := hs
    split
    · exact (h.stands hm hs).awake
    · exact h.stands hm hs
  answered := h.answered
  queued {j ticket p} hs := by
    simp only [Batch.wake, List.getElem?_modify, Option.map_eq_map, Option.map_eq_some_iff] at hs
    obtain ⟨s, hs, hr⟩ := hs
    by_cases hij : i = j
    · exact List.mem_singleton.2 hij.symm
    · -- the others were not ready before, since the queue was empty
      rw [if_neg hij] at hr
      have hmem := h.queued (hr ▸ hs)
      rw [hq] at hmem
      cases hmem

/-- The clock moves to the moment at which the cancellation fires. -/
theorem cancelNow (h : c.Tallies t b) (moment : Duration) :
    Tallies t { c with fired := true } (b.cancelNow moment) := by
  have hfired : Tallies t { c with fired := true }
      { b with world := { b.world with now := b.world.now.longer moment }.cancel } :=
    ⟨rfl, h.journal, h.length, fun hm hs => (h.stands hm hs).mono (Bool.le_true _), h.answered,
      h.queued⟩
  exact hfired.endWaits rfl

/-- The first in the queue has its turn. -/
theorem exists_reaches_of_runFirst (cancels : α → Bool) {i : Nat} {queue : List Nat}
    {ticket : Option Nat} {p : Program α} (h : c.Tallies t b)
    (hq : b.queue = i :: queue) (hi : b.slots[i]? = some (.ready ticket p)) :
    ∃ c', Reaches c c' ∧ c'.Tallies t (b.runFirst t cancels i queue ticket p).1 ∧
      c'.ended.map (·.2) =
        c.ended.map (·.2) ++ (b.runFirst t cancels i queue ticket p).2.toList := by
  have hlt : i < c.members.length := by
    rw [h.length]
    exact (List.getElem?_eq_some_iff.1 hi).1
  have hm : c.members[i]? = some c.members[i] := List.getElem?_eq_getElem hlt
  obtain ⟨acts, hw, ha⟩ := h.stands hm hi
  have hj : c.journal ++ told (stamp c.fired acts) = b.world.journal := by
    rw [Stance.told_of_wakes hw, List.append_nil, h.journal]
  obtain ⟨c₁, m₁, hp⟩ := exists_passes t p ticket h.fired hj hm ha (.go c hm hw)
  have hended : c₁.ended.map (·.2) = c.ended.map (·.2) ++
      (advance t p ticket b.world).1.value?.toList := by
    rw [hp.ended, List.map_append, ← hp.value, Option.toList_map]
  -- only a value may fire the cancellation
  have hrun : ∃ fires, b.runFirst t cancels i queue ticket p =
      (b.place (advance t p ticket b.world).2 queue i (.ofHalt (advance t p ticket b.world).1)
        fires, (advance t p ticket b.world).1.value?) := by
    unfold Batch.runFirst
    obtain ⟨halt, w⟩ := advance t p ticket b.world
    cases halt with
    | ended value => exact ⟨cancels value, rfl⟩
    | _ => exact ⟨false, rfl⟩
  obtain ⟨fires, hrun⟩ := hrun
  obtain ⟨c₂, hr, ht, he⟩ := h.place hp hq fires
  rw [hrun]
  exact ⟨c₂, hp.reaches.trans hr, ht, by rw [he, hended]⟩

/-- **A step of the clock is some moves of the company.** -/
theorem exists_reaches_of_step? {cancels : α → Bool} {b' : Batch σ α} {value : Option α}
    (h : c.Tallies t b) (hs : b.step? t cancels = some (b', value)) :
    ∃ c', Reaches c c' ∧ c'.Tallies t b' ∧
      c'.ended.map (·.2) = c.ended.map (·.2) ++ value.toList := by
  unfold Batch.step? at hs
  split at hs
  · rename_i i queue hq
    split at hs
    · -- the first in the queue has its turn
      rename_i ticket p hi
      rw [Option.some.injEq] at hs
      have hrun := h.exists_reaches_of_runFirst cancels hq hi
      rw [hs] at hrun
      exact hrun
    · -- it has ended meanwhile
      rename_i hi
      cases hs
      refine ⟨c, .refl, ⟨h.fired, h.journal, h.length, h.stands, h.answered, ?_⟩, by simp⟩
      intro j ticket p hj
      have hmem := h.queued hj
      rw [hq] at hmem
      refine (List.mem_cons.1 hmem).resolve_left fun hji => hi ticket p ?_
      rw [← hji]
      exact hj
  · -- the clock moves on: to the firing or to the end of a wait, whichever is first
    rename_i hq
    split at hs
    · cases hs
    · rename_i moment i _
      split at hs
      · rename_i at_ _
        split at hs
        · cases hs
          exact ⟨_, reaches_fired (Bool.le_true _), h.cancelNow _, by simp⟩
        · cases hs
          exact ⟨c, .refl, h.wake hq moment i, by simp⟩
      · cases hs
        exact ⟨c, .refl, h.wake hq moment i, by simp⟩

/-- When the clock has nothing more to do, everyone has ended. -/
theorem isFinished_of_step?_eq_none {cancels : α → Bool} (h : c.Tallies t b)
    (hs : b.step? t cancels = none) : c.IsFinished := by
  unfold Batch.step? at hs
  split at hs
  · split at hs <;> cases hs
  · rename_i hq
    split at hs
    · rename_i he
      intro m hm
      obtain ⟨i, hi, rfl⟩ := List.getElem_of_mem hm
      have hlt : i < b.slots.length := h.length ▸ hi
      have hst := h.stands (List.getElem?_eq_getElem hi) (List.getElem?_eq_getElem hlt)
      cases hslot : b.slots[i] with
      | finished =>
        rw [hslot] at hst
        exact hst
      | ready ticket p =>
        -- nobody is left in the queue
        have hmem := h.queued (List.getElem?_eq_some_iff.2 ⟨hlt, hslot⟩)
        rw [hq] at hmem
        cases hmem
      | waits moment ticket next =>
        -- nobody waits for a moment
        have hnone := moment?_eq_none_of_earliest he (List.getElem_mem hlt)
        rw [hslot] at hnone
        cases hnone
      | waitsOr moment ticket place onCancel next =>
        have hnone := moment?_eq_none_of_earliest he (List.getElem_mem hlt)
        rw [hslot] at hnone
        cases hnone
    · split at hs
      · split at hs <;> cases hs
      · cases hs

end Tallies

/-- **A batch that runs to its end is a company that does.** -/
theorem exists_reaches_of_drain {t : Transport σ} {cancels : α → Bool} {b : Batch σ α}
    {c : Company α} (h : c.Tallies t b) :
    ∃ c', Reaches c c' ∧ c'.IsFinished ∧ (∀ m ∈ c'.members, Answered t.Gives (actsOf m.log)) ∧
      c'.fired = (b.drain t cancels).2.cancelled ∧
      c'.journal = (b.drain t cancels).2.journal ∧
      c'.ended.map (·.2) = c.ended.map (·.2) ++ (b.drain t cancels).1.map (·.2) := by
  -- one step of the clock at a time, as `drain` itself goes
  induction b using Batch.drain.induct t cancels generalizing c with
  | case1 b hs =>
    rw [Batch.drain_of_step?_eq_none hs]
    exact ⟨c, .refl, h.isFinished_of_step?_eq_none hs, h.answered, h.fired, h.journal, by simp⟩
  | case2 b b' value hs values w hd ih =>
    obtain ⟨c₁, hr₁, ht, he⟩ := h.exists_reaches_of_step? hs
    obtain ⟨c', hr, hfin, ha, hf, hj, he'⟩ := ih ht
    rw [Batch.drain_of_step?_eq_some hs, hd]
    rw [hd] at hf hj he'
    refine ⟨c', hr₁.trans hr, hfin, ha, hf, hj, ?_⟩
    rw [he', he, List.append_assoc, List.map_append]
    cases value <;> rfl

/-! ### Runs from the beginning -/

theorem tallies_start (t : Transport σ) (w : World σ) (programs : List (Program α)) :
    (start w.cancelled w.journal programs).Tallies t (Batch.start w programs) where
  fired := rfl
  journal := rfl
  length := by simp [start, Batch.start]
  stands {i m s} hm hs := by
    simp only [start, Batch.start, List.getElem?_map, Option.map_eq_some_iff] at hm hs
    obtain ⟨p, hp, rfl⟩ := hm
    obtain ⟨q, hq, rfl⟩ := hs
    rw [hp] at hq
    cases hq
    exact ⟨[], .fresh p, .nil⟩
  answered m hm := by
    obtain ⟨p, -, rfl⟩ := List.mem_map.1 hm
    exact .nil
  queued {i ticket p} hs := by
    simp only [Batch.start, List.getElem?_map, Option.map_eq_some_iff] at hs
    obtain ⟨q, hq, -⟩ := hs
    exact List.mem_range.2 (List.getElem?_eq_some_iff.1 hq).1

/-- **Programs that are run side by side are a company** that goes on until everyone has
ended, with the replies that the transport gives. -/
theorem exists_company_of_runAll (t : Transport σ) (cancels : α → Bool) (w : World σ)
    (programs : List (Program α)) :
    ∃ c, Reaches (start w.cancelled w.journal programs) c ∧ c.IsFinished ∧
      (∀ m ∈ c.members, Answered t.Gives (actsOf m.log)) ∧
      c.fired = (runAll t cancels w programs).2.cancelled ∧
      c.journal = (runAll t cancels w programs).2.journal ∧
      c.ended.map (·.2) = (runAll t cancels w programs).1.map (·.2) :=
  exists_reaches_of_drain (tallies_start t w programs)

/-- **A program that is run alone** goes one of its courses, with the replies that the transport
gives. The cancellation has not fired by the end of the course unless it has by that of the
run. -/
theorem exists_answered_course_of_run (t : Transport σ) (w : World σ) (p : Program α) :
    ∃ b log b' x, p.Course b log b' x ∧ Answered t.Gives (actsOf log) ∧
      b' ≤ (run t w p).2.cancelled ∧ (run t w p).1 = x.value? ∧
      (run t w p).2.journal = w.journal ++ told log := by
  obtain ⟨c, hr, hfin, ha, hfired, hj, he⟩ := exists_company_of_runAll t (fun _ => false) w [p]
  obtain ⟨m, log, hm, hlog, hj'⟩ := journal_of_single hr rfl
  have hf := follows_of_reaches hr (List.Forall₂.cons (follows_fresh w.cancelled p) .nil)
  rw [hm] at hf
  have hmem : m ∈ c.members := hm ▸ List.mem_singleton_self m
  obtain ⟨x, hx⟩ := hfin m hmem
  obtain ⟨b', hb', b, hc⟩ := (List.forall₂_cons.1 hf).1.finished x hx
  -- one program has one value at most, so its order does not matter
  have hended : c.ended = (x.value?.map (m.log, ·)).toList := by
    have hp := ended_perm hr (.refl _)
    rw [hm] at hp
    cases x <;> simpa [List.filterMap_cons, m.landed?_of_finished hx, Ending.value?] using hp
  have ha' := ha m hmem
  rw [hlog, List.nil_append] at ha'
  refine ⟨b, log, b', x, by simpa [hlog] using hc, ha', hb'.trans hfired.le, ?_, hj ▸ hj'⟩
  calc (run t w p).1 = ((runAll t (fun _ => false) w [p]).1.map (·.2)).head? := by
        rw [List.head?_map]
        rfl
    _ = (c.ended.map (·.2)).head? := by rw [he]
    _ = x.value? := by rw [hended]; cases x <;> rfl

/-- A program that is run alone goes one of its courses. -/
theorem exists_course_of_run (t : Transport σ) (w : World σ) (p : Program α) :
    ∃ b log b' x, p.Course b log b' x ∧ (run t w p).1 = x.value? ∧
      (run t w p).2.journal = w.journal ++ told log := by
  obtain ⟨b, log, b', x, hc, -, -, h⟩ := exists_answered_course_of_run t w p
  exact ⟨b, log, b', x, hc, h⟩

end Company

end Syndication
