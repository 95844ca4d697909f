import Mathlib.Data.List.Forall2
import Mathlib.Logic.Relation
import Syndication.Proofs.Program.Course

/-!
# Programs in company

Programs that run side by side, with everything left open that the outside decides: which of
the programs that can go on does so next, what a transport replies and when, and at which
wait the cancellation fires. A program that goes on runs to its next wait; nothing happens
to the others meanwhile.

A *company* holds the programs where they stand, the journal of what all of them report, and
the values with which they have ended, in the order in which they did. The clock of
`Batch.step?` decides everything that is open here, so its runs are among those of a company
(`Proofs/Program/Realised.lean`).

* `course_of_poll`: running to the next wait is the beginning of a course.
* `Company.follows_of_reaches`: what has been seen of a program in company is the beginning
  of a course of it, and if the program has ended, a whole one.
* `Company.ended_perm`: the values in the order of their coming are those of the programs
  that have ended with one.
-/

namespace Syndication

variable {α : Type}

/-- What is seen at one moment. -/
def stamp (fired : Bool) (acts : List Act) : List Entry :=
  acts.map (⟨fired, ·⟩)

@[simp] theorem stamp_nil (fired : Bool) : stamp fired [] = [] := rfl

@[simp] theorem stamp_cons (fired : Bool) (act : Act) (acts : List Act) :
    stamp fired (act :: acts) = ⟨fired, act⟩ :: stamp fired acts := rfl

@[simp] theorem stamp_append (fired : Bool) (acts acts' : List Act) :
    stamp fired (acts ++ acts') = stamp fired acts ++ stamp fired acts' :=
  List.map_append

/-- What is reported at one moment is marked with whether the cancellation had fired. -/
theorem fired_of_mem_told_stamp {fired : Bool} {acts : List Act} {entry : Bool × Event}
    (h : entry ∈ told (stamp fired acts)) : entry.1 = fired := by
  obtain ⟨b, e⟩ := entry
  obtain ⟨act, -, he⟩ := List.mem_map.1 ((mem_told _ _).1 h)
  cases he
  rfl

/-- Where a program stands when it is not running. -/
inductive Stance (α : Type) where
  /-- It has not begun. -/
  | fresh (p : Program α)
  /-- It waits for a reply. -/
  | receives (next : Reply → Program α)
  /-- It waits for a reply or a cancellation. -/
  | receivesOr (onCancel : Program α) (next : Reply → Program α)
  /-- It sleeps. -/
  | sleeps (next : Program α)
  /-- It sleeps unless a cancellation wakes it. -/
  | sleepsOr (onCancel next : Program α)
  /-- It has ended. -/
  | finished (x : Ending α)

namespace Stance

/-- Whether the program has ended. -/
def isFinished : Stance α → Bool
  | finished _ => true
  | _ => false

/-- `st.Wakes fired acts p`: a program that stands at `st` may go on as `p`, after `acts`. -/
inductive Wakes (fired : Bool) : Stance α → List Act → Program α → Prop where
  | fresh (p : Program α) : Wakes fired (.fresh p) [] p
  | receives (next : Reply → Program α) (reply : Reply) :
    Wakes fired (.receives next) [.receive reply] (next reply)
  | receivesOr (onCancel : Program α) (next : Reply → Program α) (reply : Reply) :
    Wakes fired (.receivesOr onCancel next) [.receive reply] (next reply)
  | receivesCut (onCancel : Program α) (next : Reply → Program α) (h : fired = true) :
    Wakes fired (.receivesOr onCancel next) [.cut] onCancel
  | sleeps (next : Program α) : Wakes fired (.sleeps next) [.wake] next
  | sleepsOr (onCancel next : Program α) :
    Wakes fired (.sleepsOr onCancel next) [.wake] next
  | sleepsCut (onCancel next : Program α) (h : fired = true) :
    Wakes fired (.sleepsOr onCancel next) [.cut] onCancel

/-- A program that may go on may still do so once the cancellation has fired. -/
theorem Wakes.mono {fired fired' : Bool} {st : Stance α} {acts : List Act} {p : Program α}
    (h : st.Wakes fired acts p) (hf : fired ≤ fired') : st.Wakes fired' acts p := by
  cases h with
  | fresh => exact .fresh _
  | receives => exact .receives _ _
  | receivesOr => exact .receivesOr _ _ _
  | receivesCut _ _ h => exact .receivesCut _ _ (hf h)
  | sleeps => exact .sleeps _
  | sleepsOr => exact .sleepsOr _ _
  | sleepsCut _ _ h => exact .sleepsCut _ _ (hf h)

/-- Nothing is reported while a wait ends. -/
theorem told_of_wakes {fired : Bool} {st : Stance α} {acts : List Act} {p : Program α}
    (h : st.Wakes fired acts p) (b : Bool) : told (stamp b acts) = [] := by
  cases h <;> rfl

/-- A program that has not ended may go on. -/
theorem exists_wakes {st : Stance α} (fired : Bool) (h : ∀ x, st ≠ .finished x) :
    ∃ acts p, st.Wakes fired acts p := by
  cases st with
  | fresh p => exact ⟨_, _, .fresh p⟩
  | receives next => exact ⟨_, _, .receives next (.fault none)⟩
  | receivesOr onCancel next => exact ⟨_, _, .receivesOr onCancel next (.fault none)⟩
  | sleeps next => exact ⟨_, _, .sleeps next⟩
  | sleepsOr onCancel next => exact ⟨_, _, .sleepsOr onCancel next⟩
  | finished x => exact absurd rfl (h x)

/-- `st.Leads fired ends`: every way on from `st`, of whatever the company does meanwhile,
ends as `ends` says of what is then seen. -/
structure Leads (st : Stance α) (fired : Bool) (ends : List Entry → Bool → Ending α → Prop) :
    Prop where
  /-- A program that has ended shows nothing more. -/
  finished : ∀ x, st = .finished x → ∃ b' ≤ fired, ends [] b' x
  /-- A program that goes on follows one of its courses. -/
  on : ∀ {b₁ : Bool} {acts : List Act} {p : Program α} {log : List Entry} {b' : Bool}
    {x : Ending α}, fired ≤ b₁ → st.Wakes b₁ acts p → p.Course b₁ log b' x →
    ends (stamp b₁ acts ++ log) b' x

theorem Leads.mono {st : Stance α} {fired fired' : Bool}
    {ends ends' : List Entry → Bool → Ending α → Prop} (h : st.Leads fired ends)
    (hf : fired ≤ fired') (he : ∀ log b' x, ends log b' x → ends' log b' x) :
    st.Leads fired' ends' where
  finished x hx := (h.finished x hx).imp fun _ hb => ⟨hb.1.trans hf, he _ _ _ hb.2⟩
  on hb hw hc := he _ _ _ (h.on (hf.trans hb) hw hc)

end Stance

/-! ### Running to the next wait -/

/-- Runs a program to its next wait or its end: what is seen of it, and where it stands. -/
def Program.poll (fired : Bool) : Program α → List Act × Stance α
  | .done a => ([], .finished (.value a))
  | .fault text => ([], .finished (.fault text))
  | .report e next => (.report e :: (next.poll fired).1, (next.poll fired).2)
  | .ifCancelled next => (next fired).poll fired
  | .fetch r next => ([.send r], .receives next)
  | .fetchOr r onCancel next => ([.send r], .receivesOr onCancel next)
  | .sleep d next => ([.sleep d], .sleeps next)
  | .sleepOr d onCancel next => ([.sleep d], .sleepsOr onCancel next)
  | .watch next | .unwatch next => next.poll fired

/-- **Running to the next wait is the beginning of a course.** -/
theorem course_of_poll (p : Program α) (b : Bool) :
    (p.poll b).2.Leads b fun log b' x => p.Course b (stamp b (p.poll b).1 ++ log) b' x := by
  -- a wait is where the recursion of `poll` ends; what wakes it is the next node of a course
  induction p with
  | done a =>
    refine ⟨fun x hx => ?_, fun _ hw => by cases hw⟩
    cases hx
    exact ⟨b, le_rfl, .done⟩
  | fault text =>
    refine ⟨fun x hx => ?_, fun _ hw => by cases hw⟩
    cases hx
    exact ⟨b, le_rfl, .fault⟩
  | report e next ih => exact ih.mono le_rfl fun _ _ _ => .report
  | ifCancelled next ih => exact (ih b).mono le_rfl fun _ _ _ => .ifCancelled
  | fetch r next ih =>
    refine ⟨nofun, fun hb hw hc => ?_⟩
    cases hw with
    | receives _ reply => exact .fetch reply hb hc
  | fetchOr r onCancel next ihc ih =>
    refine ⟨nofun, fun hb hw hc => ?_⟩
    cases hw with
    | receivesOr _ _ reply => exact .fetchOr reply hb hc
    | receivesCut _ _ h =>
      subst h
      exact .fetchCut hc
  | sleep d next ih =>
    refine ⟨nofun, fun hb hw hc => ?_⟩
    cases hw with
    | sleeps => exact .sleep hb hc
  | sleepOr d onCancel next ihc ih =>
    refine ⟨nofun, fun hb hw hc => ?_⟩
    cases hw with
    | sleepsOr => exact .sleepOr hb hc
    | sleepsCut _ _ h =>
      subst h
      exact .sleepCut hc
  | watch next ih => exact ih.mono le_rfl fun _ _ _ => .watch
  | unwatch next ih => exact ih.mono le_rfl fun _ _ _ => .unwatch

/-- A program that has run has begun. -/
theorem poll_ne_fresh (p : Program α) (b : Bool) : ∀ q, (p.poll b).2 ≠ .fresh q := by
  induction p with
  | report e next ih => exact ih
  | ifCancelled next ih => exact ih b
  | watch next ih => exact ih
  | unwatch next ih => exact ih
  | _ => exact nofun

/-! ### Companies -/

/-- A program in company. -/
structure Member (α : Type) where
  /-- What has been seen of it. -/
  log : List Entry
  /-- Where it stands. -/
  stance : Stance α

/-- The value with which a member has ended, with what was seen of it. -/
def Member.landed? (m : Member α) : Option (List Entry × α) :=
  match m.stance with
  | .finished (.value a) => some (m.log, a)
  | _ => none

theorem Member.landed?_of_finished {m : Member α} {x : Ending α} (h : m.stance = .finished x) :
    m.landed? = x.value?.map (m.log, ·) := by
  cases x <;> simp [landed?, h, Ending.value?]

theorem Member.landed?_eq_some_iff {m : Member α} {record : List Entry × α} :
    m.landed? = some record ↔ record.1 = m.log ∧ m.stance = .finished (.value record.2) := by
  unfold landed?
  split
  · rename_i a hs
    rw [hs]
    refine ⟨fun h => ?_, fun h => ?_⟩
    · cases h
      exact ⟨rfl, rfl⟩
    · cases h.2
      rw [← h.1]
  · rename_i hs
    exact ⟨nofun, fun h => absurd h.2 (hs record.2)⟩

/-- A member that may go on has not ended. -/
theorem Member.landed?_of_wakes {m : Member α} {fired : Bool} {acts : List Act} {p : Program α}
    (h : m.stance.Wakes fired acts p) : m.landed? = none := by
  unfold landed?
  split
  · rename_i hs
    rw [hs] at h
    cases h
  · rfl

/-- Programs that run side by side. -/
structure Company (α : Type) where
  /-- Whether the cancellation has fired. -/
  fired : Bool
  /-- What has been reported, in order. -/
  journal : List (Bool × Event)
  /-- The programs. -/
  members : List (Member α)
  /-- The values with which programs have ended, in the order in which they did, each with
  what was seen of its program. -/
  ended : List (List Entry × α)

namespace Company

/-- The company at the beginning of some programs. -/
def start (fired : Bool) (journal : List (Bool × Event)) (programs : List (Program α)) :
    Company α :=
  ⟨fired, journal, programs.map fun p => ⟨[], .fresh p⟩, []⟩

/-- The company in which member `i` has shown some more and stands elsewhere. -/
def seat (c : Company α) (i : Nat) (m : Member α) (acts : List Act) (st : Stance α) :
    Company α :=
  let m' : Member α := ⟨m.log ++ stamp c.fired acts, st⟩
  { c with
    journal := c.journal ++ told (stamp c.fired acts)
    members := c.members.set i m'
    ended := c.ended ++ m'.landed?.toList }

/-- **What may happen in a company.** -/
inductive Move : Company α → Company α → Prop where
  /-- The cancellation fires while every program waits. -/
  | fire (c : Company α) : Move c { c with fired := true }
  /-- A program goes on and runs to its next wait or its end. -/
  | go (c : Company α) {i : Nat} {m : Member α} {acts : List Act} {p : Program α}
    (hm : c.members[i]? = some m) (hw : m.stance.Wakes c.fired acts p) :
    Move c (c.seat i m (acts ++ (p.poll c.fired).1) (p.poll c.fired).2)

/-- What a company may come to. -/
def Reaches : Company α → Company α → Prop :=
  Relation.ReflTransGen Move

/-- Every member of the company has ended. -/
def IsFinished (c : Company α) : Prop :=
  ∀ m ∈ c.members, ∃ x, m.stance = .finished x

/-- The firing is never taken back. -/
theorem fired_le_of_reaches {c c' : Company α} (h : Reaches c c') : c.fired ≤ c'.fired := by
  induction h with
  | refl => exact le_rfl
  | tail _ hm ih =>
    refine ih.trans ?_
    cases hm with
    | fire => exact Bool.le_true _
    | go => exact le_rfl

/-- What is recorded stays as it is. -/
theorem ended_prefix_of_move {c c' : Company α} (h : Move c c') : c.ended <+: c'.ended := by
  cases h with
  | fire => exact List.prefix_refl _
  | go => exact List.prefix_append _ _

/-- The cancellation may fire, or not, while every program waits. -/
theorem reaches_fired {c : Company α} {fired : Bool} (h : c.fired ≤ fired) :
    Reaches c { c with fired } := by
  cases fired with
  | true => exact .single (.fire c)
  | false =>
    obtain ⟨b, journal, members, ended⟩ := c
    obtain rfl : b = false := Bool.eq_false_of_le_false h
    exact .refl

/-! ### What is seen of a member -/

/-- What has been seen of a member is the beginning of a course of its program. -/
def Follows (fired : Bool) (p : Program α) (m : Member α) : Prop :=
  m.stance.Leads fired fun log b' x => ∃ b, p.Course b (m.log ++ log) b' x

theorem follows_fresh (fired : Bool) (p : Program α) :
    Follows fired p (⟨[], .fresh p⟩ : Member α) := by
  refine ⟨nofun, fun _ hw hc => ?_⟩
  cases hw
  exact ⟨_, hc⟩

/-- A member that goes on keeps to a course of its program. -/
theorem Follows.go {fired : Bool} {p q : Program α} {m : Member α} {acts : List Act}
    (h : Follows fired p m) (hw : m.stance.Wakes fired acts q) :
    Follows fired p
      ⟨m.log ++ stamp fired (acts ++ (q.poll fired).1), (q.poll fired).2⟩ := by
  refine (course_of_poll q fired).mono le_rfl fun log b' x hc => ?_
  obtain ⟨b, hb⟩ := h.on le_rfl hw hc
  exact ⟨b, by simpa [List.append_assoc] using hb⟩

/-- Everyone in a company keeps to a course of a program. -/
theorem follows_of_move {c c' : Company α} {programs : List (Program α)}
    (hm : Move c c') (h : List.Forall₂ (Follows c.fired) programs c.members) :
    List.Forall₂ (Follows c'.fired) programs c'.members := by
  cases hm with
  | fire => exact h.imp fun _ _ hf => hf.mono (Bool.le_true _) fun _ _ _ => id
  | @go i m acts q hm hw =>
    -- place by place: only the one of the member that has gone on is new
    refine List.forall₂_iff_get.2 ⟨by simpa [seat] using h.length_eq, fun j hj hj' => ?_⟩
    obtain ⟨hlen, hget⟩ := List.forall₂_iff_get.1 h
    have hjm : j < c.members.length := by simpa [seat] using hj'
    by_cases hij : i = j
    · subst hij
      have hmi : c.members.get ⟨i, hjm⟩ = m := by
        rw [List.getElem?_eq_getElem hjm, Option.some.injEq] at hm
        exact hm
      have hf := hget i hj hjm
      rw [hmi] at hf
      simpa [seat] using hf.go hw
    · simpa [seat, hij] using hget j hj hjm

/-- **What has been seen of a program in company is the beginning of a course of it.** -/
theorem follows_of_reaches {c c' : Company α} {programs : List (Program α)}
    (hr : Reaches c c') (h : List.Forall₂ (Follows c.fired) programs c.members) :
    List.Forall₂ (Follows c'.fired) programs c'.members := by
  induction hr with
  | refl => exact h
  | tail _ hm ih => exact follows_of_move hm ih

/-- What has been seen of a program can be completed to a course. -/
theorem Follows.exists_course {fired : Bool} {p : Program α} {m : Member α}
    (h : Follows fired p m) : ∃ b log b' x, p.Course b (m.log ++ log) b' x := by
  by_cases ho : ∃ x, m.stance = .finished x
  · obtain ⟨x, hx⟩ := ho
    obtain ⟨b', -, b, hc⟩ := h.finished x hx
    exact ⟨b, [], b', x, hc⟩
  · -- any way on will do
    obtain ⟨acts, q, hw⟩ := Stance.exists_wakes fired (by simpa using ho)
    obtain ⟨log, b', x, hq⟩ := Program.exists_course q fired
    obtain ⟨b, hc⟩ := h.on le_rfl hw hq
    exact ⟨b, stamp fired acts ++ log, b', x, hc⟩

/-! ### What is reported -/

/-- Someone alone in company reports all that is reported. -/
theorem journal_of_single {c c' : Company α} {m : Member α} (hr : Reaches c c')
    (hm : c.members = [m]) :
    ∃ m' log, c'.members = [m'] ∧ m'.log = m.log ++ log ∧ c'.journal = c.journal ++ told log := by
  induction hr with
  | refl => exact ⟨m, [], hm, by simp, by simp⟩
  | @tail c₁ _ _ hmove ih =>
    obtain ⟨m₁, log, hm₁, hlog, hj⟩ := ih
    cases hmove with
    | fire => exact ⟨m₁, log, hm₁, hlog, hj⟩
    | @go i m₂ acts p hm₂ hw =>
      rw [hm₁] at hm₂
      -- nobody else can have gone on
      obtain ⟨rfl, rfl⟩ : i = 0 ∧ m₁ = m₂ := by simpa [List.getElem?_singleton] using hm₂
      have hseat : (c₁.seat 0 m₁ (acts ++ (p.poll c₁.fired).1) (p.poll c₁.fired).2).members =
          [⟨m₁.log ++ stamp c₁.fired (acts ++ (p.poll c₁.fired).1), (p.poll c₁.fired).2⟩] := by
        rw [seat, hm₁]
        rfl
      refine ⟨_, log ++ stamp c₁.fired (acts ++ (p.poll c₁.fired).1), hseat, ?_, ?_⟩
      · rw [hlog, List.append_assoc]
      · rw [told_append, ← List.append_assoc, ← hj]
        rfl

/-! ### The values -/

/-- One more of what is left of a list when one of its items is exchanged. -/
theorem filterMap_set_perm {β γ : Type} {f : β → Option γ} {l : List β} {i : Nat} {a a' : β}
    (ha : l[i]? = some a) (hn : f a = none) :
    (l.filterMap f ++ (f a').toList).Perm ((l.set i a').filterMap f) := by
  induction l generalizing i with
  | nil => simp at ha
  | cons x rest ih =>
    cases i with
    | zero =>
      simp only [List.getElem?_cons_zero, Option.some.injEq] at ha
      subst ha
      -- nothing was left of the item, so all that is left of the new one is new
      rw [List.filterMap_cons_none hn, List.set_cons_zero]
      cases hf : f a' with
      | none => rw [List.filterMap_cons_none hf, Option.toList_none, List.append_nil]
      | some y =>
        rw [List.filterMap_cons_some hf, Option.toList_some]
        exact List.perm_append_singleton y _
    | succ i =>
      simp only [List.getElem?_cons_succ] at ha
      rw [List.set_cons_succ]
      cases hf : f x with
      | none => simpa [List.filterMap_cons_none hf] using ih ha
      | some y => simpa [List.filterMap_cons_some hf] using ih ha

theorem ended_perm_of_move {c c' : Company α} (hm : Move c c')
    (h : c.ended.Perm (c.members.filterMap Member.landed?)) :
    c'.ended.Perm (c'.members.filterMap Member.landed?) := by
  cases hm with
  | fire => exact h
  | @go i m acts q hm hw =>
    exact (h.append_right _).trans (filterMap_set_perm hm (Member.landed?_of_wakes hw))

/-- Nobody has shown anything at the beginning, and nobody has ended. -/
theorem eq_of_mem_start {fired : Bool} {journal : List (Bool × Event)}
    {programs : List (Program α)} {m : Member α} (hm : m ∈ (start fired journal programs).members) :
    m.log = [] ∧ m.landed? = none := by
  obtain ⟨p, -, rfl⟩ := List.mem_map.1 hm
  exact ⟨rfl, rfl⟩

theorem ended_perm_start (fired : Bool) (journal : List (Bool × Event))
    (programs : List (Program α)) :
    (start fired journal programs).ended.Perm
      ((start fired journal programs).members.filterMap Member.landed?) := by
  rw [List.filterMap_eq_nil_iff.2 fun m hm => (eq_of_mem_start hm).2]
  exact .refl _

/-- **The values in the order of their coming** are those of the members that have ended
with one. -/
theorem ended_perm {c c' : Company α} (hr : Reaches c c')
    (h : c.ended.Perm (c.members.filterMap Member.landed?)) :
    c'.ended.Perm (c'.members.filterMap Member.landed?) := by
  induction hr with
  | refl => exact h
  | tail _ hm ih => exact ended_perm_of_move hm ih

end Company

end Syndication
