import Mathlib.Order.BooleanAlgebra.Basic
import Syndication.Program

/-!
# Courses of programs

A program is a tree, and what comes back from outside chooses the branch. A *course* is
one way through the tree from its root to an end, read from outside: what the program
reports, sends, receives and sleeps, in order, and how it ends. Nothing is assumed about
the outside, so a statement about every course holds of every transport and of every
company in which the program may run.

Each entry of a course says whether the cancellation had fired. The firing is never taken
back, and it is noticed at the waits alone: while a program runs from one wait to the next
nothing else happens.

* `course_graft`: a course of a program whose ends are gone on with is a course of it and
  one of what goes on from its end. A program after another (`course_bind`) and a program
  whose faults are caught (`course_catchFault`) are of this kind.
* `shows_of_reports`: what is reported in a course is what the program may report.
* `exists_course`: every program has a course, so none is stuck.
* `course_interruptible`: a silent program that a cancellation may end goes one of its courses, or
  is cut.
-/

namespace Syndication

/-- What is seen of a program from outside. -/
inductive Act where
  /-- It reports an event. -/
  | report (event : Event)
  /-- It sends a request. -/
  | send (request : Request)
  /-- The reply to its request arrives. -/
  | receive (reply : Reply)
  /-- It begins to sleep. -/
  | sleep (d : Duration)
  /-- It has slept. -/
  | wake
  /-- Its wait is ended by the cancellation. -/
  | cut
deriving DecidableEq, Repr

/-- Something that is seen, with whether the cancellation had fired. -/
structure Entry where
  /-- Whether the cancellation had fired. -/
  fired : Bool
  /-- What is seen. -/
  act : Act
deriving DecidableEq, Repr

/-- The event that an entry reports, with whether the cancellation had fired. -/
def Entry.event? (e : Entry) : Option (Bool × Event) :=
  match e.act with
  | .report event => some (e.fired, event)
  | _ => none

/-- What is reported in a course. -/
def told (log : List Entry) : List (Bool × Event) :=
  log.filterMap Entry.event?

section Told

variable (b : Bool) (log log' : List Entry)

@[simp] theorem told_nil : told [] = [] := rfl

@[simp] theorem told_report (e : Event) : told (⟨b, .report e⟩ :: log) = (b, e) :: told log := rfl

@[simp] theorem told_send (r : Request) : told (⟨b, .send r⟩ :: log) = told log := rfl

@[simp] theorem told_receive (r : Reply) : told (⟨b, .receive r⟩ :: log) = told log := rfl

@[simp] theorem told_sleep (d : Duration) : told (⟨b, .sleep d⟩ :: log) = told log := rfl

@[simp] theorem told_wake : told (⟨b, .wake⟩ :: log) = told log := rfl

@[simp] theorem told_cut : told (⟨b, .cut⟩ :: log) = told log := rfl

theorem mem_told {e : Event} : (b, e) ∈ told log ↔ ⟨b, .report e⟩ ∈ log := by
  refine List.mem_filterMap.trans ⟨?_, fun h => ⟨_, h, rfl⟩⟩
  rintro ⟨⟨b', act⟩, h, he⟩
  cases act with
  | report e' =>
    cases he
    exact h
  | _ => cases he

@[simp] theorem told_append : told (log ++ log') = told log ++ told log' :=
  List.filterMap_append

end Told

/-- How a program ends. -/
inductive Ending (α : Type) where
  /-- With a value. -/
  | value (a : α)
  /-- With a fault, with its text if it has one. -/
  | fault (text : Option String)
deriving DecidableEq, Repr

/-- The value with which a program has ended. -/
def Ending.value? {α : Type} : Ending α → Option α
  | .value a => some a
  | .fault _ => none

namespace Program

variable {α β : Type}

/-- **The courses of a program.** `p.Course b log b' x`: begun when the firing stood at `b`,
the program shows `log` and ends with `x` when it stands at `b'`. A wait that a cancellation
ends goes on with the program for that case only once the cancellation has fired. -/
inductive Course : Program α → Bool → List Entry → Bool → Ending α → Prop where
  | done {a : α} {b : Bool} : Course (.done a) b [] b (.value a)
  | fault {text : Option String} {b : Bool} : Course (.fault text) b [] b (.fault text)
  | report {e : Event} {next : Program α} {b b' : Bool} {log : List Entry} {x : Ending α}
    (h : Course next b log b' x) : Course (.report e next) b (⟨b, .report e⟩ :: log) b' x
  | ifCancelled {next : Bool → Program α} {b b' : Bool} {log : List Entry} {x : Ending α}
    (h : Course (next b) b log b' x) : Course (.ifCancelled next) b log b' x
  | fetch {r : Request} {next : Reply → Program α} {b b₁ b' : Bool} {log : List Entry}
    {x : Ending α} (reply : Reply) (hb : b ≤ b₁) (h : Course (next reply) b₁ log b' x) :
    Course (.fetch r next) b (⟨b, .send r⟩ :: ⟨b₁, .receive reply⟩ :: log) b' x
  | fetchOr {r : Request} {onCancel : Program α} {next : Reply → Program α} {b b₁ b' : Bool}
    {log : List Entry} {x : Ending α} (reply : Reply) (hb : b ≤ b₁)
    (h : Course (next reply) b₁ log b' x) :
    Course (.fetchOr r onCancel next) b (⟨b, .send r⟩ :: ⟨b₁, .receive reply⟩ :: log) b' x
  | fetchCut {r : Request} {onCancel : Program α} {next : Reply → Program α} {b b' : Bool}
    {log : List Entry} {x : Ending α} (h : Course onCancel true log b' x) :
    Course (.fetchOr r onCancel next) b (⟨b, .send r⟩ :: ⟨true, .cut⟩ :: log) b' x
  | sleep {d : Duration} {next : Program α} {b b₁ b' : Bool} {log : List Entry} {x : Ending α}
    (hb : b ≤ b₁) (h : Course next b₁ log b' x) :
    Course (.sleep d next) b (⟨b, .sleep d⟩ :: ⟨b₁, .wake⟩ :: log) b' x
  | sleepOr {d : Duration} {onCancel next : Program α} {b b₁ b' : Bool} {log : List Entry}
    {x : Ending α} (hb : b ≤ b₁) (h : Course next b₁ log b' x) :
    Course (.sleepOr d onCancel next) b (⟨b, .sleep d⟩ :: ⟨b₁, .wake⟩ :: log) b' x
  | sleepCut {d : Duration} {onCancel next : Program α} {b b' : Bool} {log : List Entry}
    {x : Ending α} (h : Course onCancel true log b' x) :
    Course (.sleepOr d onCancel next) b (⟨b, .sleep d⟩ :: ⟨true, .cut⟩ :: log) b' x
  | watch {next : Program α} {b b' : Bool} {log : List Entry} {x : Ending α}
    (h : Course next b log b' x) : Course (.watch next) b log b' x
  | unwatch {next : Program α} {b b' : Bool} {log : List Entry} {x : Ending α}
    (h : Course next b log b' x) : Course (.unwatch next) b log b' x

variable {p : Program α} {b b' : Bool} {log : List Entry}

/-! ### Elementary programs -/

@[simp] theorem course_done {a : α} {x : Ending α} :
    (done a).Course b log b' x ↔ log = [] ∧ b' = b ∧ x = .value a := by
  constructor
  · intro h
    cases h
    exact ⟨rfl, rfl, rfl⟩
  · rintro ⟨rfl, rfl, rfl⟩
    exact .done

@[simp] theorem course_pure {a : α} {x : Ending α} :
    (pure a : Program α).Course b log b' x ↔ log = [] ∧ b' = b ∧ x = .value a :=
  course_done

@[simp] theorem course_fault {text : Option String} {x : Ending α} :
    (fault text : Program α).Course b log b' x ↔ log = [] ∧ b' = b ∧ x = .fault text := by
  constructor
  · intro h
    cases h
    exact ⟨rfl, rfl, rfl⟩
  · rintro ⟨rfl, rfl, rfl⟩
    exact .fault

@[simp] theorem course_emit {e : Event} {x : Ending Unit} :
    (emit e).Course b log b' x ↔ log = [⟨b, .report e⟩] ∧ b' = b ∧ x = .value () := by
  constructor
  · intro h
    cases h with
    | report h =>
      obtain ⟨rfl, rfl, rfl⟩ := course_done.1 h
      exact ⟨rfl, rfl, rfl⟩
  · rintro ⟨rfl, rfl, rfl⟩
    exact .report .done

/-- What is seen of a wait that is waited out. No time does not wait. -/
def waited (d : Duration) (b b' : Bool) : List Entry :=
  if d.isZero then [] else [⟨b, .sleep d⟩, ⟨b', .wake⟩]

/-- A wait that the cancellation may end is waited out or cut, and says which. -/
theorem course_pause_cases {d : Duration} {x : Ending Bool} (h : (pause d).Course b log b' x) :
    (log = waited d b b' ∧ x = .value true) ∨
    (d.isZero = false ∧ log = [⟨b, .sleep d⟩, ⟨true, .cut⟩] ∧ b' = true ∧ x = .value false) := by
  unfold pause at h
  split at h
  · rename_i hzero
    obtain ⟨rfl, rfl, rfl⟩ := course_done.1 h
    exact .inl ⟨by rw [waited, if_pos hzero], rfl⟩
  · rename_i hzero
    cases h with
    | sleepOr _ h =>
      obtain ⟨rfl, rfl, rfl⟩ := course_done.1 h
      exact .inl ⟨by rw [waited, if_neg hzero], rfl⟩
    | sleepCut h =>
      obtain ⟨rfl, rfl, rfl⟩ := course_done.1 h
      exact .inr ⟨Bool.not_eq_true _ ▸ hzero, rfl, rfl, rfl⟩

/-- Such a wait reports nothing. -/
theorem course_pause {d : Duration} {x : Ending Bool} (h : (pause d).Course b log b' x) :
    told log = [] ∧ ∃ waited, x = .value waited := by
  obtain ⟨rfl, rfl⟩ | ⟨-, rfl, -, rfl⟩ := course_pause_cases h
  · refine ⟨?_, true, rfl⟩
    unfold waited
    split <;> rfl
  · exact ⟨rfl, false, rfl⟩

/-! ### What follows an end -/

/-- The program in which every end is gone on with. -/
def graft : Program α → (Ending α → Program β) → Program β
  | .done a, f => f (.value a)
  | .fault text, f => f (.fault text)
  | .report e next, f => .report e (next.graft f)
  | .ifCancelled next, f => .ifCancelled fun b => (next b).graft f
  | .fetch r next, f => .fetch r fun reply => (next reply).graft f
  | .fetchOr r onCancel next, f => .fetchOr r (onCancel.graft f) fun reply => (next reply).graft f
  | .sleep d next, f => .sleep d (next.graft f)
  | .sleepOr d onCancel next, f => .sleepOr d (onCancel.graft f) (next.graft f)
  | .watch next, f => .watch (next.graft f)
  | .unwatch next, f => .unwatch (next.graft f)

/-- What a course of such a program is made of: a course of the first, and one of what its end
is gone on with. -/
def Joins (p : Program α) (f : Ending α → Program β) (b : Bool) (log : List Entry) (b' : Bool)
    (x : Ending β) : Prop :=
  ∃ log₁ b₁ y log₂, p.Course b log₁ b₁ y ∧ (f y).Course b₁ log₂ b' x ∧ log = log₁ ++ log₂

/-- What a first step adds to a course that is made of two. -/
theorem Joins.lift {q : Program α} {f : Ending α → Program β} {x : Ending β} {b₁ : Bool}
    {l : List Entry} (h : q.Joins f b₁ log b' x)
    (hq : ∀ {log' : List Entry} {b'' : Bool} {y : Ending α}, q.Course b₁ log' b'' y →
      p.Course b (l ++ log') b'' y) : p.Joins f b (l ++ log) b' x := by
  obtain ⟨log₁, b₂, y, log₂, hq', hf, rfl⟩ := h
  exact ⟨l ++ log₁, b₂, y, log₂, hq hq', hf, by rw [List.append_assoc]⟩

/-- **A course in which an end is gone on with.** -/
theorem course_graft {f : Ending α → Program β} {x : Ending β} :
    (p.graft f).Course b log b' x ↔ p.Joins f b log b' x := by
  constructor
  · intro h
    -- the tree is followed down; each node adds what it shows to the first of the two courses
    induction p generalizing b log with
    | done a => exact ⟨[], b, .value a, log, .done, h, rfl⟩
    | fault text => exact ⟨[], b, .fault text, log, .fault, h, rfl⟩
    | report e next ih =>
      cases h with
      | report h => exact (ih h).lift (l := [⟨b, .report e⟩]) .report
    | ifCancelled next ih =>
      cases h with
      | ifCancelled h => exact (ih b h).lift (l := []) .ifCancelled
    | fetch r next ih =>
      cases h with
      | @fetch _ _ _ b₁ _ _ _ reply hb h =>
        exact (ih reply h).lift (l := [⟨b, .send r⟩, ⟨b₁, .receive reply⟩]) (.fetch reply hb)
    | fetchOr r onCancel next ihc ih =>
      cases h with
      | @fetchOr _ _ _ _ b₁ _ _ _ reply hb h =>
        exact (ih reply h).lift (l := [⟨b, .send r⟩, ⟨b₁, .receive reply⟩])
          (.fetchOr reply hb)
      | fetchCut h => exact (ihc h).lift (l := [⟨b, .send r⟩, ⟨true, .cut⟩]) .fetchCut
    | sleep d next ih =>
      cases h with
      | @sleep _ _ _ b₁ _ _ _ hb h =>
        exact (ih h).lift (l := [⟨b, .sleep d⟩, ⟨b₁, .wake⟩]) (.sleep hb)
    | sleepOr d onCancel next ihc ih =>
      cases h with
      | @sleepOr _ _ _ _ b₁ _ _ _ hb h =>
        exact (ih h).lift (l := [⟨b, .sleep d⟩, ⟨b₁, .wake⟩]) (.sleepOr hb)
      | sleepCut h => exact (ihc h).lift (l := [⟨b, .sleep d⟩, ⟨true, .cut⟩]) .sleepCut
    | watch next ih =>
      cases h with
      | watch h => exact (ih h).lift (l := []) .watch
    | unwatch next ih =>
      cases h with
      | unwatch h => exact (ih h).lift (l := []) .unwatch
  · rintro ⟨log₁, b₁, y, log₂, hp, hf, rfl⟩
    -- the first course is followed to its end, where the second begins
    induction hp with
    | done | fault => exact hf
    | report _ ih => exact .report (ih hf)
    | ifCancelled _ ih => exact .ifCancelled (ih hf)
    | fetch reply hb _ ih => exact .fetch reply hb (ih hf)
    | fetchOr reply hb _ ih => exact .fetchOr reply hb (ih hf)
    | fetchCut _ ih => exact .fetchCut (ih hf)
    | sleep hb _ ih => exact .sleep hb (ih hf)
    | sleepOr hb _ ih => exact .sleepOr hb (ih hf)
    | sleepCut _ ih => exact .sleepCut (ih hf)
    | watch _ ih => exact .watch (ih hf)
    | unwatch _ ih => exact .unwatch (ih hf)

/-! ### One program after another -/

/-- A program after which another comes, as one in which every value is gone on with. -/
theorem bind_eq_graft (p : Program α) (f : α → Program β) :
    p >>= f = p.graft fun
      | .value a => f a
      | .fault text => .fault text := by
  change p.bind f = _
  induction p with
  | done | fault => rfl
  | report _ _ ih | sleep _ _ ih | watch _ ih | unwatch _ ih => simp only [bind, graft, ih]
  | ifCancelled _ ih | fetch _ _ ih => simp only [bind, graft, ih]
  | fetchOr _ _ _ ihc ih | sleepOr _ _ _ ihc ih => simp only [bind, graft, ihc, ih]

/-- What a course of one program after another is made of: the first has ended with a value
and the second has gone on from there, or the first has ended with a fault. -/
def Follows (p : Program α) (f : α → Program β) (b : Bool) (log : List Entry) (b' : Bool)
    (x : Ending β) : Prop :=
  (∃ log₁ b₁ a log₂, p.Course b log₁ b₁ (.value a) ∧ (f a).Course b₁ log₂ b' x ∧
    log = log₁ ++ log₂) ∨
  ∃ text, p.Course b log b' (.fault text) ∧ x = .fault text

/-- **A course of one program after another.** -/
theorem course_bind {f : α → Program β} {x : Ending β} :
    (p >>= f).Course b log b' x ↔ p.Follows f b log b' x := by
  rw [bind_eq_graft, course_graft]
  constructor
  · rintro ⟨log₁, b₁, a | text, log₂, hp, hf, rfl⟩
    · exact .inl ⟨log₁, b₁, a, log₂, hp, hf, rfl⟩
    · obtain ⟨rfl, rfl, rfl⟩ := course_fault.1 hf
      exact .inr ⟨text, by rwa [List.append_nil], rfl⟩
  · rintro (⟨log₁, b₁, a, log₂, hp, hf, rfl⟩ | ⟨text, hp, rfl⟩)
    · exact ⟨log₁, b₁, .value a, log₂, hp, hf, rfl⟩
    · exact ⟨log, b', .fault text, [], hp, .fault, (List.append_nil log).symm⟩

/-- A course that begins with a report. -/
theorem course_emit_bind {e : Event} {f : Unit → Program β} {x : Ending β} :
    (emit e >>= f).Course b log b' x ↔
      ∃ log', log = ⟨b, .report e⟩ :: log' ∧ (f ()).Course b log' b' x := by
  constructor
  · intro h
    cases h with
    | report h => exact ⟨_, rfl, h⟩
  · rintro ⟨log', rfl, h⟩
    exact .report h

/-- A course that begins with a look at the cancellation. -/
theorem course_isCancelled_bind {f : Bool → Program β} {x : Ending β} :
    (isCancelled >>= f).Course b log b' x ↔ (f b).Course b log b' x := by
  constructor
  · intro h
    cases h with
    | ifCancelled h => exact h
  · exact .ifCancelled

/-- A course of a program whose value is changed. -/
theorem course_map {f : α → β} {x : Ending β} :
    (f <$> p).Course b log b' x ↔
      (∃ a, p.Course b log b' (.value a) ∧ x = .value (f a)) ∨
      ∃ text, p.Course b log b' (.fault text) ∧ x = .fault text := by
  rw [map_eq_pure_bind, course_bind]
  refine or_congr_left ⟨?_, ?_⟩
  · rintro ⟨log₁, b₁, a, log₂, hp, hf, rfl⟩
    obtain ⟨rfl, rfl, rfl⟩ := course_pure.1 hf
    exact ⟨a, by rwa [List.append_nil], rfl⟩
  · rintro ⟨a, hp, rfl⟩
    exact ⟨log, b', a, [], hp, course_pure.2 ⟨rfl, rfl, rfl⟩, (List.append_nil log).symm⟩

/-! ### Faults that are caught -/

/-- What a course with faults caught is made of: a course that ends with a value, or one
that ends with a fault and is gone on with by the handler. -/
def Catches (p : Program α) (handler : Option String → Program α) (b : Bool) (log : List Entry)
    (b' : Bool) (x : Ending α) : Prop :=
  (∃ a, p.Course b log b' (.value a) ∧ x = .value a) ∨
  ∃ log₁ b₁ text log₂, p.Course b log₁ b₁ (.fault text) ∧ (handler text).Course b₁ log₂ b' x ∧
    log = log₁ ++ log₂

/-- A program with its faults caught, as one in which every fault is gone on with. -/
theorem catchFault_eq_graft (p : Program α) (handler : Option String → Program α) :
    p.catchFault handler = p.graft fun
      | .value a => .done a
      | .fault text => handler text := by
  induction p with
  | done | fault => rfl
  | report _ _ ih | sleep _ _ ih | watch _ ih | unwatch _ ih => simp only [catchFault, graft, ih]
  | ifCancelled _ ih | fetch _ _ ih => simp only [catchFault, graft, ih]
  | fetchOr _ _ _ ihc ih | sleepOr _ _ _ ihc ih => simp only [catchFault, graft, ihc, ih]

/-- **A course in which faults are caught.** -/
theorem course_catchFault {handler : Option String → Program α} {x : Ending α} :
    (p.catchFault handler).Course b log b' x ↔ p.Catches handler b log b' x := by
  rw [catchFault_eq_graft, course_graft]
  constructor
  · rintro ⟨log₁, b₁, a | text, log₂, hp, hh, rfl⟩
    · obtain ⟨rfl, rfl, rfl⟩ := course_done.1 hh
      exact .inl ⟨a, by rwa [List.append_nil], rfl⟩
    · exact .inr ⟨log₁, b₁, text, log₂, hp, hh, rfl⟩
  · rintro (⟨a, hp, rfl⟩ | ⟨log₁, b₁, text, log₂, hp, hh, rfl⟩)
    · exact ⟨log, b', .value a, [], hp, .done, (List.append_nil log).symm⟩
    · exact ⟨log₁, b₁, .fault text, log₂, hp, hh, rfl⟩

/-! ### What holds of every course -/

/-- The firing is never taken back. -/
theorem Course.fired_le {x : Ending α} (h : p.Course b log b' x) : b ≤ b' := by
  induction h with
  | done | fault => exact le_rfl
  | report _ ih | ifCancelled _ ih | watch _ ih | unwatch _ ih => exact ih
  | fetch _ hb _ ih | fetchOr _ hb _ ih | sleep hb _ ih | sleepOr hb _ ih => exact hb.trans ih
  | fetchCut _ ih | sleepCut _ ih => exact (Bool.le_true _).trans ih

/-- Whatever is reported in a course of the program has a property. -/
def Shows (P : Bool → Event → Prop) (p : Program α) : Prop :=
  ∀ ⦃b : Bool⦄ ⦃log : List Entry⦄ ⦃b' : Bool⦄ ⦃x : Ending α⦄, p.Course b log b' x →
    ∀ entry ∈ told log, P entry.1 entry.2

/-- What is reported in a course is what the program may report. -/
theorem shows_of_reports {kind : Event → Prop} (hp : p.Reports kind) :
    p.Shows fun _ e => kind e := by
  intro b log b' x h
  induction h with
  | done | fault => simp
  | report _ ih => exact List.forall_mem_cons.2 ⟨hp.1, ih hp.2⟩
  | ifCancelled _ ih => exact ih (hp _)
  | fetch reply _ _ ih => exact ih (hp reply)
  | fetchOr reply _ _ ih => exact ih (hp.2 reply)
  | fetchCut _ ih => exact ih hp.1
  | sleep _ _ ih => exact ih hp
  | sleepOr _ _ ih => exact ih hp.2
  | sleepCut _ ih => exact ih hp.1
  | watch _ ih | unwatch _ ih => exact ih hp

/-- A silent program reports nothing. -/
theorem told_of_silent {x : Ending α} (hp : p.Silent) (h : p.Course b log b' x) :
    told log = [] :=
  List.eq_nil_iff_forall_not_mem.2 fun entry he => shows_of_reports hp h entry he

theorem Shows.mono {P Q : Bool → Event → Prop} (h : p.Shows P) (hPQ : ∀ b e, P b e → Q b e) :
    p.Shows Q :=
  fun _ _ _ _ hc entry he => hPQ _ _ (h hc entry he)

theorem shows_pure {P : Bool → Event → Prop} (a : α) : (pure a : Program α).Shows P := by
  intro b log b' x h
  obtain ⟨rfl, -, -⟩ := course_pure.1 h
  simp

theorem shows_emit {P : Bool → Event → Prop} {e : Event} (h : ∀ b, P b e) : (emit e).Shows P := by
  intro b log b' x hc
  obtain ⟨rfl, -, -⟩ := course_emit.1 hc
  exact List.forall_mem_singleton.2 (h b)

theorem shows_bind {P : Bool → Event → Prop} {f : α → Program β} (hp : p.Shows P)
    (hf : ∀ a, (f a).Shows P) : (p >>= f).Shows P := by
  intro b log b' x h entry he
  obtain ⟨log₁, b₁, a, log₂, hp', hf', rfl⟩ | ⟨text, hp', rfl⟩ := course_bind.1 h
  · rw [told_append, List.mem_append] at he
    exact he.elim (hp hp' entry) (hf a hf' entry)
  · exact hp hp' entry he

/-- Every program has a course, so none is stuck. -/
theorem exists_course (p : Program α) (b : Bool) : ∃ log b' x, p.Course b log b' x := by
  induction p with
  | done a => exact ⟨_, _, _, .done⟩
  | fault text => exact ⟨_, _, _, .fault⟩
  | report e next ih =>
    obtain ⟨log, b', x, h⟩ := ih
    exact ⟨_, _, _, .report h⟩
  | ifCancelled next ih =>
    obtain ⟨log, b', x, h⟩ := ih b
    exact ⟨_, _, _, .ifCancelled h⟩
  | fetch r next ih =>
    obtain ⟨log, b', x, h⟩ := ih (.fault none)
    exact ⟨_, _, _, .fetch _ le_rfl h⟩
  | fetchOr r onCancel next _ ih =>
    obtain ⟨log, b', x, h⟩ := ih (.fault none)
    exact ⟨_, _, _, .fetchOr _ le_rfl h⟩
  | sleep d next ih =>
    obtain ⟨log, b', x, h⟩ := ih
    exact ⟨_, _, _, .sleep le_rfl h⟩
  | sleepOr d onCancel next _ ih =>
    obtain ⟨log, b', x, h⟩ := ih
    exact ⟨_, _, _, .sleepOr le_rfl h⟩
  | watch next ih =>
    obtain ⟨log, b', x, h⟩ := ih
    exact ⟨_, _, _, .watch h⟩
  | unwatch next ih =>
    obtain ⟨log, b', x, h⟩ := ih
    exact ⟨_, _, _, .unwatch h⟩

/-! ### Programs that are abandoned -/

/-- What a course of a silent program is that a cancellation may end: a course of the program, or
one that was cut once the cancellation had fired and has gone on with `onCancel` from there. -/
def Abandons (p onCancel : Program α) (b : Bool) (log : List Entry) (b' : Bool) (x : Ending α) :
    Prop :=
  p.Course b log b' x ∨
    ∃ log₁ log₂, told log₁ = [] ∧ onCancel.Course true log₂ b' x ∧ log = log₁ ++ log₂

/-- What a first step adds to such a course. -/
theorem Abandons.lift {q onCancel : Program α} {x : Ending α} {b₁ : Bool} {l : List Entry}
    (h : q.Abandons onCancel b₁ log b' x) (hl : told l = [])
    (hq : q.Course b₁ log b' x → p.Course b (l ++ log) b' x) :
    p.Abandons onCancel b (l ++ log) b' x := by
  rcases h with h | ⟨log₁, log₂, htold, hcancel, rfl⟩
  · exact .inl (hq h)
  · refine .inr ⟨l ++ log₁, log₂, ?_, hcancel, by rw [List.append_assoc]⟩
    rw [told_append, hl, htold]
    rfl

/-- **A course of a silent program whose waits a cancellation ends.** -/
theorem course_interruptible {onCancel : Program α} {x : Ending α} (hp : p.Silent)
    (h : (interruptible onCancel p).Course b log b' x) : p.Abandons onCancel b log b' x := by
  -- the tree is followed down to the wait that is cut, if one is
  induction p generalizing b log with
  | done a =>
    cases h with
    | unwatch h => exact .inl h
  | fault text => exact .inl h
  | report e next => exact hp.1.elim
  | ifCancelled next ih =>
    cases h with
    | ifCancelled h => exact (ih b (hp b) h).lift (l := []) rfl .ifCancelled
  | fetch r next ih =>
    cases h with
    | fetchOr reply hb h => exact (ih reply (hp reply) h).lift (l := [_, _]) rfl (.fetch reply hb)
    | fetchCut h => exact .inr ⟨[_, _], _, rfl, h, rfl⟩
  | fetchOr r inner next _ ih =>
    cases h with
    | fetchOr reply hb h =>
      exact (ih reply (hp.2 reply) h).lift (l := [_, _]) rfl (.fetchOr reply hb)
    | fetchCut h => exact .inr ⟨[_, _], _, rfl, h, rfl⟩
  | sleep d next ih =>
    cases h with
    | sleepOr hb h => exact (ih hp h).lift (l := [_, _]) rfl (.sleep hb)
    | sleepCut h => exact .inr ⟨[_, _], _, rfl, h, rfl⟩
  | sleepOr d inner next _ ih =>
    cases h with
    | sleepOr hb h => exact (ih hp.2 h).lift (l := [_, _]) rfl (.sleepOr hb)
    | sleepCut h => exact .inr ⟨[_, _], _, rfl, h, rfl⟩
  | watch next ih => exact (ih hp h).lift (l := []) rfl .watch
  | unwatch next ih => exact (ih hp h).lift (l := []) rfl .unwatch

end Program

end Syndication
