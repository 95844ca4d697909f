import Syndication.Duration
import Syndication.Event
import Syndication.Http.Basic

/-!
# Programs

A program is what a platform's run does that can be seen from outside, as a tree:
it reports events, sends requests, waits, asks whether it has been cancelled, and
ends with a value or with a fault. What comes back from outside chooses the
branch. A program does nothing by itself; the schedule runs it, together with
others, against a transport and a clock.

A wait may be one that a cancellation ends: then it names the program that goes
on in that case. `abandonedBy` makes every wait of a program such a wait.

Main statements:

* `bind_pure`, `pure_bind`, `bind_assoc`: programs are a monad.
* `reports_bind`: what one program after another reports.
* `child_wellFounded`: no program goes on for ever.
-/

namespace Syndication

/-- What a transport gives back for a request. -/
inductive Reply where
  /-- An answer. -/
  | answer (response : Response)
  /-- No answer. -/
  | failure (error : TransportError)
  /-- A fault of the transport, with its text if it has one. -/
  | fault (text : Option String)
deriving DecidableEq, Repr

/-- What a run does that can be seen from outside. -/
inductive Program (α : Type) : Type where
  /-- Ends with a value. -/
  | done (value : α)
  /-- Ends with a fault, with its text if it has one. -/
  | fault (text : Option String)
  /-- Reports an event. -/
  | report (event : Event) (next : Program α)
  /-- Asks whether the run has been cancelled. -/
  | ifCancelled (next : Bool → Program α)
  /-- Sends a request and waits for the reply. -/
  | fetch (request : Request) (next : Reply → Program α)
  /-- Sends a request and waits for the reply or a cancellation. -/
  | fetchOr (request : Request) (onCancel : Program α) (next : Reply → Program α)
  /-- Waits for a span of time. -/
  | sleep (d : Duration) (next : Program α)
  /-- Waits for a span of time or a cancellation. -/
  | sleepOr (d : Duration) (onCancel : Program α) (next : Program α)
  /-- Begins to watch for a cancellation: the waits that follow stand in the line
  of those that a cancellation ends from here on. -/
  | watch (next : Program α)
  /-- Ends the watch. -/
  | unwatch (next : Program α)

namespace Program

variable {α β γ : Type}

/-- One program after another. -/
def bind : Program α → (α → Program β) → Program β
  | .done a, f => f a
  | .fault text, _ => .fault text
  | .report e next, f => .report e (next.bind f)
  | .ifCancelled next, f => .ifCancelled fun b => (next b).bind f
  | .fetch r next, f => .fetch r fun reply => (next reply).bind f
  | .fetchOr r onCancel next, f => .fetchOr r (onCancel.bind f) fun reply => (next reply).bind f
  | .sleep d next, f => .sleep d (next.bind f)
  | .sleepOr d onCancel next, f => .sleepOr d (onCancel.bind f) (next.bind f)
  | .watch next, f => .watch (next.bind f)
  | .unwatch next, f => .unwatch (next.bind f)

instance : Monad Program where
  pure := .done
  bind := bind

@[simp] theorem pure_bind (a : α) (f : α → Program β) : bind (.done a) f = f a := rfl

@[simp] theorem bind_pure (p : Program α) : bind p .done = p := by
  induction p with
  | done | fault => rfl
  | report _ _ ih | sleep _ _ ih | watch _ ih | unwatch _ ih => simp [bind, ih]
  | ifCancelled _ ih => simp [bind, ih]
  | fetch _ _ ih => simp [bind, ih]
  | fetchOr _ _ _ ihc ih => simp [bind, ihc, ih]
  | sleepOr _ _ _ ihc ih => simp [bind, ihc, ih]

@[simp] theorem bind_assoc (p : Program α) (f : α → Program β) (g : β → Program γ) :
    bind (bind p f) g = bind p fun a => bind (f a) g := by
  induction p with
  | done | fault => rfl
  | report _ _ ih | sleep _ _ ih | watch _ ih | unwatch _ ih => simp [bind, ih]
  | ifCancelled _ ih => simp [bind, ih]
  | fetch _ _ ih => simp [bind, ih]
  | fetchOr _ _ _ ihc ih => simp [bind, ihc, ih]
  | sleepOr _ _ _ ihc ih => simp [bind, ihc, ih]

instance : LawfulMonad Program :=
  .mk' Program bind_pure (fun _ _ => rfl) bind_assoc

/-! ### Elementary programs -/

/-- Reports an event. -/
def emit (event : Event) : Program Unit :=
  .report event (.done ())

/-- Asks whether the run has been cancelled. -/
def isCancelled : Program Bool :=
  .ifCancelled .done

/-- Sends a request and waits for the answer. -/
def request (r : Request) : Program (Except TransportError Response) :=
  .fetch r fun
    | .answer response => .done (.ok response)
    | .failure error => .done (.error error)
    | .fault text => .fault text

/-- Waits for a span of time; no time does not wait. -/
def delay (d : Duration) : Program Unit :=
  if d.isZero then .done () else .sleep d (.done ())

/-- Waits for a span of time or a cancellation; says whether the time was
waited out. No time does not wait. -/
def pause (d : Duration) : Program Bool :=
  if d.isZero then .done true else .sleepOr d (.done false) (.done true)

/-! ### Faults and cancellation -/

/-- The program with a fault caught. -/
def catchFault (handler : Option String → Program α) : Program α → Program α
  | .done a => .done a
  | .fault text => handler text
  | .report e next => .report e (next.catchFault handler)
  | .ifCancelled next => .ifCancelled fun b => (next b).catchFault handler
  | .fetch r next => .fetch r fun reply => (next reply).catchFault handler
  | .fetchOr r onCancel next =>
    .fetchOr r (onCancel.catchFault handler) fun reply => (next reply).catchFault handler
  | .sleep d next => .sleep d (next.catchFault handler)
  | .sleepOr d onCancel next =>
    .sleepOr d (onCancel.catchFault handler) (next.catchFault handler)
  | .watch next => .watch (next.catchFault handler)
  | .unwatch next => .unwatch (next.catchFault handler)

/-- The program with every wait ended by a cancellation, upon which `onCancel`
goes on. -/
def interruptible (onCancel : Program α) : Program α → Program α
  -- the watch ends with the program
  | .done a => .unwatch (.done a)
  | .fault text => .fault text
  | .report e next => .report e (interruptible onCancel next)
  | .ifCancelled next => .ifCancelled fun b => interruptible onCancel (next b)
  | .fetch r next => .fetchOr r onCancel fun reply => interruptible onCancel (next reply)
  | .fetchOr r _ next => .fetchOr r onCancel fun reply => interruptible onCancel (next reply)
  | .sleep d next => .sleepOr d onCancel (interruptible onCancel next)
  | .sleepOr d _ next => .sleepOr d onCancel (interruptible onCancel next)
  -- an inner watch gives way to the outer one
  | .watch next => interruptible onCancel next
  | .unwatch next => interruptible onCancel next

/-- The program, abandoned for `onCancel` as soon as a cancellation finds it
waiting. -/
def abandonedBy (p onCancel : Program α) : Program α :=
  .watch (interruptible (.unwatch onCancel) p)

/-! ### What a program reports -/

/-- Every event that the program may report is of a kind. -/
def Reports (kind : Event → Prop) : Program α → Prop
  | .done _ | .fault _ => True
  | .report e next => kind e ∧ next.Reports kind
  | .ifCancelled next => ∀ b, (next b).Reports kind
  | .fetch _ next => ∀ reply, (next reply).Reports kind
  | .fetchOr _ onCancel next => onCancel.Reports kind ∧ ∀ reply, (next reply).Reports kind
  | .sleep _ next => next.Reports kind
  | .sleepOr _ onCancel next => onCancel.Reports kind ∧ next.Reports kind
  | .watch next | .unwatch next => next.Reports kind

/-- The program reports nothing. -/
def Silent (p : Program α) : Prop :=
  p.Reports fun _ => False

theorem reports_mono {kind kind' : Event → Prop} (hk : ∀ e, kind e → kind' e) {p : Program α}
    (h : p.Reports kind) : p.Reports kind' := by
  induction p with
  | done | fault => trivial
  | report e next ih => exact ⟨hk e h.1, ih h.2⟩
  | ifCancelled next ih => exact fun b => ih b (h b)
  | fetch r next ih => exact fun reply => ih reply (h reply)
  | fetchOr r onCancel next ihc ih => exact ⟨ihc h.1, fun reply => ih reply (h.2 reply)⟩
  | sleep d next ih | watch next ih | unwatch next ih => exact ih h
  | sleepOr d onCancel next ihc ih => exact ⟨ihc h.1, ih h.2⟩

/-- What one program after another reports. -/
theorem reports_bind {kind : Event → Prop} {p : Program α} {f : α → Program β}
    (h : p.Reports kind) (hf : ∀ a, (f a).Reports kind) : (p.bind f).Reports kind := by
  induction p with
  | done a => exact hf a
  | fault text => trivial
  | report e next ih => exact ⟨h.1, ih h.2⟩
  | ifCancelled next ih => exact fun b => ih b (h b)
  | fetch r next ih => exact fun reply => ih reply (h reply)
  | fetchOr r onCancel next ihc ih => exact ⟨ihc h.1, fun reply => ih reply (h.2 reply)⟩
  | sleep d next ih | watch next ih | unwatch next ih => exact ih h
  | sleepOr d onCancel next ihc ih => exact ⟨ihc h.1, ih h.2⟩

/-- What an abandoned program reports. -/
theorem reports_interruptible {kind : Event → Prop} {p onCancel : Program α}
    (h : p.Reports kind) (hc : onCancel.Reports kind) :
    (interruptible onCancel p).Reports kind := by
  induction p with
  | done | fault => trivial
  | report e next ih => exact ⟨h.1, ih h.2⟩
  | ifCancelled next ih => exact fun b => ih b (h b)
  | fetch r next ih => exact ⟨hc, fun reply => ih reply (h reply)⟩
  | fetchOr r _ next _ ih => exact ⟨hc, fun reply => ih reply (h.2 reply)⟩
  | sleep d next ih => exact ⟨hc, ih h⟩
  | sleepOr d _ next _ ih => exact ⟨hc, ih h.2⟩
  | watch next ih | unwatch next ih => exact ih h

theorem silent_delay (d : Duration) : (delay d).Silent := by
  unfold delay
  split <;> trivial

theorem silent_request (r : Request) : (request r).Silent := by
  intro reply
  cases reply <;> trivial

/-! ### No program goes on for ever -/

/-- The programs that a program may go on as. -/
inductive Child : Program α → Program α → Prop where
  /-- After a report. -/
  | report (e : Event) (next : Program α) : Child next (.report e next)
  /-- After the answer to a question. -/
  | ifCancelled (b : Bool) (next : Bool → Program α) : Child (next b) (.ifCancelled next)
  /-- After a reply. -/
  | fetch (r : Request) (reply : Reply) (next : Reply → Program α) :
    Child (next reply) (.fetch r next)
  /-- After a reply that a cancellation would have come before. -/
  | fetchOr (r : Request) (reply : Reply) (onCancel : Program α) (next : Reply → Program α) :
    Child (next reply) (.fetchOr r onCancel next)
  /-- After a cancellation that came before the reply. -/
  | fetchOrCancel (r : Request) (onCancel : Program α) (next : Reply → Program α) :
    Child onCancel (.fetchOr r onCancel next)
  /-- After a wait. -/
  | sleep (d : Duration) (next : Program α) : Child next (.sleep d next)
  /-- After a wait that a cancellation would have ended. -/
  | sleepOr (d : Duration) (onCancel next : Program α) : Child next (.sleepOr d onCancel next)
  /-- After a cancellation that ended a wait. -/
  | sleepOrCancel (d : Duration) (onCancel next : Program α) :
    Child onCancel (.sleepOr d onCancel next)
  /-- With the watch begun. -/
  | watch (next : Program α) : Child next (.watch next)
  /-- With the watch ended. -/
  | unwatch (next : Program α) : Child next (.unwatch next)

/-- No program goes on for ever. -/
theorem child_wellFounded : WellFounded (Child : Program α → Program α → Prop) := by
  constructor
  intro p
  induction p with
  | done a => exact ⟨_, fun q h => by cases h⟩
  | fault text => exact ⟨_, fun q h => by cases h⟩
  | report e next ih => exact ⟨_, fun q h => by cases h; exact ih⟩
  | ifCancelled next ih => exact ⟨_, fun q h => by cases h; exact ih _⟩
  | fetch r next ih => exact ⟨_, fun q h => by cases h; exact ih _⟩
  | fetchOr r onCancel next ihc ih =>
    exact ⟨_, fun q h => by
      cases h
      · exact ih _
      · exact ihc⟩
  | sleep d next ih => exact ⟨_, fun q h => by cases h; exact ih⟩
  | sleepOr d onCancel next ihc ih =>
    exact ⟨_, fun q h => by
      cases h
      · exact ih
      · exact ihc⟩
  | watch next ih => exact ⟨_, fun q h => by cases h; exact ih⟩
  | unwatch next ih => exact ⟨_, fun q h => by cases h; exact ih⟩

/-- The programs that a program may have gone on as after one or more steps. -/
def Below : Program α → Program α → Prop :=
  Relation.TransGen Child

theorem below_wellFounded : WellFounded (Below : Program α → Program α → Prop) :=
  child_wellFounded.transGen

theorem Below.of_child {q p : Program α} (h : Child q p) : Below q p :=
  .single h

theorem Below.trans {r q p : Program α} (h : Below r q) (h' : Below q p) : Below r p :=
  Relation.TransGen.trans h h'

end Program

end Syndication
