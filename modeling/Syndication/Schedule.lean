import Syndication.Transport.Basic

/-!
# Running programs

Programs are run against a transport on a virtual clock. Each runs until it waits
or ends; time moves only when all of them wait, and then straight to the next
moment at which something happens. The programs of a batch begin in order and are
run one at a time, so nothing happens at the same moment as anything else.

A cancellation fires at a moment of the clock or while a given request is being
sent. It ends the waits that can be ended, in the order in which they began.

Main statements:

* `advance_below`: a program that waits goes on as a smaller program, so a run
  ends.
* `runAll_nil`: nothing happens without programs.
-/

namespace Syndication

/-- Everything that programs share while they run. -/
structure World (σ : Type) where
  /-- The time since the beginning. -/
  now : Duration
  /-- Whether the cancellation has fired. -/
  cancelled : Bool
  /-- The moment at which the cancellation fires, if one is set. -/
  cancelAt : Option Duration
  /-- The number of the request during which the cancellation fires. -/
  cancelOnRequest : Option Nat
  /-- The state of the transport. -/
  transport : σ
  /-- The requests that were sent, each with its moment. -/
  requests : List (Duration × Request)
  /-- The events that were reported, each with whether the cancellation had fired. -/
  journal : List (Bool × Event)
  /-- How many places in the line of waits have been given out. -/
  tickets : Nat

namespace World

variable {σ : Type}

/-- The world at the beginning. -/
def start (transport : σ) : World σ :=
  ⟨.zero, false, none, none, transport, [], [], 0⟩

/-- The world with an event reported. -/
def report (w : World σ) (e : Event) : World σ :=
  { w with journal := w.journal ++ [(w.cancelled, e)] }

/-- The events of the log. -/
def events (w : World σ) : List Event :=
  (w.journal.map (·.2)).filter Event.isLogged

/-- The world with the cancellation fired. -/
def cancel (w : World σ) : World σ :=
  { w with cancelled := true, cancelAt := none }

/-- The world with a request sent, and what is done with it. -/
def send (w : World σ) (t : Transport σ) (r : Request) : Delivery × World σ :=
  let requests := w.requests ++ [(w.now, r)]
  let fires := w.cancelOnRequest == some requests.length
  let (delivery, transport) := t.deliver w.transport r
  (delivery, { w with
    requests
    transport
    cancelled := w.cancelled || fires
    cancelAt := if fires then none else w.cancelAt })

@[simp] theorem journal_report (w : World σ) (e : Event) :
    (w.report e).journal = w.journal ++ [(w.cancelled, e)] := rfl

@[simp] theorem cancelled_report (w : World σ) (e : Event) :
    (w.report e).cancelled = w.cancelled := rfl

@[simp] theorem events_report (w : World σ) (e : Event) :
    (w.report e).events = w.events ++ [e].filter Event.isLogged := by
  simp [events]

@[simp] theorem cancelled_cancel (w : World σ) : w.cancel.cancelled = true := rfl

end World

/-- How a program has come to a halt. `ticket` is the place of the watch with
which it goes on. -/
inductive Halt (α : Type) where
  /-- It has ended with a value. -/
  | ended (value : α)
  /-- It has ended with a fault. -/
  | faulted
  /-- It waits for a moment. -/
  | waits (moment : Duration) (ticket : Option Nat) (next : Program α)
  /-- It waits for a moment or a cancellation, with its place in the line. -/
  | waitsOr (moment : Duration) (ticket : Option Nat) (place : Nat) (onCancel next : Program α)

variable {σ α : Type}

/-- The value with which a halted program has ended. -/
def Halt.value? : Halt α → Option α
  | .ended value => some value
  | _ => none

/-- Lets a program run until it waits or ends. A wait that a cancellation ends is
not begun once the cancellation has fired, unless the program was already
watching: then it takes its place in the line and is ended there. -/
def advance (t : Transport σ) : Program α → Option Nat → World σ → Halt α × World σ
  | .done value, _, w => (.ended value, w)
  | .fault _, _, w => (.faulted, w)
  | .report e next, ticket, w => advance t next ticket (w.report e)
  | .ifCancelled next, ticket, w => advance t (next w.cancelled) ticket w
  | .fetch r next, ticket, w =>
    let (delivery, w) := w.send t r
    -- an answer that is there at once is no wait
    if delivery.delay.isZero then advance t (next delivery.reply) ticket w
    else (.waits (w.now.plus delivery.delay) ticket (next delivery.reply), w)
  | .fetchOr r onCancel next, ticket, w =>
    let (delivery, w) := w.send t r
    if delivery.delay.isZero then advance t (next delivery.reply) ticket w
    else
      let moment := w.now.plus delivery.delay
      -- a program that watches keeps the place at which it began to
      match ticket with
      | some place => (.waitsOr moment ticket place onCancel (next delivery.reply), w)
      | none =>
        (.waitsOr moment none w.tickets onCancel (next delivery.reply),
          { w with tickets := w.tickets + 1 })
  | .sleep d next, ticket, w =>
    if d.isZero then advance t next ticket w else (.waits (w.now.plus d) ticket next, w)
  | .sleepOr d onCancel next, ticket, w =>
    if d.isZero then advance t next ticket w
    else match ticket with
      | some place => (.waitsOr (w.now.plus d) ticket place onCancel next, w)
      | none =>
        -- too late to begin a wait
        if w.cancelled then advance t onCancel none w
        else
          (.waitsOr (w.now.plus d) none w.tickets onCancel next,
            { w with tickets := w.tickets + 1 })
  | .watch next, _, w => advance t next (some w.tickets) { w with tickets := w.tickets + 1 }
  | .unwatch next, _, w => advance t next none w

open Program (Below Child)

/-- The programs as which a halted program may go on. -/
def Halt.continuations : Halt α → List (Program α)
  | .ended _ | .faulted => []
  | .waits _ _ next => [next]
  | .waitsOr _ _ _ onCancel next => [onCancel, next]

/-- A program that waits goes on as a smaller program. -/
theorem advance_below (t : Transport σ) (p : Program α) (ticket : Option Nat) (w : World σ) :
    ∀ q ∈ (advance t p ticket w).1.continuations, Below q p := by
  -- what is below a child is below its parent
  have lift : ∀ (p' : Program α) {p : Program α} {ticket' : Option Nat} {w' : World σ},
      Child p' p → (∀ q ∈ (advance t p' ticket' w').1.continuations, Below q p') →
      ∀ q ∈ (advance t p' ticket' w').1.continuations, Below q p :=
    fun _ _ _ _ hc h q hq => (h q hq).trans (.of_child hc)
  induction p generalizing ticket w with
  | done value => simp [advance, Halt.continuations]
  | fault text => simp [advance, Halt.continuations]
  | report e next ih => exact lift next (.report e next) (ih _ _)
  | ifCancelled next ih => exact lift (next w.cancelled) (.ifCancelled _ next) (ih _ _ _)
  | fetch r next ih =>
    simp only [advance]
    split
    · exact lift _ (.fetch r _ next) (ih _ _ _)
    · simpa [Halt.continuations] using Below.of_child (.fetch r _ next)
  | fetchOr r onCancel next _ ih =>
    have both : ∀ reply, Below onCancel (.fetchOr r onCancel next) ∧
        Below (next reply) (.fetchOr r onCancel next) := fun reply =>
      ⟨.of_child (.fetchOrCancel r onCancel next), .of_child (.fetchOr r reply onCancel next)⟩
    simp only [advance]
    split
    · exact lift _ (.fetchOr r _ onCancel next) (ih _ _ _)
    · split <;> simpa [Halt.continuations] using both _
  | sleep d next ih =>
    simp only [advance]
    split
    · exact lift next (.sleep d next) (ih _ _)
    · simpa [Halt.continuations] using Below.of_child (.sleep d next)
  | sleepOr d onCancel next ihc ih =>
    have both : Below onCancel (.sleepOr d onCancel next) ∧
        Below next (.sleepOr d onCancel next) :=
      ⟨.of_child (.sleepOrCancel d onCancel next), .of_child (.sleepOr d onCancel next)⟩
    simp only [advance]
    split
    · exact lift next (.sleepOr d onCancel next) (ih _ _)
    · split
      · simpa [Halt.continuations] using both
      · split
        · exact lift onCancel (.sleepOrCancel d onCancel next) (ihc _ _)
        · simpa [Halt.continuations] using both
  | watch next ih => exact lift next (.watch next) (ih _ _)
  | unwatch next ih => exact lift next (.unwatch next) (ih _ _)

/-! ### Batches -/

/-- Where a program of a batch stands. -/
inductive Slot (α : Type) where
  /-- It has ended. -/
  | finished
  /-- It can go on. -/
  | ready (ticket : Option Nat) (p : Program α)
  /-- It waits for a moment. -/
  | waits (moment : Duration) (ticket : Option Nat) (next : Program α)
  /-- It waits for a moment or a cancellation. -/
  | waitsOr (moment : Duration) (ticket : Option Nat) (place : Nat) (onCancel next : Program α)

namespace Slot

/-- Where a halted program stands. -/
def ofHalt : Halt α → Slot α
  | .ended _ | .faulted => .finished
  | .waits moment ticket next => .waits moment ticket next
  | .waitsOr moment ticket place onCancel next => .waitsOr moment ticket place onCancel next

/-- The moment for which it waits. -/
def moment? : Slot α → Option Duration
  | .waits moment _ _ | .waitsOr moment _ _ _ _ => some moment
  | .finished | .ready _ _ => none

/-- Its place in the line of waits that a cancellation ends. -/
def place? : Slot α → Option Nat
  | .waitsOr _ _ place _ _ => some place
  | _ => none

/-- The slot at the moment for which it waited. -/
def awake : Slot α → Slot α
  | .waits _ ticket next | .waitsOr _ ticket _ _ next => .ready ticket next
  | s => s

/-- The slot after a cancellation. -/
def cancelled : Slot α → Slot α
  | .waitsOr _ ticket _ onCancel _ => .ready ticket onCancel
  | s => s

end Slot

/-- Programs that run side by side. -/
structure Batch (σ α : Type) where
  /-- What they share. -/
  world : World σ
  /-- The programs that can go on, in order. -/
  queue : List Nat
  /-- Where each program stands. -/
  slots : List (Slot α)

namespace Batch

/-- The batch that begins some programs, in order. -/
def start (w : World σ) (programs : List (Program α)) : Batch σ α :=
  ⟨w, List.range programs.length, programs.map (.ready none)⟩

/-- The programs that wait in the line, in its order. -/
def line (slots : List (Slot α)) : List Nat :=
  let places := slots.zipIdx.filterMap fun (s, i) => s.place?.map fun place => (place, i)
  (places.mergeSort fun a b => a.1 ≤ b.1).map (·.2)

/-- The earliest moment for which a program waits, and that program; the first of
those that wait for the same moment. The programs are numbered from `i`. -/
def earliest : Nat → List (Slot α) → Option (Duration × Nat)
  | _, [] => none
  | i, s :: rest =>
    -- an earlier program goes first when the moments are the same
    match s.moment?, earliest (i + 1) rest with
    | some moment, some best => if moment.atMost best.1 then some (moment, i) else some best
    | some moment, none => some (moment, i)
    | none, best => best

/-- The batch after the cancellation has fired: every wait in the line ends, in
the order of the line. -/
def endWaits (b : Batch σ α) : Batch σ α :=
  { b with queue := b.queue ++ line b.slots, slots := b.slots.map Slot.cancelled }

/-- The batch in which a program stands differently, with the cancellation fired
if `fires` says so. -/
def place (b : Batch σ α) (w : World σ) (queue : List Nat) (i : Nat) (s : Slot α) (fires : Bool) :
    Batch σ α :=
  let after : Batch σ α := ⟨if fires then w.cancel else w, queue, b.slots.set i s⟩
  -- it may have fired while the program ran, or because of its value
  if after.world.cancelled && !b.world.cancelled then after.endWaits else after

/-- Lets the first program in the queue run. A value with which it ends may fire
the cancellation. -/
def runFirst (t : Transport σ) (cancels : α → Bool) (b : Batch σ α) (i : Nat) (queue : List Nat)
    (ticket : Option Nat) (p : Program α) : Batch σ α × Option α :=
  let (halt, w) := advance t p ticket b.world
  match halt with
  | .ended value => (b.place w queue i .finished (cancels value), some value)
  | halt => (b.place w queue i (.ofHalt halt) false, none)

/-- The batch with the clock at a moment for which a program waits. -/
def wake (b : Batch σ α) (moment : Duration) (i : Nat) : Batch σ α :=
  { world := { b.world with now := b.world.now.longer moment }
    queue := [i]
    slots := b.slots.modify i Slot.awake }

/-- The batch with the clock at the moment at which the cancellation fires. -/
def cancelNow (b : Batch σ α) (moment : Duration) : Batch σ α :=
  { b with world := { b.world with now := b.world.now.longer moment }.cancel }.endWaits

/-- **One step of a batch**, and what a program has ended with in it; nothing
when every program has ended. -/
def step? (t : Transport σ) (cancels : α → Bool) (b : Batch σ α) :
    Option (Batch σ α × Option α) :=
  match b.queue with
  | i :: queue =>
    match b.slots[i]? with
    | some (.ready ticket p) => some (b.runFirst t cancels i queue ticket p)
    -- a program that cannot go on has no turn
    | _ => some ({ b with queue }, none)
  | [] =>
    match earliest 0 b.slots with
    | none => none
    | some (moment, i) =>
      match b.world.cancelAt with
      -- at the same moment the cancellation comes first
      | some c =>
        if c.atMost moment then some (b.cancelNow c, none) else some (b.wake moment i, none)
      | none => some (b.wake moment i, none)

end Batch

/-! ### A batch ends -/

/-- A slot after one step of its program. -/
inductive Slot.Next : Slot α → Slot α → Prop where
  /-- The program has ended. -/
  | finished (ticket : Option Nat) (p : Program α) : Next .finished (.ready ticket p)
  /-- The program waits. -/
  | waits {moment : Duration} {ticket ticket' : Option Nat} {p next : Program α}
    (h : Below next p) : Next (.waits moment ticket next) (.ready ticket' p)
  /-- The program waits, or for a cancellation. -/
  | waitsOr {moment : Duration} {place : Nat} {ticket ticket' : Option Nat}
    {p onCancel next : Program α} (hc : Below onCancel p) (h : Below next p) :
    Next (.waitsOr moment ticket place onCancel next) (.ready ticket' p)
  /-- The moment has come. -/
  | awake (moment : Duration) (ticket : Option Nat) (next : Program α) :
    Next (.ready ticket next) (.waits moment ticket next)
  /-- The moment has come before a cancellation. -/
  | awakeOr (moment : Duration) (place : Nat) (ticket : Option Nat) (onCancel next : Program α) :
    Next (.ready ticket next) (.waitsOr moment ticket place onCancel next)
  /-- A cancellation has come before the moment. -/
  | cancelled (moment : Duration) (place : Nat) (ticket : Option Nat) (onCancel next : Program α) :
    Next (.ready ticket onCancel) (.waitsOr moment ticket place onCancel next)

namespace Slot

theorem next_wellFounded : WellFounded (Next : Slot α → Slot α → Prop) := by
  -- nothing comes after the end
  have finished : Acc Next (finished : Slot α) := ⟨_, fun s h => by cases h⟩
  -- a program that can go on comes back as a smaller one, after a wait
  have ready : ∀ (p : Program α) (ticket : Option Nat), Acc Next (.ready ticket p) := by
    intro p
    induction Program.below_wellFounded.apply p with
    | intro p _ ih =>
      intro ticket
      refine ⟨_, fun s h => ?_⟩
      cases h with
      | finished => exact finished
      | waits h =>
        refine ⟨_, fun s' h' => ?_⟩
        cases h'
        exact ih _ h _
      | waitsOr hc h =>
        refine ⟨_, fun s' h' => ?_⟩
        cases h'
        · exact ih _ h _
        · exact ih _ hc _
  constructor
  intro s
  cases s with
  | finished => exact finished
  | ready ticket p => exact ready p ticket
  | waits moment ticket next =>
    refine ⟨_, fun s h => ?_⟩
    cases h
    exact ready _ _
  | waitsOr moment ticket place onCancel next =>
    refine ⟨_, fun s h => ?_⟩
    cases h <;> exact ready _ _

/-- A slot after one or more steps of its program. -/
def Later : Slot α → Slot α → Prop :=
  Relation.TransGen Next

theorem later_wellFounded : WellFounded (Later : Slot α → Slot α → Prop) :=
  next_wellFounded.transGen

/-- A halted program stands later than before it ran. -/
theorem later_ofHalt {halt : Halt α} {p : Program α} (ticket : Option Nat)
    (h : ∀ q ∈ halt.continuations, Below q p) : Later (ofHalt halt) (.ready ticket p) := by
  apply Relation.TransGen.single
  cases halt with
  | ended value => exact .finished ticket p
  | faulted => exact .finished ticket p
  | waits moment ticket next => exact .waits (h next (by simp [Halt.continuations]))
  | waitsOr moment ticket place onCancel next =>
    exact .waitsOr (h onCancel (by simp [Halt.continuations]))
      (h next (by simp [Halt.continuations]))

/-- A waiting program stands later when its moment has come. -/
theorem later_awake {s : Slot α} {moment : Duration} (h : s.moment? = some moment) :
    Later s.awake s := by
  apply Relation.TransGen.single
  cases s with
  | finished => simp [moment?] at h
  | ready ticket p => simp [moment?] at h
  | waits moment ticket next => exact .awake moment ticket next
  | waitsOr moment ticket place onCancel next => exact .awakeOr moment place ticket onCancel next

/-- A cancellation leaves a slot alone or moves it on. -/
theorem cancelled_eq_or_later (s : Slot α) : s.cancelled = s ∨ Later s.cancelled s := by
  cases s with
  | finished | ready | waits => exact Or.inl rfl
  | waitsOr moment ticket place onCancel next =>
    exact Or.inr (.single (.cancelled moment place ticket onCancel next))

end Slot

/-- Slots of which some have moved on and the others stayed. -/
inductive SlotsLater : List (Slot α) → List (Slot α) → Prop where
  /-- The first has moved on. -/
  | first {s s' : Slot α} {rest : List (Slot α)} (h : Slot.Later s' s) :
    SlotsLater (s' :: rest) (s :: rest)
  /-- Others have moved on. -/
  | others {s : Slot α} {rest rest' : List (Slot α)} (h : SlotsLater rest' rest) :
    SlotsLater (s :: rest') (s :: rest)
  /-- The first and others have moved on. -/
  | both {s s' : Slot α} {rest rest' : List (Slot α)} (h : Slot.Later s' s)
    (hr : SlotsLater rest' rest) : SlotsLater (s' :: rest') (s :: rest)

namespace SlotsLater

theorem wellFounded : WellFounded (SlotsLater : List (Slot α) → List (Slot α) → Prop) := by
  constructor
  intro slots
  induction slots with
  | nil => exact ⟨_, fun _ h => by cases h⟩
  | cons s rest ih =>
    induction Slot.later_wellFounded.apply s generalizing rest with
    | intro s _ ihs =>
      induction ih with
      | intro rest hrest ihr =>
        refine ⟨_, fun _ h => ?_⟩
        cases h with
        | first h => exact ihs _ h rest ⟨_, hrest⟩
        | others h => exact ihr _ h
        | both h hr => exact ihs _ h _ (hrest _ hr)

theorem trans {as bs cs : List (Slot α)} (h : SlotsLater as bs) (h' : SlotsLater bs cs) :
    SlotsLater as cs := by
  induction h' generalizing as with
  | first h' =>
    cases h with
    | first h => exact .first (Relation.TransGen.trans h h')
    | others h => exact .both h' h
    | both h hr => exact .both (Relation.TransGen.trans h h') hr
  | others _ ih =>
    cases h with
    | first h => exact .both h ‹_›
    | others h => exact .others (ih h)
    | both h hr => exact .both h (ih hr)
  | both h' _ ih =>
    cases h with
    | first h => exact .both (Relation.TransGen.trans h h') ‹_›
    | others h => exact .both h' (ih h)
    | both h hr => exact .both (Relation.TransGen.trans h h') (ih hr)

theorem of_set {slots : List (Slot α)} {i : Nat} {s s' : Slot α} (hs : slots[i]? = some s)
    (h : Slot.Later s' s) : SlotsLater (slots.set i s') slots := by
  induction slots generalizing i with
  | nil => simp at hs
  | cons a rest ih =>
    cases i with
    | zero =>
      simp only [List.getElem?_cons_zero, Option.some.injEq] at hs
      subst hs
      exact .first h
    | succ i =>
      simp only [List.getElem?_cons_succ] at hs
      exact .others (ih hs)

theorem of_modify {slots : List (Slot α)} {i : Nat} {s : Slot α} {f : Slot α → Slot α}
    (hs : slots[i]? = some s) (h : Slot.Later (f s) s) : SlotsLater (slots.modify i f) slots := by
  induction slots generalizing i with
  | nil => simp at hs
  | cons a rest ih =>
    cases i with
    | zero =>
      simp only [List.getElem?_cons_zero, Option.some.injEq] at hs
      subst hs
      simpa [List.modify] using SlotsLater.first h
    | succ i =>
      simp only [List.getElem?_cons_succ] at hs
      simpa [List.modify] using SlotsLater.others (ih hs)

theorem map_cancelled (slots : List (Slot α)) :
    slots.map Slot.cancelled = slots ∨ SlotsLater (slots.map Slot.cancelled) slots := by
  induction slots with
  | nil => exact Or.inl rfl
  | cons s rest ih =>
    simp only [List.map_cons]
    rcases s.cancelled_eq_or_later with hs | hs <;> rcases ih with hr | hr
    · exact Or.inl (by rw [hs, hr])
    · exact Or.inr (by rw [hs]; exact .others hr)
    · exact Or.inr (by rw [hr]; exact .first hs)
    · exact Or.inr (.both hs hr)

end SlotsLater

/-- A program that runs sets no cancellation that was not set before. -/
theorem cancelAt_advance (t : Transport σ) (p : Program α) (ticket : Option Nat) (w : World σ) :
    (advance t p ticket w).2.cancelAt = w.cancelAt ∨
      (advance t p ticket w).2.cancelAt = none := by
  -- sending a request may fire the cancellation but sets none
  have sent : ∀ (w : World σ) (r : Request),
      (w.send t r).2.cancelAt = w.cancelAt ∨ (w.send t r).2.cancelAt = none := by
    intro w r
    simp only [World.send]
    split
    · exact Or.inr rfl
    · exact Or.inl rfl
  have chain : ∀ {a b c : Option Duration}, a = b ∨ a = none → b = c ∨ b = none →
      a = c ∨ a = none := by
    intro a b c hab hbc
    rcases hab with rfl | rfl
    · exact hbc
    · exact Or.inr rfl
  induction p generalizing ticket w with
  | done value => exact Or.inl rfl
  | fault text => exact Or.inl rfl
  | report e next ih => exact chain (ih _ _) (Or.inl rfl)
  | ifCancelled next ih => exact ih _ _ _
  | fetch r next ih =>
    simp only [advance]
    split
    · exact chain (ih _ _ _) (sent w r)
    · exact sent w r
  | fetchOr r onCancel next _ ih =>
    simp only [advance]
    split
    · exact chain (ih _ _ _) (sent w r)
    · split
      · exact sent w r
      · exact sent w r
  | sleep d next ih =>
    simp only [advance]
    split
    · exact ih _ _
    · exact Or.inl rfl
  | sleepOr d onCancel next ihc ih =>
    simp only [advance]
    split
    · exact ih _ _
    · split
      · exact Or.inl rfl
      · split
        · exact ihc _ _
        · exact Or.inl rfl
  | watch next ih => exact chain (ih _ _) (Or.inl rfl)
  | unwatch next ih => exact ih _ _

namespace Batch

theorem earliest_mem {moment : Duration} {i j : Nat} {slots : List (Slot α)}
    (h : earliest i slots = some (moment, j)) :
    ∃ k s, j = i + k ∧ slots[k]? = some s ∧ s.moment? = some moment := by
  induction slots generalizing i with
  | nil => simp [earliest] at h
  | cons s rest ih =>
    -- the earliest is one of the others
    have later : earliest (i + 1) rest = some (moment, j) →
        ∃ k s', j = i + k ∧ (s :: rest)[k]? = some s' ∧ s'.moment? = some moment := by
      intro h
      obtain ⟨k, s', hj, hk, hm⟩ := ih h
      exact ⟨k + 1, s', by omega, by simpa using hk, hm⟩
    -- the earliest is the first
    have here : ∀ m, s.moment? = some m → (m, i) = (moment, j) →
        ∃ k s', j = i + k ∧ (s :: rest)[k]? = some s' ∧ s'.moment? = some moment := by
      intro m hm he
      simp only [Prod.mk.injEq] at he
      exact ⟨0, s, by omega, by simp, by rw [hm, he.1]⟩
    unfold earliest at h
    split at h
    · rename_i m best hm hbest
      split at h
      · exact here m hm (by simpa using h)
      · exact later (by rw [hbest]; exact h)
    · rename_i m hm _
      exact here m hm (by simpa using h)
    · exact later h

/-- Whether a cancellation is still to come, as a number. -/
def pending (b : Batch σ α) : Nat :=
  if b.world.cancelAt.isSome then 1 else 0

/-- The order in which batches go on: a cancellation that was to come has fired,
or programs have moved on, or the queue has become shorter. -/
def Later : Batch σ α → Batch σ α → Prop :=
  InvImage (Prod.Lex (· < ·) (Prod.Lex SlotsLater (· < ·)))
    fun b => (b.pending, b.slots, b.queue.length)

instance : WellFoundedRelation (Batch σ α) where
  rel := Later
  wf := InvImage.wf _
    (Prod.lex ⟨_, Nat.lt_wfRel.wf⟩ (Prod.lex ⟨_, SlotsLater.wellFounded⟩ Nat.lt_wfRel)).wf

theorem later_of_slots {b b' : Batch σ α} (hp : b'.pending ≤ b.pending)
    (hs : SlotsLater b'.slots b.slots) : Later b' b := by
  rcases Nat.lt_or_eq_of_le hp with h | h
  · exact Prod.Lex.left _ _ h
  · show Prod.Lex _ _ (b'.pending, _) (b.pending, _)
    rw [h]
    exact Prod.Lex.right _ (Prod.Lex.left _ _ hs)

theorem pending_le {b b' : Batch σ α}
    (h : b'.world.cancelAt = b.world.cancelAt ∨ b'.world.cancelAt = none) :
    b'.pending ≤ b.pending := by
  unfold pending
  rcases h with h | h <;> simp [h]

/-- A program that stands later makes the batch one that has gone on. -/
theorem later_place {b : Batch σ α} {w : World σ} {queue : List Nat} {i : Nat} {s s' : Slot α}
    {fires : Bool} (hw : w.cancelAt = b.world.cancelAt ∨ w.cancelAt = none)
    (hs : b.slots[i]? = some s) (h : Slot.Later s' s) : Later (b.place w queue i s' fires) b := by
  have hset : SlotsLater (b.slots.set i s') b.slots := SlotsLater.of_set hs h
  have hw' : (if fires then w.cancel else w).cancelAt = b.world.cancelAt ∨
      (if fires then w.cancel else w).cancelAt = none := by
    cases fires
    · simpa using hw
    · exact Or.inr rfl
  unfold place
  generalize (if fires then w.cancel else w) = w' at hw'
  simp only
  split
  · refine later_of_slots (pending_le hw') ?_
    rcases SlotsLater.map_cancelled (b.slots.set i s') with he | hl
    · simpa [endWaits, he] using hset
    · exact hl.trans hset
  · exact later_of_slots (pending_le hw') hset

/-- Every step goes on. -/
theorem later_of_step? {t : Transport σ} {cancels : α → Bool} {b b' : Batch σ α}
    {ended : Option α} (h : b.step? t cancels = some (b', ended)) : Later b' b := by
  -- the clock moves to a moment for which a program waits
  have later_wake : ∀ {moment : Duration} {i : Nat}, earliest 0 b.slots = some (moment, i) →
      Later (b.wake moment i) b := by
    intro moment i he
    obtain ⟨k, s, hj, hs, hm⟩ := earliest_mem he
    have hik : i = k := by omega
    subst hik
    exact later_of_slots (pending_le (Or.inl rfl)) (SlotsLater.of_modify hs (Slot.later_awake hm))
  unfold step? at h
  split at h
  · rename_i i queue hq
    split at h
    · rename_i ticket p hs
      simp only [Option.some.injEq] at h
      have hb := advance_below t p ticket b.world
      have hc := cancelAt_advance t p ticket b.world
      unfold runFirst at h
      simp only at h
      split at h
      · simp only [Prod.mk.injEq] at h
        rw [← h.1]
        exact later_place hc hs (Relation.TransGen.single (.finished ticket p))
      · simp only [Prod.mk.injEq] at h
        rw [← h.1]
        exact later_place hc hs (Slot.later_ofHalt ticket hb)
    · simp only [Option.some.injEq, Prod.mk.injEq] at h
      rw [← h.1]
      -- nothing happens, but the queue is shorter
      refine Prod.Lex.right _ (Prod.Lex.right _ ?_)
      simp [hq]
  · split at h
    · simp at h
    · rename_i moment i he
      split at h
      · rename_i c hc
        split at h
        · simp only [Option.some.injEq, Prod.mk.injEq] at h
          rw [← h.1]
          -- the cancellation was to come and has come
          refine Prod.Lex.left _ _ ?_
          simp [pending, cancelNow, endWaits, World.cancel, hc]
        · simp only [Option.some.injEq, Prod.mk.injEq] at h
          rw [← h.1]
          exact later_wake he
      · simp only [Option.some.injEq, Prod.mk.injEq] at h
        rw [← h.1]
        exact later_wake he

/-- Lets a batch run to its end: the values with which its programs have ended, in
the order in which they did and each with its moment, and the world after it. -/
def drain (t : Transport σ) (cancels : α → Bool) (b : Batch σ α) : List (Duration × α) × World σ :=
  match _hstep : b.step? t cancels with
  | none => ([], b.world)
  | some (b', ended) =>
    let (values, w) := drain t cancels b'
    ((ended.map (b'.world.now, ·)).toList ++ values, w)
termination_by b
decreasing_by exact later_of_step? (by assumption)

theorem drain_of_step?_eq_none {t : Transport σ} {cancels : α → Bool} {b : Batch σ α}
    (h : b.step? t cancels = none) : b.drain t cancels = ([], b.world) := by
  rw [drain]
  split
  · rfl
  · rename_i hs
    rw [h] at hs
    cases hs

theorem drain_of_step?_eq_some {t : Transport σ} {cancels : α → Bool} {b b' : Batch σ α}
    {ended : Option α} (h : b.step? t cancels = some (b', ended)) :
    b.drain t cancels = ((ended.map (b'.world.now, ·)).toList ++ (b'.drain t cancels).1,
      (b'.drain t cancels).2) := by
  rw [drain]
  split
  · rename_i hs
    rw [h] at hs
    cases hs
  · rename_i hs
    rw [h] at hs
    cases hs
    rfl

end Batch

/-- **Runs programs side by side**: the values with which they have ended, in the
order in which they did and each with its moment, and the world after them. A
value may fire the cancellation. -/
def runAll (t : Transport σ) (cancels : α → Bool) (w : World σ) (programs : List (Program α)) :
    List (Duration × α) × World σ :=
  (Batch.start w programs).drain t cancels

/-- Nothing happens without programs. -/
theorem runAll_nil (t : Transport σ) (cancels : α → Bool) (w : World σ) :
    runAll t cancels w [] = ([], w) := by
  unfold runAll Batch.drain
  rfl

/-- A program alone that does not have to wait ends at once. -/
theorem runAll_singleton {t : Transport σ} {cancels : α → Bool} {w : World σ} {p : Program α}
    {value : α} (h : (advance t p none w).1.value? = some value) (hc : cancels value = false) :
    runAll t cancels w [p] = ([((advance t p none w).2.now, value)], (advance t p none w).2) := by
  have hstep : (Batch.start w [p]).step? t cancels =
      some ((Batch.start w [p]).place (advance t p none w).2 [] 0 .finished false, some value) := by
    rcases hrun : advance t p none w with ⟨halt, w'⟩
    rw [hrun] at h
    cases halt with
    | ended v =>
      cases h
      simp [Batch.step?, Batch.start, Batch.runFirst, hrun, hc]
    | _ => cases h
  -- there is no wait for the cancellation to end
  have hplace : (Batch.start w [p]).place (advance t p none w).2 [] 0 .finished false =
      ⟨(advance t p none w).2, [], [.finished]⟩ := by
    rw [Batch.place, if_neg Bool.false_ne_true]
    simp only
    split
    · simp [Batch.endWaits, Batch.line, Batch.start, Slot.cancelled, Slot.place?]
    · rfl
  rw [hplace] at hstep
  rw [runAll, Batch.drain_of_step?_eq_some hstep, Batch.drain_of_step?_eq_none rfl]
  rfl

/-- Runs one program alone: the value with which it has ended, unless that was a
fault, and the world after it. -/
def run (t : Transport σ) (w : World σ) (p : Program α) : Option α × World σ :=
  let (values, w) := runAll t (fun _ => false) w [p]
  (values.head?.map (·.2), w)

end Syndication
