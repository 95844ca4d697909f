import Mathlib.Data.List.Chain
import Syndication.Proofs.Program.Course

/-!
# Programs whose requests are answered

A course leaves open what comes back for a request. When the answers are fixed, nothing is
left open but the cancellation: as long as that does not fire, a program has one course. So
whatever else happens in the meantime, at whatever moments the replies arrive, the program
shows the same and ends the same.

* `Course.eq_of_answered`: there is one course at most.
* `exists_answered_course`: there is one.
-/

namespace Syndication

/-- Whether a reply is seen. -/
def Act.isReply : Act → Bool
  | .receive _ => true
  | _ => false

/-- What is seen in a course, without the marks. -/
def actsOf (log : List Entry) : List Act :=
  log.map Entry.act

@[simp] theorem actsOf_nil : actsOf [] = [] := rfl

@[simp] theorem actsOf_cons (b : Bool) (act : Act) (log : List Entry) :
    actsOf (⟨b, act⟩ :: log) = act :: actsOf log := rfl

@[simp] theorem actsOf_append (log log' : List Entry) :
    actsOf (log ++ log') = actsOf log ++ actsOf log' :=
  List.map_append

/-- Every reply that is seen is an answer to the request right before it. -/
def Answered (answers : Request → Reply → Prop) (shown : List Act) : Prop :=
  shown.IsChain fun act act' =>
    ∀ reply, act' = .receive reply → ∃ r, act = .send r ∧ answers r reply

namespace Answered

variable {answers answers' : Request → Reply → Prop} {shown shown' : List Act}

theorem nil : Answered answers [] :=
  List.IsChain.nil

theorem mono (h : Answered answers shown) (hle : ∀ r reply, answers r reply → answers' r reply) :
    Answered answers' shown :=
  h.imp fun _ _ hr reply he => (hr reply he).imp fun r => .imp_right (hle r reply)

/-- What is seen besides replies needs no answer. -/
theorem cons {act : Act} (h : Answered answers shown)
    (hnone : ∀ reply, shown.head? ≠ some (.receive reply)) : Answered answers (act :: shown) := by
  refine List.isChain_cons.2 ⟨fun act' hact reply he => ?_, h⟩
  rw [he] at hact
  exact absurd hact (hnone reply)

/-- A request and its reply. -/
theorem exchange {r : Request} {reply : Reply} (hr : answers r reply)
    (h : Answered answers shown) (hnone : ∀ reply, shown.head? ≠ some (.receive reply)) :
    Answered answers (.send r :: .receive reply :: shown) := by
  refine List.isChain_cons_cons.2 ⟨fun reply' he => ⟨r, rfl, ?_⟩, h.cons hnone⟩
  cases he
  exact hr

/-- What follows and is no reply needs no answer. -/
theorem concat (h : Answered answers shown) (act : Act) (hact : act.isReply = false) :
    Answered answers (shown ++ [act]) := by
  refine List.IsChain.append h (List.isChain_singleton act) fun before _ next hnext reply he => ?_
  cases hnext
  rw [he] at hact
  cases hact

/-- The reply to a request that was the last to be seen. -/
theorem concat_reply {r : Request} {reply : Reply} (h : Answered answers (shown ++ [.send r]))
    (hr : answers r reply) : Answered answers (shown ++ [.send r] ++ [.receive reply]) := by
  refine List.IsChain.append h (List.isChain_singleton _) ?_
  intro before hbefore next hnext reply' he
  cases hnext
  cases he
  rw [List.getLast?_concat] at hbefore
  exact ⟨r, (Option.some.inj hbefore).symm, hr⟩

theorem of_exchange {r : Request} {reply : Reply}
    (h : Answered answers (.send r :: .receive reply :: shown)) :
    answers r reply ∧ Answered answers shown := by
  obtain ⟨hfirst, hrest⟩ := List.isChain_cons_cons.1 h
  obtain ⟨r', hr', hanswers⟩ := hfirst reply rfl
  cases hr'
  exact ⟨hanswers, hrest.tail⟩

theorem left (h : Answered answers (shown ++ shown')) : Answered answers shown :=
  h.left_of_append

end Answered

namespace Program

variable {α : Type} {p : Program α} {b : Bool} {log log' : List Entry} {x x' : Ending α}

/-- Before the end the cancellation has not fired if it has not by the end. -/
theorem Course.unfired (h : p.Course b log false x) : b = false :=
  Bool.eq_false_of_le_false h.fired_le

/-- No course begins with a reply. -/
theorem Course.head?_ne_receive {b' : Bool} (h : p.Course b log b' x) (reply : Reply) :
    (actsOf log).head? ≠ some (.receive reply) := by
  induction h with
  | ifCancelled _ ih | watch _ ih | unwatch _ ih => exact ih
  | _ => simp

/-- **A program has one course at most** when the answers are fixed and the cancellation does
not fire. -/
theorem Course.eq_of_answered {answers : Request → Reply → Prop}
    (hfixed : ∀ r reply reply', answers r reply → answers r reply' → reply = reply')
    (h : p.Course false log false x) (h' : p.Course false log' false x')
    (ha : Answered answers (actsOf log)) (ha' : Answered answers (actsOf log')) :
    log = log' ∧ x = x' := by
  -- node by node: both courses go on with the same program
  induction p generalizing log log' with
  | done a =>
    obtain ⟨rfl, -, rfl⟩ := course_done.1 h
    obtain ⟨rfl, -, rfl⟩ := course_done.1 h'
    exact ⟨rfl, rfl⟩
  | fault text =>
    obtain ⟨rfl, -, rfl⟩ := course_fault.1 h
    obtain ⟨rfl, -, rfl⟩ := course_fault.1 h'
    exact ⟨rfl, rfl⟩
  | report e next ih =>
    cases h with
    | report h =>
      cases h' with
      | report h' =>
        obtain ⟨rfl, rfl⟩ := ih h h' ha.tail ha'.tail
        exact ⟨rfl, rfl⟩
  | ifCancelled next ih =>
    cases h with
    | ifCancelled h =>
      cases h' with
      | ifCancelled h' => exact ih false h h' ha ha'
  | fetch r next ih =>
    cases h with
    | fetch reply _ h =>
      cases h' with
      | fetch reply' _ h' =>
        cases h.unfired
        cases h'.unfired
        obtain ⟨hr, hrest⟩ := ha.of_exchange
        obtain ⟨hr', hrest'⟩ := ha'.of_exchange
        cases hfixed r reply reply' hr hr'
        obtain ⟨rfl, rfl⟩ := ih reply h h' hrest hrest'
        exact ⟨rfl, rfl⟩
  | fetchOr r onCancel next _ ih =>
    cases h with
    | fetchCut h => cases h.unfired
    | fetchOr reply _ h =>
      cases h' with
      | fetchCut h' => cases h'.unfired
      | fetchOr reply' _ h' =>
        cases h.unfired
        cases h'.unfired
        obtain ⟨hr, hrest⟩ := ha.of_exchange
        obtain ⟨hr', hrest'⟩ := ha'.of_exchange
        cases hfixed r reply reply' hr hr'
        obtain ⟨rfl, rfl⟩ := ih reply h h' hrest hrest'
        exact ⟨rfl, rfl⟩
  | sleep d next ih =>
    cases h with
    | sleep _ h =>
      cases h' with
      | sleep _ h' =>
        cases h.unfired
        cases h'.unfired
        obtain ⟨rfl, rfl⟩ := ih h h' ha.tail.tail ha'.tail.tail
        exact ⟨rfl, rfl⟩
  | sleepOr d onCancel next _ ih =>
    cases h with
    | sleepCut h => cases h.unfired
    | sleepOr _ h =>
      cases h' with
      | sleepCut h' => cases h'.unfired
      | sleepOr _ h' =>
        cases h.unfired
        cases h'.unfired
        obtain ⟨rfl, rfl⟩ := ih h h' ha.tail.tail ha'.tail.tail
        exact ⟨rfl, rfl⟩
  | watch next ih =>
    cases h with
    | watch h =>
      cases h' with
      | watch h' => exact ih h h' ha ha'
  | unwatch next ih =>
    cases h with
    | unwatch h =>
      cases h' with
      | unwatch h' => exact ih h h' ha ha'

/-- **A program has a course** whatever the answers are, without a cancellation. -/
theorem exists_answered_course (p : Program α) (answer : Request → Reply) :
    ∃ log x, p.Course false log false x ∧
      Answered (fun r reply => reply = answer r) (actsOf log) := by
  induction p with
  | done a => exact ⟨[], _, .done, .nil⟩
  | fault text => exact ⟨[], _, .fault, .nil⟩
  | report e next ih =>
    obtain ⟨log, x, h, ha⟩ := ih
    exact ⟨_, x, .report h, ha.cons h.head?_ne_receive⟩
  | ifCancelled next ih =>
    obtain ⟨log, x, h, ha⟩ := ih false
    exact ⟨log, x, .ifCancelled h, ha⟩
  | fetch r next ih =>
    obtain ⟨log, x, h, ha⟩ := ih (answer r)
    exact ⟨_, x, .fetch (answer r) le_rfl h, ha.exchange rfl h.head?_ne_receive⟩
  | fetchOr r onCancel next _ ih =>
    obtain ⟨log, x, h, ha⟩ := ih (answer r)
    exact ⟨_, x, .fetchOr (answer r) le_rfl h, .exchange rfl ha h.head?_ne_receive⟩
  | sleep d next ih =>
    obtain ⟨log, x, h, ha⟩ := ih
    exact ⟨_, x, .sleep le_rfl h, .cons (ha.cons h.head?_ne_receive) nofun⟩
  | sleepOr d onCancel next _ ih =>
    obtain ⟨log, x, h, ha⟩ := ih
    exact ⟨_, x, .sleepOr le_rfl h, .cons (ha.cons h.head?_ne_receive) nofun⟩
  | watch next ih =>
    obtain ⟨log, x, h, ha⟩ := ih
    exact ⟨log, x, .watch h, ha⟩
  | unwatch next ih =>
    obtain ⟨log, x, h, ha⟩ := ih
    exact ⟨log, x, .unwatch h, ha⟩

end Program

end Syndication
