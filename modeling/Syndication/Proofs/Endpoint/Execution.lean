import Syndication.Endpoint.Execution
import Syndication.Proofs.Program.Realised

/-!
# What executing an endpoint comes to

The courses of an execution are known in full. First the hooks that are in force are asked, the one
for headers and then, if there is a body, the one for bodies; when one of them fails, nothing is
sent. Otherwise one request is sent, with what they have made of it, and the reply alone decides
what comes of the execution. The hooks may do whatever they like meanwhile, so a statement about
them is one about their courses.

* `Prepares`: what the hooks make of a request, and `course_prepare` that they do.
* `Endpoint.Verdict`: what a reply means for an endpoint. There is one verdict for each reply
  (`Endpoint.verdict_iff`).
* `execute_outcome`: the courses of an execution.
-/

namespace Syndication

variable {α : Type} {b b' : Bool} {log : List Entry}

/-! ### Hooks -/

namespace Executor

/-- **A hook is asked** when it is in force, and then goes one of its courses; otherwise nothing is
seen and the answer is the one for a hook that is not asked. -/
def Asked (inForce : Bool) (hook : Program (Except HookError α)) (unasked : α) (b : Bool)
    (log : List Entry) (b' : Bool) (answer : Ending (Except HookError α)) : Prop :=
  if inForce then hook.Course b log b' answer
  else log = [] ∧ b' = b ∧ answer = .value (.ok unasked)

/-- A request of which a hook may change a part. -/
theorem course_asked (inForce : Bool) (hook : Program (Except HookError α)) (unasked : α)
    (change : α → Request) {r : Request} (hr : change unasked = r)
    {y : Ending (Except HookError Request)} :
    (if inForce then hook >>= fun answer => pure (answer.map change)
      else pure (.ok r) : Program (Except HookError Request)).Course b log b' y ↔
    (∃ a, Asked inForce hook unasked b log b' (.value (.ok a)) ∧ y = .value (.ok (change a))) ∨
    (∃ cause, Asked inForce hook unasked b log b' (.value (.error cause)) ∧
      y = .value (.error cause)) ∨
    ∃ text, Asked inForce hook unasked b log b' (.fault text) ∧ y = .fault text := by
  subst hr
  cases inForce with
  | true =>
    show ((hook >>= fun answer => pure (answer.map change)).Course b log b' y) ↔ _
    rw [← map_eq_pure_bind, Program.course_map]
    constructor
    · rintro (⟨answer, h, rfl⟩ | ⟨text, h, rfl⟩)
      · cases answer with
        | ok a => exact .inl ⟨a, h, rfl⟩
        | error cause => exact .inr (.inl ⟨cause, h, rfl⟩)
      · exact .inr (.inr ⟨text, h, rfl⟩)
    · rintro (⟨a, h, rfl⟩ | ⟨cause, h, rfl⟩ | ⟨text, h, rfl⟩)
      · exact .inl ⟨_, h, rfl⟩
      · exact .inl ⟨_, h, rfl⟩
      · exact .inr ⟨text, h, rfl⟩
  | false =>
    show ((pure (.ok (change unasked)) : Program (Except HookError Request)).Course b log b' y) ↔ _
    rw [Program.course_pure]
    constructor
    · rintro ⟨rfl, rfl, rfl⟩
      exact .inl ⟨unasked, ⟨rfl, rfl, rfl⟩, rfl⟩
    · rintro (⟨a, ⟨hlog, hb, ha⟩, rfl⟩ | ⟨cause, ⟨-, -, hcause⟩, -⟩ | ⟨text, ⟨-, -, htext⟩, -⟩)
      · cases ha
        exact ⟨hlog, hb, rfl⟩
      · cases hcause
      · cases htext

variable (x : Executor) (e : Endpoint) (c : Context)

/-- The hook for headers is asked about the request of an endpoint. -/
def AskedHeaders (b : Bool) (log : List Entry) (b' : Bool)
    (answer : Ending (Except HookError (KeyMap String))) : Prop :=
  Asked x.beforeRequest (x.hooks.beforeRequest (e.request c).url c) [] b log b' answer

/-- The hook for bodies is asked about the request of an endpoint, if that has a body. -/
def AskedBody (b : Bool) (log : List Entry) (b' : Bool)
    (answer : Ending (Except HookError Body)) : Prop :=
  Asked (x.prepareBody && !(e.request c).body.isEmpty)
    (x.hooks.prepareBody (e.request c).url (e.request c).body c) (e.request c).body b log b' answer

/-- **What the hooks make of the request** of an endpoint: the one for headers is asked first, and
the first that fails or has a fault ends it. -/
inductive Prepares (b : Bool) :
    List Entry → Bool → Ending (Except HookError Request) → Prop where
  /-- The hook for headers has failed. -/
  | headersFail {log : List Entry} {b' : Bool} {cause : HookError}
    (h : x.AskedHeaders e c b log b' (.value (.error cause))) :
    Prepares b log b' (.value (.error cause))
  | headersFault {log : List Entry} {b' : Bool} {text : Option String}
    (h : x.AskedHeaders e c b log b' (.fault text)) : Prepares b log b' (.fault text)
  /-- The hook for bodies has failed. -/
  | bodyFail {log log' : List Entry} {b₁ b' : Bool} {headers : KeyMap String} {cause : HookError}
    (h : x.AskedHeaders e c b log b₁ (.value (.ok headers)))
    (h' : x.AskedBody e c b₁ log' b' (.value (.error cause))) :
    Prepares b (log ++ log') b' (.value (.error cause))
  | bodyFault {log log' : List Entry} {b₁ b' : Bool} {headers : KeyMap String}
    {text : Option String} (h : x.AskedHeaders e c b log b₁ (.value (.ok headers)))
    (h' : x.AskedBody e c b₁ log' b' (.fault text)) :
    Prepares b (log ++ log') b' (.fault text)
  /-- The request is ready to be sent, with the headers of the one hook set and the body of the
  other. -/
  | ready {log log' : List Entry} {b₁ b' : Bool} {headers : KeyMap String} {body : Body}
    (h : x.AskedHeaders e c b log b₁ (.value (.ok headers)))
    (h' : x.AskedBody e c b₁ log' b' (.value (.ok body))) :
    Prepares b (log ++ log') b' (.value (.ok
      { e.request c with headers := mergeHeaders (e.request c).headers headers, body }))

variable {x e c}

theorem course_withHeaders {y : Ending (Except HookError Request)} :
    (x.withHeaders (e.request c) c).Course b log b' y ↔
      (∃ headers, x.AskedHeaders e c b log b' (.value (.ok headers)) ∧ y = .value (.ok
        { e.request c with headers := mergeHeaders (e.request c).headers headers })) ∨
      (∃ cause, x.AskedHeaders e c b log b' (.value (.error cause)) ∧ y = .value (.error cause)) ∨
      ∃ text, x.AskedHeaders e c b log b' (.fault text) ∧ y = .fault text :=
  course_asked x.beforeRequest (x.hooks.beforeRequest (e.request c).url c) []
    (fun headers => { e.request c with headers := mergeHeaders (e.request c).headers headers }) rfl

/-- The hook for headers has left the address and the body as they are. -/
theorem course_withBody {headers : KeyMap String} {y : Ending (Except HookError Request)} :
    (x.withBody { e.request c with headers } c).Course b log b' y ↔
      (∃ body, x.AskedBody e c b log b' (.value (.ok body)) ∧
        y = .value (.ok { e.request c with headers, body })) ∨
      (∃ cause, x.AskedBody e c b log b' (.value (.error cause)) ∧ y = .value (.error cause)) ∨
      ∃ text, x.AskedBody e c b log b' (.fault text) ∧ y = .fault text :=
  course_asked (x.prepareBody && !(e.request c).body.isEmpty)
    (x.hooks.prepareBody (e.request c).url (e.request c).body c) (e.request c).body
    (fun body => { e.request c with headers, body }) rfl

/-- **The courses of the hooks.** -/
theorem course_prepare {y : Ending (Except HookError Request)} :
    (x.prepare e c).Course b log b' y ↔ x.Prepares e c b log b' y := by
  constructor
  · intro h
    obtain ⟨log₁, b₁, result, log₂, hfirst, hrest, rfl⟩ | ⟨text, hfirst, rfl⟩ :=
      Program.course_bind.1 h
    · obtain ⟨headers, hheaders, hv⟩ | ⟨cause, hheaders, hv⟩ | ⟨text, -, hv⟩ :=
        course_withHeaders.1 hfirst
      · cases hv
        obtain ⟨body, hbody, rfl⟩ | ⟨cause, hbody, rfl⟩ | ⟨text, hbody, rfl⟩ :=
          course_withBody.1 hrest
        · exact .ready hheaders hbody
        · exact .bodyFail hheaders hbody
        · exact .bodyFault hheaders hbody
      · cases hv
        obtain ⟨rfl, rfl, rfl⟩ := Program.course_pure.1 hrest
        rw [List.append_nil]
        exact .headersFail hheaders
      · cases hv
    · obtain ⟨headers, -, hv⟩ | ⟨cause, -, hv⟩ | ⟨text, hheaders, hv⟩ :=
        course_withHeaders.1 hfirst
      · cases hv
      · cases hv
      · cases hv
        exact .headersFault hheaders
  · intro h
    refine Program.course_bind.2 ?_
    cases h with
    | @headersFail log b' cause h =>
      exact .inl ⟨log, b', .error cause, [], course_withHeaders.2 (.inr (.inl ⟨cause, h, rfl⟩)),
        Program.course_pure.2 ⟨rfl, rfl, rfl⟩, (List.append_nil log).symm⟩
    | @headersFault log b' text h =>
      exact .inr ⟨text, course_withHeaders.2 (.inr (.inr ⟨text, h, rfl⟩)), rfl⟩
    | bodyFail h h' =>
      exact .inl ⟨_, _, _, _, course_withHeaders.2 (.inl ⟨_, h, rfl⟩),
        course_withBody.2 (.inr (.inl ⟨_, h', rfl⟩)), rfl⟩
    | bodyFault h h' =>
      exact .inl ⟨_, _, _, _, course_withHeaders.2 (.inl ⟨_, h, rfl⟩),
        course_withBody.2 (.inr (.inr ⟨_, h', rfl⟩)), rfl⟩
    | ready h h' =>
      exact .inl ⟨_, _, _, _, course_withHeaders.2 (.inl ⟨_, h, rfl⟩),
        course_withBody.2 (.inl ⟨_, h', rfl⟩), rfl⟩

end Executor

/-! ### Replies -/

/-- The value that an answer is: the JSON value that its text writes, or the text if that is no
JSON. -/
def Response.Holds (r : Response) (value : Json) : Prop :=
  Json.parse? r.text = some value ∨ Json.parse? r.text = none ∧ value = .string r.text

theorem Response.holds_iff {r : Response} {value : Json} : r.Holds value ↔ value = r.value := by
  unfold Holds Response.value
  cases Json.parse? r.text with
  | none => simp
  | some v => simp [eq_comm]

/-- The text of a refusal: what the error expression finds, or one for all if that is nothing. -/
def ResponseContract.Words (contract : ResponseContract) (value : Json) (message : String) : Prop :=
  (message ≠ "" ∧ ∃ error, contract.error = some error ∧
    renderValue (error.evaluate value) = message) ∨
  message = "success check failed" ∧ ∀ error, contract.error = some error →
    renderValue (error.evaluate value) = ""

theorem ResponseContract.words_iff {contract : ResponseContract} {value : Json}
    {message : String} : contract.Words value message ↔ message = contract.rejection value := by
  unfold Words rejection defaultRejection
  cases contract.error with
  | none => simp
  | some error =>
    simp only [Option.some.injEq, exists_eq_left', forall_eq']
    generalize renderValue (error.evaluate value) = text
    by_cases hempty : text = ""
    · subst hempty
      constructor
      · rintro (⟨hne, rfl⟩ | ⟨rfl, -⟩)
        · exact absurd rfl hne
        · rfl
      · rintro rfl
        exact .inr ⟨rfl, rfl⟩
    · have hsome : text.isEmpty = false := by simpa using hempty
      rw [hsome]
      constructor
      · rintro (⟨-, rfl⟩ | ⟨-, hnone⟩)
        · rfl
        · exact absurd hnone hempty
      · rintro rfl
        exact .inl ⟨hempty, rfl⟩

namespace ResponseContract

variable {contract : ResponseContract} {value : Json}

theorem accepts_eq_true_iff : contract.accepts value = true ↔
    ∀ success, contract.success = some success → success.test value = true := by
  unfold accepts
  cases contract.success <;> simp

theorem accepts_eq_false_iff : contract.accepts value = false ↔
    ∃ success, contract.success = some success ∧ success.test value = false := by
  unfold accepts
  cases contract.success <;> simp

theorem mem_outputs_iff {name : String} {found : Json} :
    (name, found) ∈ contract.outputs value ↔
      ∃ expression, (name, expression) ∈ contract.extract ∧
        expression.evaluate value = some found := by
  unfold outputs
  rw [List.mem_filterMap]
  constructor
  · rintro ⟨⟨name', expression⟩, hmem, hfound⟩
    obtain ⟨found', hfound', hpair⟩ := Option.map_eq_some_iff.1 hfound
    cases hpair
    exact ⟨expression, hmem, hfound'⟩
  · rintro ⟨expression, hmem, hfound⟩
    exact ⟨(name, expression), hmem, Option.map_eq_some_iff.2 ⟨found, hfound, rfl⟩⟩

theorem keys_outputs (contract : ResponseContract) (value : Json) :
    (contract.outputs value).keys.Sublist contract.extract.keys := by
  unfold outputs KeyMap.keys
  induction contract.extract with
  | nil => exact List.Sublist.refl _
  | cons entry rest ih =>
    obtain ⟨name, expression⟩ := entry
    cases hfound : expression.evaluate value with
    | none => simpa [hfound] using ih.cons name
    | some found => simpa [hfound] using ih.cons_cons name

end ResponseContract

namespace Endpoint

variable {e : Endpoint} {reply : Reply} {y : Ending (Except ExecuteError Execution)}

/-- A status is accepted when it is one of success or listed. -/
def Takes (e : Endpoint) (status : Nat) : Prop :=
  (200 ≤ status ∧ status < 300) ∨ status ∈ e.acceptStatus

theorem takes_iff {status : Nat} : e.Takes status ↔ e.accepts status = true := by
  simp [Takes, accepts, isSuccessStatus]

/-- **What a reply means for an endpoint.** -/
structure Verdict (e : Endpoint) (reply : Reply) (y : Ending (Except ExecuteError Execution)) :
    Prop where
  fault_iff : ∀ text, y = .fault text ↔ reply = .fault text
  /-- It is a failure of transport when there is no answer or its status is not accepted. -/
  transport_iff : ∀ cause, y = .value (.error (.transport e.name cause)) ↔
    reply = .failure cause ∨
    ∃ r, reply = .answer r ∧ ¬ e.Takes r.status ∧ cause = .status r.status (errorBody r)
  /-- It is a refusal when the status is accepted but the success expression does not hold. -/
  rejected_iff : ∀ message, y = .value (.error (.rejected e.name message)) ↔
    ∃ r value success, reply = .answer r ∧ e.Takes r.status ∧ r.Holds value ∧
      e.response.success = some success ∧ success.test value = false ∧
      e.response.Words value message
  /-- It is a success when the status is accepted and no success expression speaks against it. -/
  ok_iff : ∀ result, y = .value (.ok result) ↔
    ∃ r, reply = .answer r ∧ e.Takes r.status ∧ r.Holds result.response ∧
      (∀ success, e.response.success = some success → success.test result.response = true) ∧
      result.status = r.status ∧ result.outputs = e.response.outputs result.response
  /-- The outputs are what the extract expressions find. -/
  mem_outputs_iff : ∀ result, y = .value (.ok result) → ∀ name value,
    (name, value) ∈ result.outputs ↔
      ∃ expression, (name, expression) ∈ e.response.extract ∧
        expression.evaluate result.response = some value
  /-- Their names are among those of the extract expressions, in the same order. -/
  keys_outputs : ∀ result, y = .value (.ok result) →
    result.outputs.keys.Sublist e.response.extract.keys
  message_ne_empty : ∀ message, y = .value (.error (.rejected e.name message)) → message ≠ ""
  not_rejected : e.response.success = none →
    ∀ message, y ≠ .value (.error (.rejected e.name message))

/-- The three things that an answer may mean. -/
theorem understand_cases (e : Endpoint) (r : Response) :
    (¬ e.Takes r.status ∧
      e.understand r = .error (.transport e.name (.status r.status (errorBody r)))) ∨
    (e.Takes r.status ∧ e.response.accepts r.value = false ∧
      e.understand r = .error (.rejected e.name (e.response.rejection r.value))) ∨
    (e.Takes r.status ∧ e.response.accepts r.value = true ∧
      e.understand r = .ok ⟨r.status, r.value, e.response.outputs r.value⟩) := by
  rw [takes_iff, understand]
  cases haccepts : e.accepts r.status with
  | false => exact .inl ⟨nofun, rfl⟩
  | true =>
    cases hsuccess : e.response.accepts r.value with
    | false => exact .inr (.inl ⟨rfl, rfl, by simp [hsuccess]⟩)
    | true => exact .inr (.inr ⟨rfl, rfl, by simp [hsuccess]⟩)

/-- What comes of the execution of an endpoint after a reply. -/
def after (e : Endpoint) : Reply → Ending (Except ExecuteError Execution)
  | .answer r => .value (e.understand r)
  | .failure cause => .value (.error (.transport e.name cause))
  | .fault text => .fault text

theorem after_eq_fault_iff {text : Option String} :
    e.after reply = .fault text ↔ reply = .fault text := by
  cases reply <;> simp [after]

theorem after_eq_transport_iff {cause : TransportError} :
    e.after reply = .value (.error (.transport e.name cause)) ↔
      reply = .failure cause ∨
      ∃ r, reply = .answer r ∧ ¬ e.Takes r.status ∧ cause = .status r.status (errorBody r) := by
  cases reply with
  | answer r =>
    rcases e.understand_cases r with ⟨htakes, h⟩ | ⟨htakes, -, h⟩ | ⟨htakes, -, h⟩
    · simpa [after, h, htakes] using eq_comm
    · simp [after, h, htakes]
    · simp [after, h, htakes]
  | failure cause' => simp [after]
  | fault text => simp [after]

theorem after_eq_rejected_iff {message : String} :
    e.after reply = .value (.error (.rejected e.name message)) ↔
      ∃ r, reply = .answer r ∧ e.Takes r.status ∧ e.response.accepts r.value = false ∧
        message = e.response.rejection r.value := by
  cases reply with
  | answer r =>
    rcases e.understand_cases r with ⟨htakes, h⟩ | ⟨htakes, hrefused, h⟩ | ⟨htakes, haccepted, h⟩
    · simp [after, h, htakes]
    · simpa [after, h, htakes, hrefused] using eq_comm
    · simp [after, h, htakes, haccepted]
  | failure cause => simp [after]
  | fault text => simp [after]

theorem after_eq_ok_iff {result : Execution} :
    e.after reply = .value (.ok result) ↔
      ∃ r, reply = .answer r ∧ e.Takes r.status ∧ e.response.accepts r.value = true ∧
        result = ⟨r.status, r.value, e.response.outputs r.value⟩ := by
  cases reply with
  | answer r =>
    rcases e.understand_cases r with ⟨htakes, h⟩ | ⟨htakes, hrefused, h⟩ | ⟨htakes, haccepted, h⟩
    · simp [after, h, htakes]
    · simp [after, h, htakes, hrefused]
    · simpa [after, h, htakes, haccepted] using eq_comm
  | failure cause => simp [after]
  | fault text => simp [after]

/-- There is nothing else that may come of it. -/
theorem after_cases (e : Endpoint) (reply : Reply) :
    (∃ text, e.after reply = .fault text) ∨
    (∃ cause, e.after reply = .value (.error (.transport e.name cause))) ∨
    (∃ message, e.after reply = .value (.error (.rejected e.name message))) ∨
    ∃ result, e.after reply = .value (.ok result) := by
  cases reply with
  | answer r =>
    rcases e.understand_cases r with ⟨-, h⟩ | ⟨-, -, h⟩ | ⟨-, -, h⟩
    · exact .inr (.inl ⟨_, congrArg Ending.value h⟩)
    · exact .inr (.inr (.inl ⟨_, congrArg Ending.value h⟩))
    · exact .inr (.inr (.inr ⟨_, congrArg Ending.value h⟩))
  | failure cause => exact .inr (.inl ⟨cause, rfl⟩)
  | fault text => exact .inl ⟨text, rfl⟩

theorem verdict_after (e : Endpoint) (reply : Reply) : e.Verdict reply (e.after reply) where
  fault_iff text := after_eq_fault_iff
  transport_iff cause := after_eq_transport_iff
  rejected_iff message := by
    rw [after_eq_rejected_iff]
    constructor
    · rintro ⟨r, rfl, htakes, hrefused, hmessage⟩
      obtain ⟨success, hsuccess, htest⟩ := ResponseContract.accepts_eq_false_iff.1 hrefused
      exact ⟨r, r.value, success, rfl, htakes, Response.holds_iff.2 rfl, hsuccess, htest,
        ResponseContract.words_iff.2 hmessage⟩
    · rintro ⟨r, value, success, rfl, htakes, hholds, hsuccess, htest, hwords⟩
      obtain rfl := Response.holds_iff.1 hholds
      exact ⟨r, rfl, htakes, ResponseContract.accepts_eq_false_iff.2 ⟨success, hsuccess, htest⟩,
        ResponseContract.words_iff.1 hwords⟩
  ok_iff result := by
    rw [after_eq_ok_iff]
    constructor
    · rintro ⟨r, rfl, htakes, haccepted, rfl⟩
      exact ⟨r, rfl, htakes, Response.holds_iff.2 rfl,
        ResponseContract.accepts_eq_true_iff.1 haccepted, rfl, rfl⟩
    · rintro ⟨r, rfl, htakes, hholds, haccepted, hstatus, houtputs⟩
      obtain ⟨status, value, outputs⟩ := result
      obtain rfl := Response.holds_iff.1 hholds
      obtain rfl : status = r.status := hstatus
      obtain rfl : outputs = e.response.outputs r.value := houtputs
      exact ⟨r, rfl, htakes, ResponseContract.accepts_eq_true_iff.2 haccepted, rfl⟩
  mem_outputs_iff result h name value := by
    obtain ⟨r, -, -, -, rfl⟩ := after_eq_ok_iff.1 h
    exact ResponseContract.mem_outputs_iff
  keys_outputs result h := by
    obtain ⟨r, -, -, -, rfl⟩ := after_eq_ok_iff.1 h
    exact e.response.keys_outputs r.value
  message_ne_empty message h := by
    obtain ⟨r, -, -, -, rfl⟩ := after_eq_rejected_iff.1 h
    exact e.response.rejection_ne_empty r.value
  not_rejected hnone message h := by
    obtain ⟨r, -, -, hrefused, -⟩ := after_eq_rejected_iff.1 h
    obtain ⟨success, hsuccess, -⟩ := ResponseContract.accepts_eq_false_iff.1 hrefused
    rw [hnone] at hsuccess
    cases hsuccess

/-- **There is one verdict for each reply.** -/
theorem verdict_iff : e.Verdict reply y ↔ y = e.after reply := by
  constructor
  · intro h
    -- each of the four things that may come of a reply is told from the reply alone
    have hafter := verdict_after e reply
    rcases after_cases e reply with ⟨text, hz⟩ | ⟨cause, hz⟩ | ⟨message, hz⟩ | ⟨result, hz⟩
    · rw [hz]
      exact (h.fault_iff text).2 ((hafter.fault_iff text).1 hz)
    · rw [hz]
      exact (h.transport_iff cause).2 ((hafter.transport_iff cause).1 hz)
    · rw [hz]
      exact (h.rejected_iff message).2 ((hafter.rejected_iff message).1 hz)
    · rw [hz]
      exact (h.ok_iff result).2 ((hafter.ok_iff result).1 hz)
  · rintro rfl
    exact verdict_after e reply

end Endpoint

/-! ### Executions -/

namespace Executor

variable {x : Executor} {e : Endpoint} {c : Context}

/-- A request is sent once, and then its reply arrives. -/
theorem course_send {r : Request} {y : Ending (Except ExecuteError Execution)} :
    (Program.request r >>= fun
      | .error cause => pure (.error (.transport e.name cause))
      | .ok response => pure (e.understand response)).Course b log b' y ↔
    ∃ reply, b ≤ b' ∧ log = [⟨b, .send r⟩, ⟨b', .receive reply⟩] ∧ y = e.after reply := by
  constructor
  · intro h
    cases h with
    | fetch reply hb h =>
      refine ⟨reply, ?_⟩
      cases reply with
      | answer | failure =>
        obtain ⟨rfl, rfl, rfl⟩ := Program.course_pure.1 h
        exact ⟨hb, rfl, rfl⟩
      | fault text =>
        obtain ⟨rfl, rfl, rfl⟩ := Program.course_fault.1 h
        exact ⟨hb, rfl, rfl⟩
  · rintro ⟨reply, hb, rfl, rfl⟩
    refine .fetch reply hb ?_
    cases reply with
    | answer | failure => exact Program.course_pure.2 ⟨rfl, rfl, rfl⟩
    | fault text => exact Program.course_fault.2 ⟨rfl, rfl, rfl⟩

/-- **The courses of an execution**: a hook fails or has a fault, or one request is sent. -/
theorem course_execute {y : Ending (Except ExecuteError Execution)} :
    (x.execute e c).Course b log b' y ↔
      (∃ cause, x.Prepares e c b log b' (.value (.error cause)) ∧
        y = .value (.error (.hook e.name cause))) ∨
      (∃ text, x.Prepares e c b log b' (.fault text) ∧ y = .fault text) ∨
      ∃ before b₁ r reply, x.Prepares e c b before b₁ (.value (.ok r)) ∧ b₁ ≤ b' ∧
        log = before ++ [⟨b₁, .send r⟩, ⟨b', .receive reply⟩] ∧ y = e.after reply := by
  unfold execute
  rw [Program.course_bind]
  constructor
  · rintro (⟨before, b₁, prepared, rest, hprepare, hrest, rfl⟩ | ⟨text, hprepare, rfl⟩)
    · rw [course_prepare] at hprepare
      cases prepared with
      | error cause =>
        obtain ⟨rfl, rfl, rfl⟩ := Program.course_pure.1 hrest
        exact .inl ⟨cause, by rwa [List.append_nil], rfl⟩
      | ok r =>
        obtain ⟨reply, hb, rfl, rfl⟩ := course_send.1 hrest
        exact .inr (.inr ⟨before, b₁, r, reply, hprepare, hb, rfl, rfl⟩)
    · exact .inr (.inl ⟨text, course_prepare.1 hprepare, rfl⟩)
  · rintro (⟨cause, hprepare, rfl⟩ | ⟨text, hprepare, rfl⟩ |
      ⟨before, b₁, r, reply, hprepare, hb, rfl, rfl⟩)
    · exact .inl ⟨log, b', .error cause, [], course_prepare.2 hprepare,
        Program.course_pure.2 ⟨rfl, rfl, rfl⟩, (List.append_nil log).symm⟩
    · exact .inr ⟨text, course_prepare.2 hprepare, rfl⟩
    · exact .inl ⟨before, b₁, .ok r, _, course_prepare.2 hprepare,
        course_send.2 ⟨reply, hb, rfl, rfl⟩, rfl⟩

/-- **What executing an endpoint comes to.** A hook is in force when the definition asks for it and
the implementation provides it. In every course of an execution either a hook in force fails, and
nothing is sent; or a hook has a fault, which is that of the execution; or exactly one request is
sent after the hooks, and the verdict on its reply is the result. Run against a transport, an
execution goes one of these courses with the replies that the transport gives. -/
theorem execute_outcome (d : Definition) (hooks : Hooks) (e : Endpoint) (c : Context) :
    (∀ b log b' y, ((Executor.of d hooks).execute e c).Course b log b' y ↔
      (∃ cause, (Executor.of d hooks).Prepares e c b log b' (.value (.error cause)) ∧
        y = .value (.error (.hook e.name cause))) ∨
      (∃ text, (Executor.of d hooks).Prepares e c b log b' (.fault text) ∧ y = .fault text) ∨
      ∃ before b₁ r reply, (Executor.of d hooks).Prepares e c b before b₁ (.value (.ok r)) ∧
        b₁ ≤ b' ∧ log = before ++ [⟨b₁, .send r⟩, ⟨b', .receive reply⟩] ∧ e.Verdict reply y) ∧
    ∀ {σ : Type} (t : Transport σ) (w : World σ), ∃ b log b' y,
      ((Executor.of d hooks).execute e c).Course b log b' y ∧ Answered t.Gives (actsOf log) ∧
        (run t w ((Executor.of d hooks).execute e c)).1 = y.value? := by
  refine ⟨fun b log b' y => ?_, fun t w => ?_⟩
  · simp only [Endpoint.verdict_iff]
    exact course_execute
  · obtain ⟨b, log, b', y, hcourse, hanswered, -, hresult, -⟩ :=
      Company.exists_answered_course_of_run t w ((Executor.of d hooks).execute e c)
    exact ⟨b, log, b', y, hcourse, hanswered, hresult⟩

end Executor

end Syndication
