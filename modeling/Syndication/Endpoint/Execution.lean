import Syndication.Endpoint.Request
import Syndication.Hooks.Basic
import Syndication.Json.Parser

/-!
# Executing an endpoint

An endpoint is executed by building its request, letting the hooks that are in
force change headers and body, sending it, and understanding the answer: a status
that is not accepted is a failure of transport, an answer for which the success
expression does not hold is a refusal, and what the extract expressions find is
the output.

Main statements:

* `rejection_ne_empty`: a refusal always has a text.
* `byteLength_errorBody_le`: the body of an unaccepted answer is cut.
-/

namespace Syndication

/-- Why an endpoint could not be executed. -/
inductive ExecuteError where
  /-- The request or its answer failed. -/
  | transport (endpoint : String) (cause : TransportError)
  /-- The platform has refused. -/
  | rejected (endpoint message : String)
  /-- A hook failed. -/
  | hook (endpoint : String) (cause : HookError)
deriving DecidableEq, Repr

/-- The wording of the error. -/
def ExecuteError.message : ExecuteError → String
  | .transport endpoint cause => s!"{endpoint}: {cause.message}"
  | .rejected endpoint message => s!"{endpoint} rejected by platform: {message}"
  | .hook endpoint cause => s!"{endpoint}: hook failed: {cause.message}"

/-- What the execution of an endpoint has given. -/
structure Execution where
  /-- The status of the answer. -/
  status : Nat
  /-- The answer as a value. -/
  response : Json
  /-- What was extracted, by name. -/
  outputs : KeyMap Json
deriving DecidableEq, Repr

/-- The hooks that an execution calls, and those of them that are in force. -/
structure Executor where
  /-- The implementation. -/
  hooks : Hooks
  /-- Whether it is asked for headers. -/
  beforeRequest : Bool
  /-- Whether it is asked to change bodies. -/
  prepareBody : Bool

/-- A hook is in force when the definition asks for it and the implementation
provides it. -/
def Executor.of (d : Definition) (hooks : Hooks) : Executor where
  hooks
  beforeRequest := d.declares .beforeRequest && hooks.provides .beforeRequest
  prepareBody := d.declares .prepareBody && hooks.provides .prepareBody

/-! ### Headers -/

/-- The headers with one more, in the place of those whose names differ from it
at most in case. -/
def setHeader (headers : KeyMap String) (name value : String) : KeyMap String :=
  KeyMap.insert name value (headers.filter fun h => !Text.eqIgnoringAsciiCase h.1 name)

/-- The headers with the dynamic ones set, one after another in the order of
their names. -/
def mergeHeaders (headers dynamic : KeyMap String) : KeyMap String :=
  dynamic.foldl (fun headers h => setHeader headers h.1 h.2) headers

/-! ### Answers -/

/-- The most bytes of an unaccepted answer that are kept. -/
def maxErrorBody : Nat := 512

/-- The text of an unaccepted answer, cut between two characters. -/
def errorBody (r : Response) : String :=
  let bytes := Text.utf8Bytes r.textChars
  if bytes.length ≤ maxErrorBody then r.text
  else String.ofList (Text.takeBytes (Text.boundaryFrom bytes maxErrorBody) r.textChars)

/-- The cut text fits. -/
theorem byteLength_errorBody_le (r : Response) :
    Text.byteLength (errorBody r).toList ≤ maxErrorBody := by
  unfold errorBody
  dsimp only
  split
  · rename_i hfits
    rwa [Response.text, String.toList_ofList, ← Text.length_utf8Bytes]
  · rw [String.toList_ofList]
    exact Nat.le_trans (Text.byteLength_takeBytes_le _ _) (Text.boundaryFrom_le _ _)

/-- The answer as a value: the JSON value that its text writes, or the text. -/
def Response.value (r : Response) : Json :=
  (Json.parse? r.text).getD (.string r.text)

namespace ResponseContract

/-- The text of a refusal when the answer has none. -/
def defaultRejection : String := "success check failed"

/-- The text of a refusal. -/
def rejection (c : ResponseContract) (value : Json) : String :=
  match c.error with
  | some e =>
    let text := renderValue (e.evaluate value)
    if text.isEmpty then defaultRejection else text
  | none => defaultRejection

/-- A refusal always has a text. -/
theorem rejection_ne_empty (c : ResponseContract) (value : Json) : c.rejection value ≠ "" := by
  unfold rejection
  split
  · simp only
    split
    · decide
    · rename_i h
      intro he
      exact h (by rw [he]; rfl)
  · decide

/-- Whether the platform has accepted the request. -/
def accepts (c : ResponseContract) (value : Json) : Bool :=
  c.success.all fun e => e.test value

/-- What the extract expressions find. -/
def outputs (c : ResponseContract) (value : Json) : KeyMap Json :=
  c.extract.filterMap fun (name, e) => (e.evaluate value).map fun v => (name, v)

end ResponseContract

/-- What an answer means for an endpoint. -/
def Endpoint.understand (e : Endpoint) (r : Response) : Except ExecuteError Execution :=
  if e.accepts r.status then
    let value := r.value
    -- the status alone does not make a success
    if e.response.accepts value then .ok ⟨r.status, value, e.response.outputs value⟩
    else .error (.rejected e.name (e.response.rejection value))
  else .error (.transport e.name (.status r.status (errorBody r)))

/-! ### Execution -/

namespace Executor

/-- The request with the headers of the hook. -/
def withHeaders (x : Executor) (r : Request) (c : Context) : Program (Except HookError Request) :=
  if x.beforeRequest then do
    let dynamic ← x.hooks.beforeRequest r.url c
    return dynamic.map fun headers => { r with headers := mergeHeaders r.headers headers }
  else pure (.ok r)

/-- The request with its body changed by the hook. -/
def withBody (x : Executor) (r : Request) (c : Context) : Program (Except HookError Request) :=
  if x.prepareBody && !r.body.isEmpty then do
    let body ← x.hooks.prepareBody r.url r.body c
    return body.map fun body => { r with body }
  else pure (.ok r)

/-- The request of an endpoint as it is sent. -/
def prepare (x : Executor) (e : Endpoint) (c : Context) : Program (Except HookError Request) := do
  match ← x.withHeaders (e.request c) c with
  | .ok r => x.withBody r c
  | .error cause => return .error cause

/-- **Executes an endpoint.** -/
def execute (x : Executor) (e : Endpoint) (c : Context) :
    Program (Except ExecuteError Execution) := do
  match ← x.prepare e c with
  | .error cause => return .error (.hook e.name cause)
  | .ok request =>
    match ← Program.request request with
    | .error cause => return .error (.transport e.name cause)
    | .ok response => return e.understand response

end Executor

end Syndication
