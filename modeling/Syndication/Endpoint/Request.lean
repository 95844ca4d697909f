import Syndication.Context
import Syndication.Definition.Basic
import Syndication.Template

/-!
# The request of an endpoint

An endpoint's templates, rendered against a context, make a request. Only
methods that allow a body get one, and only where there is a template for it. A
JSON body is the rendered template; a form has one text for each member of the
template; a body in parts sends a bound file where a member is a placeholder for
nothing but its name.

Main statements:

* `isEmpty_requestBody`: when a request has no body.
* `method_request`, `keys_headers_request`: what the templates do not change.
-/

namespace Syndication

namespace Endpoint

/-- The text of a member of a form. -/
def fieldText (data : Json) (template : Json) : String :=
  renderValue (some (interpolateValue data template))

/-- The file that a member stands for, if it is a placeholder for the name of a
bound one. -/
def blobOf? (c : Context) (template : Json) : Option Blob :=
  match template with
  | .string s => (solePlaceholder? s.toList).bind c.blobFor?
  | _ => none

/-- The part of a member. -/
def partOf (c : Context) (template : Json) : Part :=
  match blobOf? c template with
  | some blob => .blob blob
  | none => .text (fieldText c.toJson template)

/-- The body in an encoding. -/
def encodeBody (encoding : BodyEncoding) (template : Json) (c : Context) : Body :=
  match encoding with
  | .json => .json (interpolateValue c.toJson template)
  | .form => .form (template.members.map fun (key, v) => (key, fieldText c.toJson v))
  | .multipart => .multipart (template.members.map fun (key, v) => (key, partOf c v))

/-- The body of the request. -/
def requestBody (e : Endpoint) (c : Context) : Body :=
  match e.method.allowsBody, e.body with
  | true, some template => encodeBody e.encoding template c
  | _, _ => .empty

/-- **The request of an endpoint** in a context. -/
def request (e : Endpoint) (c : Context) : Request where
  method := e.method
  url := interpolate e.url c.toJson
  headers := e.headers.mapValues fun value => interpolate value c.toJson
  body := e.requestBody c

@[simp] theorem method_request (e : Endpoint) (c : Context) : (e.request c).method = e.method := rfl

@[simp] theorem keys_headers_request (e : Endpoint) (c : Context) :
    (e.request c).headers.keys = e.headers.keys := by
  simp [request, KeyMap.mapValues, KeyMap.keys, Function.comp_def]

/-- There is no body exactly when the method allows none or there is no
template for it. -/
theorem isEmpty_requestBody (e : Endpoint) (c : Context) :
    (e.requestBody c).isEmpty = true ↔ e.method.allowsBody = false ∨ e.body = none := by
  unfold requestBody
  cases hm : e.method.allowsBody
  · simp [Body.isEmpty]
  · cases hb : e.body with
    | none => simp [Body.isEmpty]
    | some template =>
      cases he : e.encoding <;> simp [encodeBody, Body.isEmpty]

end Endpoint

end Syndication
