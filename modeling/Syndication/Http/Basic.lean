import Syndication.Text.Search
import Syndication.Text.Utf8
import Syndication.Json.Printer

/-!
# Requests and responses

A request as it is handed to a transport, the answer that comes back, and what
can go wrong below the answer.

Main statements:

* `Method.ofName?_name`: a method is read from its name in any case.
* `allowsBody_iff`: the methods whose requests have a body.
-/

namespace Syndication

/-- The method of a request. -/
inductive Method where
  /-- Ask for something. -/
  | get
  /-- Send something. -/
  | post
  /-- Put something in its place. -/
  | put
  /-- Change something. -/
  | patch
  /-- Take something away. -/
  | delete
deriving DecidableEq, Repr

namespace Method

/-- All methods, in order. -/
def all : List Method := [.get, .post, .put, .patch, .delete]

/-- The name in a request. -/
def name : Method → String
  | .get => "GET"
  | .post => "POST"
  | .put => "PUT"
  | .patch => "PATCH"
  | .delete => "DELETE"

/-- The method with a name in upper case. -/
def ofName? (name : String) : Option Method :=
  all.find? (·.name == name)

/-- A name is read as what it names. -/
@[simp] theorem ofName?_name (m : Method) : ofName? m.name = some m := by
  cases m <;> decide

/-- Whether a request of this method has a body. -/
def allowsBody : Method → Bool
  | .post | .put | .patch => true
  | .get | .delete => false

theorem allowsBody_iff (m : Method) : m.allowsBody = false ↔ m = .get ∨ m = .delete := by
  cases m <;> decide

end Method

/-- A binary file that is sent along, such as an image. -/
structure Blob where
  /-- The bytes of the file. -/
  bytes : List UInt8
  /-- Its media type. -/
  mime : String
  /-- Its name. -/
  filename : String
deriving DecidableEq, Repr

/-- A part of a body in parts. -/
inductive Part where
  | text (value : String)
  /-- A file. -/
  | blob (value : Blob)
deriving DecidableEq, Repr

/-- The body of a request. -/
inductive Body where
  /-- No body. -/
  | empty
  /-- A JSON document. -/
  | json (value : Json)
  | form (fields : List (String × String))
  /-- Named parts. -/
  | multipart (parts : List (String × Part))
deriving DecidableEq, Repr

/-- Whether there is no body. -/
def Body.isEmpty : Body → Bool
  | .empty => true
  | _ => false

/-- A request. -/
structure Request where
  method : Method
  /-- The address. -/
  url : String
  /-- The headers, by name. -/
  headers : KeyMap String
  body : Body
deriving DecidableEq, Repr

/-- The request that asks for an address, without headers. -/
def Request.get (url : String) : Request :=
  ⟨.get, url, [], .empty⟩

/-- An answer. -/
structure Response where
  status : Nat
  /-- The headers, by name. -/
  headers : KeyMap String
  /-- The bytes of the body. -/
  body : List UInt8
deriving DecidableEq, Repr

namespace Response

/-- An answer without headers whose body is a text. -/
def ofText (status : Nat) (text : String) : Response :=
  ⟨status, [], text.toUTF8.toList⟩

/-- An answer whose body is a JSON document. -/
def ofJson (status : Nat) (value : Json) : Response :=
  ⟨status, [("content-type", "application/json")], value.compact.toUTF8.toList⟩

/-- The body as text. -/
def textChars (r : Response) : List Char :=
  Text.decodeLossy r.body

/-- The body as text. -/
def text (r : Response) : String :=
  String.ofList r.textChars

/-- The value of the first header whose name differs at most in case. -/
def header? (r : Response) (name : String) : Option String :=
  (List.find? (fun h => Text.eqIgnoringAsciiCase h.1 name) r.headers).map (·.2)

end Response

/-- Whether a status says that a request was successful. -/
def isSuccessStatus (status : Nat) : Bool :=
  200 ≤ status && status < 300

/-- What can go wrong with a request. -/
inductive TransportError where
  /-- The answer has a status that is not accepted. -/
  | status (code : Nat) (body : String)
  /-- There was no answer. -/
  | network (text : String)
  /-- There was no answer in time. -/
  | timeout
deriving DecidableEq, Repr

/-- The wording of the error. -/
def TransportError.message : TransportError → String
  | .status code body => s!"HTTP {code}: {body}"
  | .network text => s!"Network error: {text}"
  | .timeout => "Request timed out"

end Syndication
