import Syndication.Document.Basic
import Syndication.Json.Parser
import Syndication.Json.Printer

/-!
# Definition documents

What a document says about a platform, before anything of it is checked: every
field may be missing, and a missing one is not told apart from an empty one.

Main statements:

* `DefinitionSpec.ofDocument?`, `DefinitionSpec.decode?`: reading a document, and
  the text of one.
* `DefinitionSpec.toJson`, `DefinitionSpec.encode`: writing it as a value and as a
  text, with every field under its own name.
-/

namespace Syndication

open Document (FieldName Record record?)

/-- What a document says about the answer of an endpoint. -/
structure ResponseSpec where
  /-- The expression that tells success. -/
  success : Option String
  /-- The expression for the text of a refusal. -/
  error : Option String
  /-- The expressions for what is kept of the answer. -/
  extract : KeyMap String
deriving DecidableEq, Repr

/-- What a document says about an endpoint. -/
structure EndpointSpec where
  /-- The template of the address. -/
  url : String
  method : Option String
  /-- The templates of the headers. -/
  headers : KeyMap String
  /-- The encoding of the body. -/
  contentType : Option String
  /-- The template of the body. -/
  body : Option Json
  /-- The statuses that are accepted besides the successful ones. -/
  acceptStatus : List Nat
  /-- The answer. -/
  response : ResponseSpec
deriving DecidableEq, Repr

/-- What a document says about a platform. -/
structure DefinitionSpec where
  id : String
  /-- The name that is shown. -/
  name : String
  /-- The address of an icon. -/
  icon : Option String
  /-- The address of the platform. -/
  homepage : String
  /-- The names of its capabilities. -/
  capabilities : List String
  /-- The name of its format. -/
  contentFormat : Option String
  /-- The endpoint that tells whether a session is logged in. -/
  auth : Option EndpointSpec
  /-- The other endpoints. -/
  endpoints : KeyMap EndpointSpec
  /-- The template for the address of a draft. -/
  draftUrl : Option String
  /-- The template for the address of a post. -/
  postUrl : Option String
  /-- The pause between image uploads. -/
  requestDelayMs : Option Nat
  /-- The names of its hooks. -/
  hooks : List String
deriving DecidableEq, Repr

/-! ### Reading -/

namespace ResponseSpec

/-- Nothing said about the answer. -/
def empty : ResponseSpec := ⟨none, none, []⟩

/-- The fields and their other names. -/
def layout : List FieldName :=
  [⟨"success", ["successExpr"]⟩, ⟨"error", ["errorExpr"]⟩, ⟨"extract", []⟩]

/-- What a document says. -/
def ofDocument? (d : Document) : Option ResponseSpec := do
  let r ← record? layout d
  return {
    success := ← r.withDefault? "success" none (Document.optional? Document.string?)
    error := ← r.withDefault? "error" none (Document.optional? Document.string?)
    extract := ← r.withDefault? "extract" [] (Document.map? Document.string?) }

end ResponseSpec

namespace EndpointSpec

/-- The fields and their other names. -/
def layout : List FieldName :=
  [⟨"url", []⟩, ⟨"method", []⟩, ⟨"headers", []⟩, ⟨"content_type", ["contentType"]⟩, ⟨"body", []⟩,
    ⟨"accept_status", ["acceptStatus"]⟩, ⟨"response", []⟩]

/-- What a document says. -/
def ofDocument? (d : Document) : Option EndpointSpec := do
  let r ← record? layout d
  return {
    url := ← r.withDefault? "url" "" Document.string?
    method := ← r.withDefault? "method" none (Document.optional? Document.string?)
    headers := ← r.withDefault? "headers" [] (Document.map? Document.string?)
    contentType := ← r.withDefault? "content_type" none (Document.optional? Document.string?)
    body := ← r.withDefault? "body" none (Document.optional? Document.toJson?)
    acceptStatus := ← r.withDefault? "accept_status" [] (Document.list? (Document.nat? 65535))
    response := ← r.withDefault? "response" .empty ResponseSpec.ofDocument? }

end EndpointSpec

namespace DefinitionSpec

/-- The fields and their other names. -/
def layout : List FieldName :=
  [⟨"id", []⟩, ⟨"name", ["displayName"]⟩, ⟨"icon", []⟩, ⟨"homepage", []⟩, ⟨"capabilities", []⟩,
    ⟨"content_format", ["contentFormat"]⟩, ⟨"auth", ["authCheck"]⟩, ⟨"endpoints", []⟩,
    ⟨"draft_url", ["draftUrlTemplate"]⟩, ⟨"post_url", ["postUrlTemplate"]⟩,
    ⟨"request_delay_ms", ["requestDelayMs"]⟩, ⟨"hooks", []⟩]

/-- What a document says. -/
def ofDocument? (d : Document) : Option DefinitionSpec := do
  let r ← record? layout d
  return {
    id := ← r.withDefault? "id" "" Document.string?
    name := ← r.withDefault? "name" "" Document.string?
    icon := ← r.withDefault? "icon" none (Document.optional? Document.string?)
    homepage := ← r.withDefault? "homepage" "" Document.string?
    capabilities := ← r.withDefault? "capabilities" [] (Document.list? Document.string?)
    contentFormat := ← r.withDefault? "content_format" none (Document.optional? Document.string?)
    auth := ← r.withDefault? "auth" none (Document.optional? EndpointSpec.ofDocument?)
    endpoints := ← r.withDefault? "endpoints" [] (Document.map? EndpointSpec.ofDocument?)
    draftUrl := ← r.withDefault? "draft_url" none (Document.optional? Document.string?)
    postUrl := ← r.withDefault? "post_url" none (Document.optional? Document.string?)
    requestDelayMs := ←
      r.withDefault? "request_delay_ms" none
        (Document.optional? (Document.nat? Decimal.greatestNat64))
    hooks := ← r.withDefault? "hooks" [] (Document.list? Document.string?) }

end DefinitionSpec

/-! ### Writing -/

/-- The map of texts as a value. -/
def KeyMap.toJson (m : KeyMap String) : Json :=
  .object (m.mapValues .string)

section Writing

/-! An object is made of all fields; whether they are listed in their own order or
in that of their names is left open here. -/

variable (object : List (String × Json) → Json)

/-- The members of the document of a response. -/
def ResponseSpec.members (s : ResponseSpec) : List (String × Json) :=
  [("success", Json.ofOption s.success), ("error", Json.ofOption s.error),
    ("extract", s.extract.toJson)]

/-- The document of a response. -/
def ResponseSpec.write (s : ResponseSpec) : Json :=
  object s.members

/-- The members of the document of an endpoint. -/
def EndpointSpec.members (s : EndpointSpec) : List (String × Json) :=
  [("url", .string s.url), ("method", Json.ofOption s.method),
    ("headers", s.headers.toJson), ("content_type", Json.ofOption s.contentType),
    ("body", s.body.getD .null), ("accept_status", .array (s.acceptStatus.map Json.ofNat)),
    ("response", s.response.write object)]

/-- The document of an endpoint. -/
def EndpointSpec.write (s : EndpointSpec) : Json :=
  object (s.members object)

/-- The members of the document of a platform. -/
def DefinitionSpec.members (s : DefinitionSpec) : List (String × Json) :=
  [("id", .string s.id), ("name", .string s.name), ("icon", Json.ofOption s.icon),
    ("homepage", .string s.homepage), ("capabilities", Json.ofStrings s.capabilities),
    ("content_format", Json.ofOption s.contentFormat),
    ("auth", s.auth.elim .null (EndpointSpec.write object)),
    ("endpoints", .object (s.endpoints.mapValues (EndpointSpec.write object))),
    ("draft_url", Json.ofOption s.draftUrl), ("post_url", Json.ofOption s.postUrl),
    ("request_delay_ms", s.requestDelayMs.elim .null Json.ofNat),
    ("hooks", Json.ofStrings s.hooks)]

/-- The document of a platform. -/
def DefinitionSpec.write (s : DefinitionSpec) : Json :=
  object (s.members object)

end Writing

namespace DefinitionSpec

/-- The document of a platform as a value. -/
def toJson (s : DefinitionSpec) : Json :=
  s.write Json.ofMembers

/-- The text of a definition, the fields in their order. -/
def encode (s : DefinitionSpec) : String :=
  (s.write .object).compact

/-- The definition that a text writes. -/
def decode? (text : String) : Option DefinitionSpec :=
  (Json.document? text).bind ofDocument?

end DefinitionSpec

end Syndication
