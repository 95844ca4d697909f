import Syndication.Definition.Vocabulary
import Syndication.Expression.Basic
import Syndication.Http.Basic
import Syndication.Url.Basic

/-!
# Definitions

A definition describes how a platform is published to: the endpoints that are
called, what is sent to them, and how their answers are to be understood. It has
been validated, so every expression in it has been read and every name in it is
known.
-/

namespace Syndication

/-- How the answer of an endpoint is understood. -/
structure ResponseContract where
  /-- Tells whether the platform has accepted the request. -/
  success : Option Expression
  /-- The text of a refusal. -/
  error : Option Expression
  /-- What is kept of the answer, by name. -/
  extract : KeyMap Expression
deriving DecidableEq, Repr

/-- An endpoint of a platform. -/
structure Endpoint where
  /-- The name of the step. -/
  name : String
  /-- The template of the address. -/
  url : String
  method : Method
  /-- The templates of the headers. -/
  headers : KeyMap String
  encoding : BodyEncoding
  /-- The template of the body. -/
  body : Option Json
  /-- The statuses that are accepted besides the successful ones, in increasing
  order. -/
  acceptStatus : List Nat
  /-- The answer. -/
  response : ResponseContract
deriving DecidableEq, Repr

/-- Whether a status is accepted. -/
def Endpoint.accepts (e : Endpoint) (status : Nat) : Bool :=
  isSuccessStatus status || e.acceptStatus.contains status

/-- The names of the endpoints that the workflow calls. -/
inductive Step where
  /-- Saves a new draft. -/
  | createDraft
  /-- Changes the draft. -/
  | updateDraft
  /-- Makes the post public. -/
  | publish
  | uploadImage
deriving DecidableEq, Repr

/-- The name in documents. -/
def Step.name : Step → String
  | .createDraft => "create_draft"
  | .updateDraft => "update_draft"
  | .publish => "publish"
  | .uploadImage => "upload_image"

/-- A validated description of a platform. -/
structure Definition where
  id : String
  /-- The name that is shown. -/
  displayName : String
  /-- The address of an icon. -/
  icon : Option String
  /-- The address of the platform. -/
  homepage : Url
  /-- What the platform is able to do, in order. -/
  capabilities : List Capability
  /-- The format that its editor takes. -/
  contentFormat : ContentFormat
  /-- The endpoint that tells whether a session is logged in. -/
  auth : Endpoint
  /-- The other endpoints, by name. -/
  endpoints : KeyMap Endpoint
  /-- The template for the address of a draft. -/
  draftUrl : Option String
  /-- The template for the address of a post. -/
  postUrl : Option String
  /-- The pause between image uploads. -/
  requestDelayMs : Option Nat
  /-- The hooks that are asked for, in order. -/
  hooks : List Hook
deriving DecidableEq, Repr

namespace Definition

/-- The endpoint of a step; a platform without it does not support the step. -/
def endpoint? (d : Definition) (step : Step) : Option Endpoint :=
  d.endpoints.find? step.name

/-- Whether the platform has a capability. -/
def supports (d : Definition) (c : Capability) : Bool :=
  d.capabilities.contains c

/-- Whether the definition asks for a hook. -/
def declares (d : Definition) (h : Hook) : Bool :=
  d.hooks.contains h

end Definition

end Syndication
