import Syndication.Endpoint.Execution

/-!
# Why a run ends without a post

Main statement:

* `isRetryable_iff`: only a failure of transport after the session was checked is
  worth another try.
-/

namespace Syndication

/-- Why an image could not be uploaded. -/
inductive UploadError where
  /-- The hook that uploads images has failed. -/
  | hook (cause : HookError)
  /-- The image could not be fetched. -/
  | download (source : String) (cause : TransportError)
  /-- The endpoint that uploads images has failed. -/
  | execution (cause : ExecuteError)
  /-- The platform has not said where the upload is. -/
  | noAddress (source : String)
deriving DecidableEq, Repr

/-- The wording of the error. -/
def UploadError.message : UploadError → String
  | .hook cause => cause.message
  | .download source cause => s!"download {source}: {cause.message}"
  | .execution cause => cause.message
  | .noAddress source => s!"upload of {source} returned no url"

/-- What a platform or an article does not allow. -/
inductive Unsupported where
  /-- The platform can neither save a draft nor publish. -/
  | publishing (platform : String)
  /-- The platform can neither save nor change a draft. -/
  | drafts (platform : String)
  /-- The article has no content. -/
  | content
  /-- The platform has no way to upload an image. -/
  | images
deriving DecidableEq, Repr

/-- The wording of what is not supported. -/
def Unsupported.message : Unsupported → String
  | .publishing platform => s!"{platform} defines neither create_draft nor publish"
  | .drafts platform => s!"{platform} has no draft endpoints"
  | .content => "article has no markdown or html content"
  | .images => "no image uploader"

/-- Why a run ends without a post. -/
inductive WorkflowError where
  /-- The session could not be checked, or it is not logged in. -/
  | notAuthenticated (cause : ExecuteError)
  /-- An endpoint has failed. -/
  | execution (cause : ExecuteError)
  /-- A hook has failed. -/
  | hook (hook : Hook) (cause : HookError)
  /-- An image could not be uploaded. -/
  | upload (cause : UploadError)
  /-- Something is not supported. -/
  | unsupported (what : Unsupported)
  /-- The run was cancelled. -/
  | cancelled
  /-- The run was broken off by a fault. -/
  | internal (text : String)
deriving DecidableEq, Repr

namespace WorkflowError

/-- The wording of the error. -/
def message : WorkflowError → String
  | .notAuthenticated cause => s!"Not authenticated: {cause.message}"
  | .execution (.transport endpoint cause) =>
    s!"Transport error: {(ExecuteError.transport endpoint cause).message}"
  | .execution (.rejected endpoint text) => (ExecuteError.rejected endpoint text).message
  | .execution (.hook endpoint cause) =>
    s!"Hook failed: {(ExecuteError.hook endpoint cause).message}"
  | .hook step cause => s!"Hook failed: {step.name}: {cause.message}"
  | .upload cause => s!"Image upload failed: {cause.message}"
  | .unsupported what => s!"Unsupported: {what.message}"
  | .cancelled => "Cancelled"
  | .internal text => s!"Internal error: {text}"

/-- Whether another try may end otherwise. -/
def isRetryable : WorkflowError → Bool
  | .execution (.transport ..) => true
  | _ => false

/-- Only a failure of transport after the session was checked is worth another
try. -/
theorem isRetryable_iff (e : WorkflowError) :
    e.isRetryable = true ↔ ∃ endpoint cause, e = .execution (.transport endpoint cause) := by
  unfold isRetryable
  split <;> simp_all

end WorkflowError

end Syndication
