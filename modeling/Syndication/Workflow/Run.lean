import Syndication.Workflow.Content
import Syndication.Workflow.Upload

/-!
# Running a platform

An article is brought to a platform in steps: the session is checked, the content
is brought into the format of the platform, a draft is saved and changed, and the
post is made public unless a draft is all that was asked for. Between two steps
the run asks whether it is cancelled. What one step extracts is there for the
steps after it.

Main statements:

* `Platform.drive`: the steps, and the state in which a failure arises.
* `Platform.run`: a run that reports its failure and catches faults.
-/

namespace Syndication

/-- What a run has brought about. -/
structure Publication where
  /-- The id of the post, or of the draft. -/
  postId : Option String
  /-- Its address. -/
  postUrl : Option String
  /-- Whether it is a draft. -/
  draftOnly : Bool
deriving DecidableEq, Repr

/-- The outcome of a run that has ended well. -/
def Publication.outcome (x : Publication) (platform : String) : Outcome :=
  ⟨platform, true, x.postId, x.postUrl, x.draftOnly, none⟩

/-- What the check of a session has shown. -/
structure Session where
  /-- Whether the session is logged in. -/
  authenticated : Bool
  /-- What is known about the user. -/
  fields : KeyMap Json
  /-- Why it is not logged in. -/
  reason : Option String
deriving DecidableEq, Repr

/-- An error with the state in which it arose. -/
structure Failure where
  state : WorkflowState
  error : WorkflowError
deriving DecidableEq, Repr

/-- A run: it ends with a value, or fails in a state. -/
abbrev Stage := ExceptT Failure Program

/-- A part of a run in a state. -/
def Attempt.within {α : Type} (state : WorkflowState) (x : Attempt α) : Stage α :=
  x.adapt (⟨state, ·⟩)

namespace Platform

/-- Executes the endpoint of a state. -/
def call (p : Platform) (state : WorkflowState) (e : Endpoint) (c : Context) :
    Program (Except ExecuteError Execution) := do
  Program.emit (.executing p.id state e c)
  let result ← p.executor.execute e c
  Program.emit (.executed p.id state (result.toOption.map (·.outputs)))
  return result

/-! ### The session -/

/-- Checks the session: what is known about the user. -/
def authenticate (p : Platform) (c : Context) : Attempt (KeyMap Json) := do
  match ← Attempt.perform (p.call .checkingAuth p.definition.auth c) with
  | .ok x => return x.outputs
  -- a hook that fails says nothing about the session
  | .error (.hook endpoint cause) => Attempt.fail (.execution (.hook endpoint cause))
  | .error cause => Attempt.fail (.notAuthenticated cause)

/-- Checks the session alone. A session that is not logged in is no error. -/
def checkSession (p : Platform) : Program (Except WorkflowError Session) := do
  match ← (p.authenticate (.ofArticle .empty)).run with
  | .ok fields => return .ok ⟨true, fields, none⟩
  | .error (.notAuthenticated cause) => return .ok ⟨false, [], some cause.message⟩
  | .error e => return .error e

/-! ### The content -/

/-- The source that a platform gets, and its format. A platform for Markdown gets
Markdown as it is; all else begins as clean HTML. -/
def source? (p : Platform) (k : ContentProcessor) (a : Article) :
    Option (ContentFormat × Conversion) :=
  let markdown := a.markdown.filter (!Text.isBlankText ·)
  let html := a.html.filter (!Text.isBlankText ·)
  match p.definition.contentFormat, markdown, html with
  | .markdown, some text, _ => some (.markdown, .ok text)
  | _, _, some text => some (.html, k.clean text)
  | _, some text, none => some (.html, k.markdownToHtml text >>= k.clean)
  | _, none, none => none

/-- A text in the format of a platform. -/
def convert (p : Platform) (k : ContentProcessor) (format : ContentFormat) (text : String) :
    Conversion :=
  if format = p.definition.contentFormat then .ok text
  else match p.definition.contentFormat with
    | .html => k.markdownToHtml text
    | .markdown => k.htmlToMarkdown text

/-- The content as the hook leaves it, where the definition asks for one. -/
def contentHook (p : Platform) (content : String) (c : Context) : Attempt String := do
  if p.definition.declares .contentTransform then
    match ← Attempt.perform (p.hooks.contentTransform content c) with
    | .ok content => return content
    | .error cause => Attempt.fail (.hook .contentTransform cause)
  else return content

/-- The context with the content that is sent: its images are uploaded, the hook
has changed it, and it is in the format of the platform. -/
def transform (p : Platform) (k : ContentProcessor) (a : Article) (c : Context) :
    Attempt Context := do
  match p.source? k a with
  | none => Attempt.fail (.unsupported .content)
  | some (format, source) =>
    let text ← Attempt.perform source.program
    -- the images are found in the source, before it is converted
    let (c, content) ← p.processImages text c
    let c ← p.uploadCover a c
    let content ← p.contentHook content c
    let content ← Attempt.perform (p.convert k format content).program
    let c := c.setArticleField p.definition.contentFormat.name (.string content)
    return c.setArticleField "content" (.string content)

/-! ### The steps -/

/-- Goes from one state to the next unless the run is cancelled. -/
def enter (p : Platform) (source target : WorkflowState) : Stage Unit :=
  ExceptT.mk do
    if ← Program.isCancelled then
      Program.emit (.cancelled p.id source)
      return .error ⟨source, .cancelled⟩
    else
      Program.emit (.transition p.id source target)
      return .ok ()

/-- The context with what the endpoint of a state extracts. -/
def execute (p : Platform) (state : WorkflowState) (e : Endpoint) (c : Context) :
    Attempt Context := do
  match ← Attempt.perform (p.call state e c) with
  | .ok x => return c.merge x.outputs
  | .error cause => Attempt.fail (.execution cause)

/-- Takes a step in a state of its own, if the platform has the endpoint for it:
the state and the context after it. -/
def takeStep (p : Platform) (endpoint : Option Endpoint) (target : WorkflowState) :
    WorkflowState × Context → Stage (WorkflowState × Context)
  | (state, c) => do
    match endpoint with
    | none => return (state, c)
    | some e =>
      p.enter state target
      return (target, ← Attempt.within target (p.execute target e c))

/-- The address that a template gives, if it gives one. -/
def address? (template : Option String) (c : Context) : Option String :=
  (template.map fun t => interpolate t c.toJson).filter (!·.isEmpty)

/-- What a run for a draft has brought about. -/
def draftPublication (p : Platform) (c : Context) : Publication :=
  ⟨c.getString? "draft_id", address? p.definition.draftUrl c, true⟩

/-- What a run has brought about that has made the post public. A post without an
id of its own has that of the draft. -/
def postPublication (p : Platform) (draftId : Option String) (c : Context) : Publication :=
  let postId := (c.getString? "post_id").or draftId
  -- the template for the address knows the id that is reported
  let c := match postId with
    | some id => c.set "post_id" (.string id)
    | none => c
  ⟨postId, (c.getString? "post_url").or (address? p.definition.postUrl c), false⟩

/-- What the platform has no endpoints for. -/
def missing? (p : Platform) (draftOnly : Bool) : Option Unsupported :=
  let has (step : Step) : Bool := (p.definition.endpoint? step).isSome
  if !has .createDraft && !has .publish then some (.publishing p.id)
  else if draftOnly && !has .createDraft && !has .updateDraft then some (.drafts p.id)
  else none

/-- Leaves it at the draft. -/
def finishDraft (p : Platform) : WorkflowState × Context → Stage Publication
  | (state, c) => do
    p.enter state .draftOnly
    p.enter .draftOnly .done
    return p.draftPublication c

/-- Makes the post public. -/
def finishPost (p : Platform) (e : Endpoint) : WorkflowState × Context → Stage Publication
  | (state, c) => do
    -- what publishing extracts may hide the id of the draft
    let draftId := c.getString? "draft_id"
    p.enter state .publishing
    let c ← Attempt.within .publishing (p.execute .publishing e c)
    p.enter .publishing .done
    return p.postPublication draftId c

/-- **The steps of a run.** -/
def drive (p : Platform) (k : ContentProcessor) (a : Article) (draftOnly : Bool) :
    Stage Publication := do
  match p.missing? draftOnly with
  | some what => Attempt.within .idle (Attempt.fail (.unsupported what))
  | none =>
    let c := Context.ofArticle a
    p.enter .idle .checkingAuth
    let user ← Attempt.within .checkingAuth (p.authenticate c)
    p.enter .checkingAuth .transforming
    -- what is known about the user is there for all later steps
    let c ← Attempt.within .transforming (p.transform k a (c.merge user))
    let progress ←
      p.takeStep (p.definition.endpoint? .createDraft) .creatingDraft (.transforming, c)
    let progress ← p.takeStep (p.definition.endpoint? .updateDraft) .updatingDraft progress
    match (p.definition.endpoint? .publish).filter fun _ => !draftOnly with
    | none => p.finishDraft progress
    | some e => p.finishPost e progress

/-- The text for a fault that has none. -/
def defaultFault : String := "workflow panicked"

/-- **Runs a platform**: the failure of a step is reported, and a fault of a hook
or of the transport becomes an error. -/
def run (p : Platform) (k : ContentProcessor) (a : Article) (draftOnly : Bool) :
    Program (Except WorkflowError Publication) :=
  let steps : Program (Except WorkflowError Publication) := do
    match ← (p.drive k a draftOnly).run with
    | .ok publication => return .ok publication
    | .error failure =>
      Program.emit (.runFailed p.id failure.state failure.error.message)
      return .error failure.error
  steps.catchFault fun text => do
    let text := text.getD defaultFault
    Program.emit (.runPanicked p.id text)
    return .error (.internal text)

/-- Runs a platform once: the outcome. -/
def publish (p : Platform) (k : ContentProcessor) (a : Article) (draftOnly : Bool) :
    Program Outcome := do
  match ← p.run k a draftOnly with
  | .ok publication => return publication.outcome p.id
  | .error e => return .failed p.id e.message

end Platform

end Syndication
