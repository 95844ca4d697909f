import Syndication.Workflow.Error
import Syndication.Workflow.Images
import Syndication.Workflow.Platform

/-!
# Uploading images

A platform that takes images gets those of the content and the cover. An image is
uploaded by a hook, or fetched and sent to an endpoint. What cannot be uploaded is
left as it is, and a cover is left out; only a cancellation ends the run.

Main statements:

* `Platform.upload`: the upload of one image.
* `Platform.processImages`: the images of the content.
* `Platform.uploadCover`: the cover.
-/

namespace Syndication

/-- A part of a run: it ends with a value or an error. -/
abbrev Attempt := ExceptT WorkflowError Program

/-- Ends with an error. -/
def Attempt.fail {α : Type} (e : WorkflowError) : Attempt α :=
  ExceptT.mk (pure (.error e))

/-- Does something that has no errors. -/
def Attempt.perform {α : Type} (p : Program α) : Attempt α :=
  ExceptT.mk do return .ok (← p)

/-! ### What an image is sent as -/

/-- The media type for the ending of a file name. -/
def imageTypeOf (name : String) : String :=
  match Text.toAsciiLower (String.ofList (Chars.afterLast '.' name.toList)) with
  | "png" => "image/png"
  | "jpg" | "jpeg" => "image/jpeg"
  | "gif" => "image/gif"
  | "webp" => "image/webp"
  | "svg" => "image/svg+xml"
  | _ => "application/octet-stream"

/-- The file name in an address: what follows the last slash of its path. -/
def fileNameOf (source : String) : String :=
  let path := (Chars.splitWhere (fun c => c == '?' || c == '#') source.toList).headD []
  let name := Chars.afterLast '/' path
  if name.isEmpty then "image" else String.ofList name

/-- The image in an answer. Its media type is the one that is declared, if that is
one of an image, and else the one that its name suggests. -/
def imageOf (source : String) (r : Response) : Blob :=
  let filename := fileNameOf source
  let declared := (r.header? "content-type").map fun value =>
    String.ofList (Chars.trim ((Chars.splitOn ';' value.toList).headD []))
  ⟨r.body, (declared.filter (Text.startsWith "image/")).getD (imageTypeOf filename), filename⟩

/-- Fetches an image. -/
def fetchImage (source : String) : Program (Except UploadError Blob) := do
  match ← Program.request (.get source) with
  | .error cause => return .error (.download source cause)
  | .ok r =>
    if isSuccessStatus r.status then return .ok (imageOf source r)
    else return .error (.download source (.status r.status ""))

namespace Platform

/-- What executes the endpoints. -/
def executor (p : Platform) : Executor :=
  .of p.definition p.hooks

/-- Whether there is a way to upload images. -/
def canUpload (p : Platform) : Bool :=
  p.definition.declares .uploadImageByUrl || (p.definition.endpoint? .uploadImage).isSome

/-- The address at which an upload has ended up. -/
def uploadedAddress (source : String) (outcome : Except ExecuteError Execution) :
    Except WorkflowError String :=
  match outcome with
  | .error cause => .error (.upload (.execution cause))
  | .ok x =>
    let address := renderValue (x.outputs.find? "url")
    if address.isEmpty then .error (.upload (.noAddress source)) else .ok address

/-- Transfers an image: the context after it, and the address of the upload. While
the endpoint is executed, the context holds the image and its address. -/
def transfer (p : Platform) (source : String) (c : Context) :
    Program (Context × Except WorkflowError String) :=
  if p.definition.declares .uploadImageByUrl then do
    match ← p.hooks.uploadImageByUrl source c with
    | .ok address => return (c, .ok address)
    | .error cause => return (c, .error (.upload (.hook cause)))
  else match p.definition.endpoint? .uploadImage with
    | none => return (c, .error (.unsupported .images))
    | some endpoint => do
      match ← fetchImage source with
      | .error cause => return (c, .error (.upload cause))
      | .ok image =>
        let c := c.set "image_url" (.string source)
        let outcome ← p.executor.execute endpoint (c.setBlob "image" image)
        return (c.removeBlob "image", uploadedAddress source outcome)

/-- Uploads an image: the context after it, and the address of the upload. -/
def upload (p : Platform) (source : String) (c : Context) :
    Program (Context × Except WorkflowError String) := do
  Program.emit (.uploading p.id source)
  p.transfer source c

/-- Uploads an image unless the run is cancelled before or meanwhile. -/
def uploadOrCancel (p : Platform) (source : String) (c : Context) :
    Program (Context × Except WorkflowError String) := do
  let abandon (e : Event) : Program (Context × Except WorkflowError String) := do
    Program.emit e
    return (c, .error .cancelled)
  if ← Program.isCancelled then abandon (.cancelledBeforeUpload p.id source)
  else (p.upload source c).abandonedBy (abandon (.cancelledDuringUpload p.id source))

/-- Waits between two uploads as long as the platform asks for. -/
def pace (p : Platform) : Attempt Unit :=
  ExceptT.mk do
    if ← Program.pause (.ofMillis (p.definition.requestDelayMs.getD 0)) then return .ok ()
    else return .error .cancelled

/-- Uploads images one after another: the context after it, and the addresses of
those that could be uploaded, by image. -/
def uploadAll (p : Platform) : List String → Context → KeyMap String →
    Attempt (Context × KeyMap String)
  | [], c, hosted => return (c, hosted)
  | source :: rest, c, hosted => do
    let (c, uploaded) ← Attempt.perform (p.uploadOrCancel source c)
    let hosted ← match uploaded with
      | .ok address => pure (hosted.insert source address)
      | .error .cancelled => Attempt.fail .cancelled
      | .error e => do
        Attempt.perform (.emit (.imageKept p.id source e.message))
        pure hosted
    -- no wait after the last one
    if !rest.isEmpty then p.pace
    p.uploadAll rest c hosted

/-- The content with its images uploaded, and the context after it. -/
def processImages (p : Platform) (content : String) (c : Context) : Attempt (Context × String) := do
  if p.definition.declares .processImages then
    match ← Attempt.perform (p.hooks.processImages content c) with
    | .ok content => return (c, content)
    | .error cause => Attempt.fail (.hook .processImages cause)
  else if p.definition.supports .imageUpload && p.canUpload then
    let (c, hosted) ← p.uploadAll (imageSources content) c []
    return (c, withHostedImages hosted content)
  else return (c, content)

/-- The context with the cover of an article uploaded. -/
def uploadCover (p : Platform) (a : Article) (c : Context) : Attempt Context := do
  match a.cover with
  | none => return c
  | some cover =>
    if a.hasCover && p.definition.supports .cover && p.canUpload then
      let (c, uploaded) ← Attempt.perform (p.uploadOrCancel cover c)
      match uploaded with
      | .ok address => return c.setArticleField "cover" (.string address)
      | .error .cancelled => Attempt.fail .cancelled
      | .error e =>
        Attempt.perform (.emit (.coverDropped p.id cover e.message))
        -- a cover that could not be uploaded is left out
        return c.setArticleField "cover" (.string "")
    else return c

end Platform

end Syndication
