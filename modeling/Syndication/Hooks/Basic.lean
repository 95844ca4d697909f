import Syndication.Context
import Syndication.Definition.Basic
import Syndication.Program

/-!
# Hooks

A platform's own code for steps of the workflow. An implementation says which
hooks it provides; a hook that it provides but does not define behaves as if it
were not there, except that an upload has nowhere to go. A hook may send requests
and take its time, but the journal of the run is not its own to write.

Main statements:

* `Hooks.absent`, `Hooks.passive`: the implementation that provides nothing, and
  the one that provides everything and does nothing.
* `DropEmpty.prune`: dropping empty collections from a JSON body.
-/

namespace Syndication

/-- What a hook says when it fails. -/
structure HookError where
  /-- The text of the failure. -/
  message : String
deriving DecidableEq, Repr

/-- An implementation of hooks. -/
structure Hooks where
  /-- Whether a hook is provided. -/
  provides : Hook → Bool
  /-- Changes the content before it is converted. -/
  contentTransform : String → Context → Program (Except HookError String)
  /-- Changes the body of a request to an address. -/
  prepareBody : String → Body → Context → Program (Except HookError Body)
  /-- The headers for one request to an address. -/
  beforeRequest : String → Context → Program (Except HookError (KeyMap String))
  /-- Replaces the images of the content. -/
  processImages : String → Context → Program (Except HookError String)
  /-- Uploads the image at an address and gives the address of the upload. -/
  uploadImageByUrl : String → Context → Program (Except HookError String)
  /-- No hook writes the journal. -/
  silent_contentTransform : ∀ content c, (contentTransform content c).Silent
  silent_prepareBody : ∀ url body c, (prepareBody url body c).Silent
  silent_beforeRequest : ∀ url c, (beforeRequest url c).Silent
  silent_processImages : ∀ content c, (processImages content c).Silent
  silent_uploadImageByUrl : ∀ source c, (uploadImageByUrl source c).Silent

namespace Hooks

/-- The implementation that provides every hook and does nothing. -/
def passive : Hooks where
  provides _ := true
  contentTransform content _ := pure (.ok content)
  prepareBody _ body _ := pure (.ok body)
  beforeRequest _ _ := pure (.ok [])
  processImages content _ := pure (.ok content)
  uploadImageByUrl _ _ := pure (.error ⟨"upload_image_by_url is not implemented"⟩)
  silent_contentTransform _ _ := trivial
  silent_prepareBody _ _ _ := trivial
  silent_beforeRequest _ _ := trivial
  silent_processImages _ _ := trivial
  silent_uploadImageByUrl _ _ := trivial

/-- The implementation that provides no hook. -/
def absent : Hooks :=
  { passive with provides := fun _ => false }

end Hooks

/-! ### Dropping empty collections -/

namespace DropEmpty

/-- Whether a text writes an empty collection. -/
def isEmptyText (s : String) : Bool :=
  let t := Text.trim s
  t == "[]" || t == "\x7b\x7d"

/-- Whether a value is an empty collection. -/
def isEmptyCollection : Json → Bool
  | .array [] | .object [] => true
  | _ => false

mutual

/-- The value without the members that are, or become, empty collections. The
items of an array stay. -/
def prune : Json → Json
  | .array items => .array (pruneItems items)
  | .object members => .object (pruneMembers members)
  | other => other

/-- The items, each pruned. -/
def pruneItems : List Json → List Json
  | [] => []
  | v :: rest => prune v :: pruneItems rest

/-- The members, each pruned, without those that are empty collections then. -/
def pruneMembers : List (String × Json) → List (String × Json)
  | [] => []
  | (k, v) :: rest =>
    let v := prune v
    if isEmptyCollection v then pruneMembers rest else (k, v) :: pruneMembers rest

end

/-- The body without empty collections. -/
def pruneBody : Body → Body
  | .empty => .empty
  | .json value => .json (prune value)
  | .form fields => .form (fields.filter (!isEmptyText ·.2))
  | .multipart parts => .multipart (parts.filter keeps)
where
  /-- Whether a part stays; a file always does. -/
  keeps : String × Part → Bool
    | (_, .text t) => !isEmptyText t
    | (_, .blob _) => true

end DropEmpty

/-- The implementation that drops empty collections from bodies. -/
def Hooks.dropEmpty : Hooks :=
  { Hooks.passive with
    provides := fun h => h == .prepareBody
    prepareBody := fun _ body _ => pure (.ok (DropEmpty.pruneBody body))
    silent_prepareBody := fun _ _ _ => trivial }

/-- The implementation that a definition gets when none was written for its
platform: one that drops empty collections if that is all it asks for, and none
otherwise. -/
def Hooks.forDefinition (d : Definition) : Hooks :=
  if !d.hooks.isEmpty && d.hooks.all Hooks.dropEmpty.provides then Hooks.dropEmpty else Hooks.absent

end Syndication
