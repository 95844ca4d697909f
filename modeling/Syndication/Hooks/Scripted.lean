import Syndication.Hooks.Basic
import Syndication.Template

/-!
# Scripted hooks

An implementation of hooks for offline use that does what a script says: each
hook may take its time, be cut off by a fault, fail, or do something simple.
-/

namespace Syndication

/-- How a scripted hook begins. -/
structure HookScript where
  /-- The time that it takes. -/
  delay : Duration
  /-- The fault by which it is cut off, with its text if it has one. -/
  fault : Option (Option String)
  /-- The text with which it fails. -/
  error : Option String

/-- A hook with its script: it takes its time, then is cut off, fails, or goes
on. -/
def HookScript.before {α : Type} (s : HookScript) (next : Program (Except HookError α)) :
    Program (Except HookError α) := do
  Program.delay s.delay
  match s.fault, s.error with
  | some text, _ => .fault text
  | none, some text => return .error ⟨text⟩
  | none, none => next

theorem HookScript.silent_before {α : Type} (s : HookScript) {next : Program (Except HookError α)}
    (h : next.Silent) : (s.before next).Silent := by
  refine Program.reports_bind (Program.silent_delay s.delay) fun _ => ?_
  split
  · trivial
  · trivial
  · exact h

/-- A text to be replaced and what replaces it. -/
abbrev Replacement := Option (String × String)

/-- A text with every occurrence replaced, if a replacement is given. -/
def Replacement.apply (r : Replacement) (s : String) : String :=
  match r with
  | some (old, new) => Text.replaceAll old new s
  | none => s

/-- What a script says about each hook. -/
structure HooksScript where
  provides : List Hook
  /-- Replaces a text in the content and adds a template to it. -/
  contentTransform : Option (HookScript × Replacement × Option String)
  /-- Drops empty collections, or puts another body in the place of the body and
  the address under a key of it. -/
  prepareBody : Option (HookScript × Bool × Option Body × Option String)
  /-- Headers by their templates; the template `<url>` stands for the address. -/
  beforeRequest : Option (HookScript × KeyMap String)
  /-- Asks for an address, then replaces a text in the content. -/
  processImages : Option (HookScript × Option String × Replacement)
  /-- The addresses of uploads by image, or one address for all. -/
  uploadImageByUrl : Option (HookScript × Option (KeyMap String) × String)

/-- The body with the address under a key, where it is a JSON object. -/
def Body.setKey (body : Body) (key : Option String) (value : String) : Body :=
  match body, key with
  | .json (.object members), some key => .json (.object (KeyMap.insert key (.string value) members))
  | body, _ => body

/-- The implementation that does what a script says. -/
def Hooks.scripted (s : HooksScript) : Hooks where
  provides h := s.provides.contains h
  contentTransform content c :=
    match s.contentTransform with
    | none => Hooks.passive.contentTransform content c
    | some (start, replacement, suffix) =>
      start.before (pure (.ok
        (replacement.apply content ++ (suffix.elim "" fun t => interpolate t c.toJson))))
  prepareBody url body c :=
    match s.prepareBody with
    | none => Hooks.passive.prepareBody url body c
    | some (start, prune, replacement, key) =>
      start.before (pure (.ok (if prune then DropEmpty.pruneBody body
        else (replacement.getD body).setKey key url)))
  beforeRequest url c :=
    match s.beforeRequest with
    | none => Hooks.passive.beforeRequest url c
    | some (start, headers) =>
      start.before (pure (.ok (headers.mapValues fun value =>
        if value == "<url>" then url else interpolate value c.toJson)))
  processImages content c :=
    match s.processImages with
    | none => Hooks.passive.processImages content c
    | some (start, address, replacement) =>
      start.before do
        match address with
        | none => return .ok (replacement.apply content)
        | some address =>
          match ← Program.request (.get address) with
          | .ok _ => return .ok (replacement.apply content)
          | .error cause => return .error ⟨cause.message⟩
  uploadImageByUrl src c :=
    match s.uploadImageByUrl with
    | none => Hooks.passive.uploadImageByUrl src c
    | some (start, table, url) =>
      start.before (pure (match table with
        | none => .ok url
        | some table =>
          match table.find? src with
          | some hosted => .ok hosted
          | none => .error ⟨s!"no mapping for {src}"⟩))
  silent_contentTransform content c := by
    cases s.contentTransform with
    | none => trivial
    | some script => exact script.1.silent_before trivial
  silent_prepareBody url body c := by
    cases s.prepareBody with
    | none => trivial
    | some script => exact script.1.silent_before trivial
  silent_beforeRequest url c := by
    cases s.beforeRequest with
    | none => trivial
    | some script => exact script.1.silent_before trivial
  silent_processImages content c := by
    cases s.processImages with
    | none => trivial
    | some script =>
      obtain ⟨start, address, replacement⟩ := script
      refine start.silent_before ?_
      cases address with
      | none => trivial
      | some address =>
        refine Program.reports_bind (Program.silent_request _) fun answer => ?_
        cases answer <;> trivial
  silent_uploadImageByUrl src c := by
    cases s.uploadImageByUrl with
    | none => trivial
    | some script => exact script.1.silent_before trivial

end Syndication
