import Syndication.Definition.Error
import Syndication.Hooks.Basic

/-!
# Platforms

A platform is a definition together with an implementation of every hook that the
definition asks for.

Main statement:

* `bind_isOk_iff`: an implementation is accepted when it provides every hook that
  is asked for.
-/

namespace Syndication

/-- A definition with the hooks that it asks for. -/
structure Platform where
  definition : Definition
  /-- The implementation of the hooks. -/
  hooks : Hooks
  /-- Every hook that is asked for is provided. -/
  provided : ∀ h ∈ definition.hooks, hooks.provides h = true

namespace Platform

/-- The platform of a definition and an implementation of hooks. -/
def bind (d : Definition) (hooks : Hooks) : Except DefinitionError Platform :=
  match h : d.hooks.find? (!hooks.provides ·) with
  | some missing => .error (.missingHook d.id missing)
  | none => .ok ⟨d, hooks, by simpa using h⟩

/-- An implementation is accepted when it provides every hook that is asked
for. -/
theorem bind_isOk_iff (d : Definition) (hooks : Hooks) :
    (∃ p, bind d hooks = .ok p) ↔ ∀ h ∈ d.hooks, hooks.provides h = true := by
  unfold bind
  split
  · rename_i missing h
    have hm := List.find?_some h
    have hi := List.mem_of_find?_eq_some h
    constructor
    · rintro ⟨p, hp⟩
      cases hp
    · intro ha
      simp [ha _ hi] at hm
  · rename_i h
    exact ⟨fun _ => by simpa using h, fun _ => ⟨_, rfl⟩⟩

/-- What is bound is the definition, with the implementation as it is. -/
theorem eq_of_bind {d : Definition} {hooks : Hooks} {p : Platform} (h : bind d hooks = .ok p) :
    p.definition = d ∧ p.hooks = hooks := by
  unfold bind at h
  split at h
  · cases h
  · cases h
    exact ⟨rfl, rfl⟩

/-- The id. -/
def id (p : Platform) : String :=
  p.definition.id

theorem id_of_bind {d : Definition} {hooks : Hooks} {p : Platform} (h : bind d hooks = .ok p) :
    p.id = d.id := by
  rw [id, (eq_of_bind h).1]

/-- The platform as it is shown. -/
def text (p : Platform) : String :=
  let hooks := ", ".intercalate (p.definition.hooks.map (·.shownName))
  "AdapterRuntime \x7b platform: " ++ Text.quoted p.id ++ ", hooks: \x7b" ++ hooks ++ "\x7d \x7d"

end Platform

end Syndication
