import Syndication.Definition.Library
import Syndication.Registry.Basic
import Syndication.Settings.Basic

/-!
# Setting up a registry

The platforms of a library are registered in the order of their files. What keeps a
definition out of the registry is a problem of the library: its file is refused, or
no implementation provides a hook that it asks for.

Main statements:

* `enabled_subset`: only definitions of the library are registered.
* `setUp`: the registry of a directory.
-/

namespace Syndication

/-- What is wrong with a library. -/
inductive LibraryProblem where
  /-- A file is refused. -/
  | refused (cause : DefinitionError)
  /-- A definition cannot be registered. -/
  | unregistered (cause : RegistrationError)
  /-- There is nothing in it. -/
  | empty (directory : String)
deriving DecidableEq, Repr

/-- The wording of the problem. -/
def LibraryProblem.message : LibraryProblem → String
  | .refused cause => cause.message
  | .unregistered cause => cause.message
  | .empty directory => s!"No definitions found in {directory}"

namespace Library

/-- Registers all definitions of a library, or those among them that are asked
for: the registry, and what could not be registered. -/
def register (l : Library) (asked : Definition → Bool) :
    Registry × List (String × RegistrationError) :=
  Registry.empty.registerAll Hooks.forDefinition (l.definitions.filter asked)

/-- **The problems of a library**: its refused files, then its definitions that
cannot be registered. -/
def problems (l : Library) : List LibraryProblem :=
  let found := l.errors.map .refused ++
    (l.register fun _ => true).2.map fun (_, e) => .unregistered e
  if l.definitions.isEmpty && found.isEmpty then [.empty l.directory] else found

/-- The definitions that are enabled. -/
def enabled (l : Library) (s : Settings) : List Definition :=
  l.definitions.filter fun d => s.isEnabled d.id

/-- Only definitions of the library are enabled. -/
theorem enabled_subset (l : Library) (s : Settings) : l.enabled s ⊆ l.definitions :=
  fun _ h => (List.mem_filter.1 h).1

end Library

namespace Registry

/-- The registry of the enabled platforms of a library, and what could not be
registered. -/
def ofLibrary (s : Settings) (l : Library) : Registry × List (String × RegistrationError) :=
  l.register fun d => s.isEnabled d.id

/-- What is reported when a registry is set up. -/
def setUpEvents (s : Settings) (l : Library) : List Event :=
  l.readEvents ++ l.skipEvents ++ skipEvents (ofLibrary s l).2

/-- **The registry of a directory**, and what is reported. -/
def setUp (s : Settings) (directory : String) :
    FileProgram (Except DefinitionError (Registry × List Event)) := do
  match ← Library.load directory with
  | .error e => return .error e
  | .ok l => return .ok ((ofLibrary s l).1, setUpEvents s l)

end Registry

end Syndication
