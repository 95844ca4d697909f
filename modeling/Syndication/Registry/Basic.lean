import Syndication.Event
import Syndication.Workflow.Platform

/-!
# Registries

A registry holds platforms under their ids, in the order of the ids.

Main statements:

* `get?_register`: a platform that was registered is found under its id, and the
  others as before.
* `register_eq_error_iff`: only an id that is taken is refused.
-/

namespace Syndication

/-- A registry of platforms. -/
structure Registry where
  /-- The platforms by id. -/
  platforms : KeyMap Platform
  /-- The ids are in strictly increasing order. -/
  sorted : platforms.Sorted
  /-- Every platform stands under its own id. -/
  keyed : ∀ e ∈ platforms, e.2.id = e.1

/-- Why a platform could not be registered. -/
inductive RegistrationError where
  /-- The definition is refused. -/
  | definition (cause : DefinitionError)
  /-- The id is taken. -/
  | duplicate (id : String)
deriving DecidableEq, Repr

/-- The wording of the error. -/
def RegistrationError.message : RegistrationError → String
  | .definition cause => cause.message
  | .duplicate id => s!"Platform already registered: {id}"

namespace Registry

/-- The registry without platforms. -/
def empty : Registry :=
  ⟨[], KeyMap.sorted_nil, by simp⟩

/-- The platform under an id. -/
def get? (r : Registry) (id : String) : Option Platform :=
  r.platforms.find? id

@[simp] theorem get?_empty (id : String) : empty.get? id = none := rfl

/-- The ids, in order. -/
def ids (r : Registry) : List String :=
  r.platforms.keys

/-- The ids are those under which there is a platform. -/
theorem mem_ids_iff {r : Registry} {id : String} : id ∈ r.ids ↔ (r.get? id).isSome = true :=
  KeyMap.mem_keys_iff

/-- The ids are in strictly increasing order. -/
theorem pairwise_ids (r : Registry) : r.ids.Pairwise (· < ·) :=
  List.pairwise_map.2 r.sorted

/-- The registry with a platform under its id, in the place of the one that stood
there. -/
def put (r : Registry) (p : Platform) : Registry where
  platforms := r.platforms.insert p.id p
  sorted := KeyMap.sorted_insert r.sorted
  keyed e h := by
    rcases KeyMap.mem_insert h with h | h
    · rw [h]
    · exact r.keyed e h

/-- What is found after a platform was put into its place. -/
theorem get?_put (r : Registry) (p : Platform) (id : String) :
    (r.put p).get? id = if id = p.id then some p else r.get? id := by
  by_cases hid : id = p.id
  · simp [hid, get?, put]
  · simp [hid, get?, put, KeyMap.find?_insert_ne hid]

/-- Registers a platform unless its id is taken. -/
def register (r : Registry) (p : Platform) : Except RegistrationError Registry :=
  if (r.get? p.id).isSome then .error (.duplicate p.id) else .ok (r.put p)

/-- The registry without an id. -/
def unregister (r : Registry) (id : String) : Registry where
  platforms := r.platforms.erase id
  sorted := KeyMap.sorted_erase r.sorted
  keyed e h := r.keyed e (List.mem_filter.1 h).1

/-- What is found after an id was taken out. -/
theorem get?_unregister (r : Registry) (other id : String) :
    (r.unregister other).get? id = if id = other then none else r.get? id := by
  by_cases hid : id = other
  · simp [hid, get?, unregister]
  · simp [hid, get?, unregister, KeyMap.find?_erase_ne hid]

/-- Only an id that is taken is refused. -/
theorem register_eq_error_iff (r : Registry) (p : Platform) (e : RegistrationError) :
    r.register p = .error e ↔ (r.get? p.id).isSome = true ∧ e = .duplicate p.id := by
  unfold register
  split
  · rename_i h
    simp only [h, true_and, Except.error.injEq]
    exact eq_comm
  · rename_i h
    simp [h]

/-- A platform that was registered is found under its id, and the others as
before. -/
theorem get?_register {r r' : Registry} {p : Platform} (h : r.register p = .ok r') (id : String) :
    r'.get? id = if id = p.id then some p else r.get? id := by
  unfold register at h
  split at h
  · simp at h
  · simp only [Except.ok.injEq] at h
    rw [← h, get?_put]

/-- A platform is found under its own id. -/
theorem id_of_get? {r : Registry} {id : String} {p : Platform} (h : r.get? id = some p) :
    p.id = id :=
  r.keyed _ (KeyMap.mem_of_find? h)

/-- The platform of a definition, bound to the implementation of hooks that is
chosen for it and registered. -/
def registerDefinition (r : Registry) (hooksFor : Definition → Hooks) (d : Definition) :
    Except RegistrationError Registry :=
  match Platform.bind d (hooksFor d) with
  | .error cause => .error (.definition cause)
  | .ok p => r.register p

/-- **Registers definitions** one after another: the registry after it, and what
could not be registered, by id. -/
def registerAll (r : Registry) (hooksFor : Definition → Hooks) :
    List Definition → Registry × List (String × RegistrationError)
  | [] => (r, [])
  | d :: rest =>
    match r.registerDefinition hooksFor d with
    | .ok r => r.registerAll hooksFor rest
    | .error e =>
      let (r, skipped) := r.registerAll hooksFor rest
      (r, (d.id, e) :: skipped)

/-- What is reported about definitions that could not be registered. -/
def skipEvents (skipped : List (String × RegistrationError)) : List Event :=
  skipped.map fun (id, e) => .platformSkipped id e.message

end Registry

end Syndication
