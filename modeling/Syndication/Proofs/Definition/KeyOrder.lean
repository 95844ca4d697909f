import Mathlib.Data.List.Forall2
import Syndication.Definition.Spec

/-!
# The maps of a definition document

The entries of a map are kept in the order of their keys, whatever order they have in the document.
What is read from a document therefore lists its endpoints by name, and the expressions of each of
them by key, and that is the order in which they are checked.

Main statement:

* `DefinitionSpec.inKeyOrder_of_ofDocument?`: every map of a definition is in the order of its keys.
-/

namespace Syndication

variable {α β : Type}

theorem exists_of_mem_mapM {f : α → Option β} {xs : List α} {ys : List β} (h : xs.mapM f = some ys)
    {y : β} (hy : y ∈ ys) : ∃ x ∈ xs, f x = some y := by
  induction xs generalizing ys with
  | nil =>
    cases h
    exact absurd hy List.not_mem_nil
  | cons x rest ih =>
    simp only [List.mapM_cons, Option.bind_eq_bind, Option.bind_eq_some_iff, Option.pure_def,
      Option.some.injEq] at h
    obtain ⟨first, hfirst, others, hothers, rfl⟩ := h
    rcases List.mem_cons.1 hy with rfl | hy
    · exact ⟨x, List.mem_cons_self, hfirst⟩
    · obtain ⟨x', hx', hread⟩ := ih hothers hy
      exact ⟨x', List.mem_cons_of_mem _ hx', hread⟩

namespace Document

variable {d : Document} {read : Document → Option α} {m : KeyMap α}

theorem exists_ofEntries_of_map? (h : d.map? read = some m) :
    ∃ entries, m = KeyMap.ofEntries entries ∧ ∀ e ∈ entries, ∃ d, read d = some e.2 := by
  unfold map? at h
  split at h
  · simp only [Option.bind_eq_bind, Option.bind_eq_some_iff, Option.pure_def,
      Option.some.injEq] at h
    obtain ⟨pairs, hpairs, rfl⟩ := h
    refine ⟨pairs, rfl, fun e he => ?_⟩
    obtain ⟨entry, -, hentry⟩ := exists_of_mem_mapM hpairs he
    simp only [Option.bind_eq_some_iff, Option.some.injEq] at hentry
    obtain ⟨key, -, value, hvalue, rfl⟩ := hentry
    exact ⟨_, hvalue⟩
  · cases h
    exact ⟨[], rfl, List.forall_mem_nil _⟩
  · cases h

/-- A map is read in the order of its keys. -/
theorem sorted_of_map? (h : d.map? read = some m) : KeyMap.Sorted m := by
  obtain ⟨entries, rfl, -⟩ := exists_ofEntries_of_map? h
  exact KeyMap.sorted_ofEntries entries

/-- Every value of a map is read from a part of the document. -/
theorem exists_of_mem_map? (h : d.map? read = some m) {e : String × α} (he : e ∈ m) :
    ∃ d, read d = some e.2 := by
  obtain ⟨entries, rfl, hread⟩ := exists_ofEntries_of_map? h
  exact hread e (KeyMap.mem_ofEntries he)

/-- What holds of the value that is there and of the value for its absence holds of a field. -/
theorem Record.of_withDefault? {r : Record} {name : String} {missing a : α} {P : α → Prop}
    (h : r.withDefault? name missing read = some a) (hmissing : P missing)
    (hread : ∀ d, read d = some a → P a) : P a := by
  unfold withDefault? at h
  split at h
  · exact hread _ h
  · cases h
    exact hmissing

/-- A value that is there is read from a document that is not null. -/
theorem of_optional? {a : α} (h : d.optional? read = some (some a)) :
    read d = some a ∧ d ≠ .null := by
  unfold optional? at h
  split at h
  · cases h
  · rename_i hpresent
    split at h
    · cases h
    · obtain ⟨b, hb, hba⟩ := Option.map_eq_some_iff.1 h
      cases hba
      refine ⟨hb, ?_⟩
      rintro rfl
      exact hpresent rfl

end Document

open Document (Record)

theorem ResponseSpec.sorted_of_ofDocument? {d : Document} {s : ResponseSpec}
    (h : ResponseSpec.ofDocument? d = some s) : s.extract.Sorted := by
  unfold ResponseSpec.ofDocument? at h
  obtain ⟨r, -, h⟩ := Option.bind_eq_some_iff.1 h
  obtain ⟨success, -, h⟩ := Option.bind_eq_some_iff.1 h
  obtain ⟨error, -, h⟩ := Option.bind_eq_some_iff.1 h
  obtain ⟨extract, hextract, h⟩ := Option.bind_eq_some_iff.1 h
  cases h
  exact Record.of_withDefault? hextract KeyMap.sorted_nil fun _ => Document.sorted_of_map?

/-- The maps of an endpoint are in the order of their keys. -/
structure EndpointSpec.InKeyOrder (s : EndpointSpec) : Prop where
  headers : s.headers.Sorted
  extract : s.response.extract.Sorted

theorem EndpointSpec.inKeyOrder_of_ofDocument? {d : Document} {s : EndpointSpec}
    (h : EndpointSpec.ofDocument? d = some s) : s.InKeyOrder := by
  unfold EndpointSpec.ofDocument? at h
  obtain ⟨r, -, h⟩ := Option.bind_eq_some_iff.1 h
  obtain ⟨url, -, h⟩ := Option.bind_eq_some_iff.1 h
  obtain ⟨method, -, h⟩ := Option.bind_eq_some_iff.1 h
  obtain ⟨headers, hheaders, h⟩ := Option.bind_eq_some_iff.1 h
  obtain ⟨contentType, -, h⟩ := Option.bind_eq_some_iff.1 h
  obtain ⟨body, -, h⟩ := Option.bind_eq_some_iff.1 h
  obtain ⟨statuses, -, h⟩ := Option.bind_eq_some_iff.1 h
  obtain ⟨response, hresponse, h⟩ := Option.bind_eq_some_iff.1 h
  cases h
  constructor
  · exact Record.of_withDefault? hheaders KeyMap.sorted_nil fun _ => Document.sorted_of_map?
  · exact Record.of_withDefault? (P := fun r => r.extract.Sorted) hresponse KeyMap.sorted_nil
      fun _ => ResponseSpec.sorted_of_ofDocument?

/-- All maps of a definition are in the order of their keys. -/
structure DefinitionSpec.InKeyOrder (s : DefinitionSpec) : Prop where
  auth : ∀ auth ∈ s.auth, auth.InKeyOrder
  endpoints : s.endpoints.Sorted
  endpoint : ∀ entry ∈ s.endpoints, entry.2.InKeyOrder

/-- **Every map of a definition that is read is in the order of its keys.** -/
theorem DefinitionSpec.inKeyOrder_of_ofDocument? {d : Document} {s : DefinitionSpec}
    (h : DefinitionSpec.ofDocument? d = some s) : s.InKeyOrder := by
  unfold DefinitionSpec.ofDocument? at h
  obtain ⟨r, -, h⟩ := Option.bind_eq_some_iff.1 h
  obtain ⟨id, -, h⟩ := Option.bind_eq_some_iff.1 h
  obtain ⟨name, -, h⟩ := Option.bind_eq_some_iff.1 h
  obtain ⟨icon, -, h⟩ := Option.bind_eq_some_iff.1 h
  obtain ⟨homepage, -, h⟩ := Option.bind_eq_some_iff.1 h
  obtain ⟨capabilities, -, h⟩ := Option.bind_eq_some_iff.1 h
  obtain ⟨format, -, h⟩ := Option.bind_eq_some_iff.1 h
  obtain ⟨auth, hauth, h⟩ := Option.bind_eq_some_iff.1 h
  obtain ⟨endpoints, hendpoints, h⟩ := Option.bind_eq_some_iff.1 h
  obtain ⟨draftUrl, -, h⟩ := Option.bind_eq_some_iff.1 h
  obtain ⟨postUrl, -, h⟩ := Option.bind_eq_some_iff.1 h
  obtain ⟨delay, -, h⟩ := Option.bind_eq_some_iff.1 h
  obtain ⟨hooks, -, h⟩ := Option.bind_eq_some_iff.1 h
  cases h
  constructor
  · refine Record.of_withDefault? (P := fun auth => ∀ a ∈ auth, a.InKeyOrder) hauth nofun ?_
    intro d hread a ha
    cases ha
    exact EndpointSpec.inKeyOrder_of_ofDocument? (Document.of_optional? hread).1
  · exact Record.of_withDefault? hendpoints KeyMap.sorted_nil fun _ => Document.sorted_of_map?
  · refine Record.of_withDefault? (P := fun m => ∀ e ∈ m, e.2.InKeyOrder) hendpoints ?_ ?_
    · exact fun e he => absurd he List.not_mem_nil
    intro d hread e he
    obtain ⟨part, hpart⟩ := Document.exists_of_mem_map? hread he
    exact EndpointSpec.inKeyOrder_of_ofDocument? hpart

end Syndication
