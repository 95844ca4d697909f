import Syndication.Proofs.Definition.Writing
import Syndication.Proofs.Json.Scanning

/-!
# Encoding a definition

The text of a definition is read as a definition again. It is the same one when it is read from the
document of a value. In a text the numbers in the bodies are written with digits; a number of double
precision may be read as a neighbour of it, and nothing else changes.

* `DefinitionSpec.reread`: the definition with what the texts of its numbers are read as.
* `DefinitionSpec.decode?_compact_write`: what the text of a definition is read as.
* `DefinitionSpec.reread_eq_self_iff`: when that is the definition itself.
-/

namespace Syndication

open Document (ofJson)
open Json (Lists readable_ofOption readable_ofStrings readable_toJson)

variable {object : List (String × Json) → Json} {depth : Nat} {f : Json.Number → Json.Number}

/-! ### Responses -/

theorem ResponseSpec.mapNumbers_write (hobject : Lists object) (s : ResponseSpec) :
    (s.write object).mapNumbers f = s.write object := by
  have hmembers : KeyMap.mapValues (Json.mapNumbers f) s.members = s.members := by
    simp only [members, KeyMap.mapValues_cons, KeyMap.mapValues_nil,
      Json.mapNumbers_of_numbers (Json.numbers_ofOption _),
      Json.mapNumbers_of_numbers (Json.numbers_toJson _)]
  rw [write, hobject.mapNumbers, hmembers]

theorem ResponseSpec.readable_write (hobject : Lists object) (s : ResponseSpec)
    (hdepth : depth + 1 < Json.maxDepth) : (s.write object).Readable depth := by
  refine hobject.readable ResponseSpec.namesApart_layout.1 (Nat.lt_of_succ_lt hdepth) ?_
  simp only [members, List.forall_mem_cons, List.not_mem_nil, false_imp_iff, implies_true, and_true]
  exact ⟨readable_ofOption _, readable_ofOption _, readable_toJson _ hdepth⟩

/-! ### Endpoints -/

namespace EndpointSpec

/-- **The endpoint with what the texts of its numbers are read as.** -/
def reread (s : EndpointSpec) : EndpointSpec :=
  { s with body := s.body.map Json.reread }

/-- The numbers in the body. -/
def numbers (s : EndpointSpec) : List Json.Number :=
  s.body.elim [] Json.numbers

theorem reread_statuses {statuses : List Nat} (h : ∀ n ∈ statuses, n ≤ 65535) :
    (Json.array (statuses.map Json.ofNat)).reread = .array (statuses.map Json.ofNat) := by
  rw [Json.reread, Json.mapNumbers, Json.mapItems_eq_map, List.map_map]
  refine congrArg Json.array (List.map_congr_left fun n hn => ?_)
  have hgreatest : (65535 : Nat) ≤ Decimal.greatestNat64 := by decide
  exact Json.reread_ofNat (Nat.le_trans (h n hn) hgreatest)

/-- What is written is read with other numbers in the body only. -/
theorem reread_write (hobject : Lists object) {s : EndpointSpec} (h : s.Writable) :
    (s.write object).reread = s.reread.write object := by
  have hbody : (s.body.getD .null).reread = (s.body.map Json.reread).getD .null := by
    cases s.body with
    | none => rfl
    | some v => rfl
  -- the statuses are integers of 64 bits, and no other field but the body has numbers
  have hmembers :
      KeyMap.mapValues Json.reread (s.members object) = s.reread.members object := by
    simp only [members, reread, KeyMap.mapValues_cons, KeyMap.mapValues_nil,
      Json.mapNumbers_string, Json.mapNumbers_of_numbers (Json.numbers_ofOption _),
      Json.mapNumbers_of_numbers (Json.numbers_toJson _), hbody, reread_statuses h.statuses,
      ResponseSpec.mapNumbers_write hobject]
  rw [write, write, Json.reread, hobject.mapNumbers]
  exact congrArg object hmembers

theorem writable_reread {s : EndpointSpec} (h : s.Writable) : s.reread.Writable where
  maps := ⟨h.maps.headers, h.maps.extract⟩
  statuses := h.statuses
  body v hv := by
    obtain ⟨w, hw, rfl⟩ := Option.map_eq_some_iff.1 hv
    obtain ⟨hne, horder⟩ := h.body w hw
    exact ⟨Json.mapNumbers_ne_null hne, horder.mapNumbers⟩

theorem readable_write (hobject : Lists object) {s : EndpointSpec} (h : s.Writable)
    (hfits : s.Fits depth) (hdepth : depth + 2 < Json.maxDepth) :
    (s.write object).Readable depth := by
  have hbody : (s.body.getD .null).Readable (depth + 1) := by
    cases hs : s.body with
    | none => exact .null
    | some v => exact hfits v hs
  have hstatuses : (Json.array (s.acceptStatus.map Json.ofNat)).Readable (depth + 1) := by
    refine .array (Nat.lt_of_succ_lt hdepth) fun v hv => ?_
    obtain ⟨n, hn, rfl⟩ := List.mem_map.1 hv
    have hgreatest : (65535 : Nat) ≤ Decimal.greatestNat64 := by decide
    exact .number (Json.inRange_ofNat (Nat.le_trans (h.statuses n hn) hgreatest))
  refine hobject.readable EndpointSpec.namesApart_layout.1
    (Nat.lt_of_succ_lt (Nat.lt_of_succ_lt hdepth)) ?_
  simp only [members, List.forall_mem_cons, List.not_mem_nil, false_imp_iff, implies_true, and_true]
  exact ⟨.string _, readable_ofOption _, readable_toJson _ (Nat.lt_of_succ_lt hdepth),
    readable_ofOption _, hbody, hstatuses, ResponseSpec.readable_write hobject s.response hdepth⟩

/-- The endpoint stays the same just when the numbers of its body do. -/
theorem reread_eq_self_iff (s : EndpointSpec) :
    s.reread = s ↔ ∀ n ∈ s.numbers, n.reread = n := by
  obtain ⟨url, method, headers, contentType, body, statuses, response⟩ := s
  cases body with
  | none => exact ⟨fun _ => List.forall_mem_nil _, fun _ => rfl⟩
  | some v =>
    calc (⟨url, method, headers, contentType, some v, statuses, response⟩ : EndpointSpec).reread =
        ⟨url, method, headers, contentType, some v, statuses, response⟩
      _ ↔ v.reread = v := by simp [reread]
      _ ↔ _ := Json.mapNumbers_eq_self_iff v

end EndpointSpec

/-! ### Definitions -/

namespace DefinitionSpec

/-- **The definition with what the texts of its numbers are read as.** -/
def reread (s : DefinitionSpec) : DefinitionSpec :=
  { s with
    auth := s.auth.map EndpointSpec.reread
    endpoints := s.endpoints.mapValues EndpointSpec.reread }

/-- The numbers in the bodies. -/
def numbers (s : DefinitionSpec) : List Json.Number :=
  s.auth.elim [] EndpointSpec.numbers ++ s.endpoints.flatMap fun e => e.2.numbers

/-- What is written is read with other numbers in the bodies only. -/
theorem reread_write (hobject : Lists object) {s : DefinitionSpec} (h : s.Writable) :
    (s.write object).reread = s.reread.write object := by
  have hauth : (s.auth.elim .null (EndpointSpec.write object)).reread =
      (s.auth.map EndpointSpec.reread).elim .null (EndpointSpec.write object) := by
    cases hs : s.auth with
    | none => rfl
    | some e => exact EndpointSpec.reread_write hobject (h.auth e hs)
  have hendpoints : (Json.object (s.endpoints.mapValues (EndpointSpec.write object))).reread =
      .object ((s.endpoints.mapValues EndpointSpec.reread).mapValues (EndpointSpec.write object)) := by
    rw [Json.reread, Json.mapNumbers, Json.mapMembers_eq_mapValues, KeyMap.mapValues_mapValues,
      KeyMap.mapValues_mapValues]
    exact congrArg Json.object (KeyMap.mapValues_congr fun e he =>
      EndpointSpec.reread_write hobject (h.endpoints e he))
  have hdelay : (s.requestDelayMs.elim .null Json.ofNat).reread =
      s.requestDelayMs.elim .null Json.ofNat := by
    cases hs : s.requestDelayMs with
    | none => rfl
    | some n => exact Json.reread_ofNat (h.delay n hs)
  have hmembers :
      KeyMap.mapValues Json.reread (s.members object) = s.reread.members object := by
    simp only [members, reread, KeyMap.mapValues_cons, KeyMap.mapValues_nil,
      Json.mapNumbers_string, Json.mapNumbers_of_numbers (Json.numbers_ofOption _),
      Json.mapNumbers_of_numbers (Json.numbers_ofStrings _), hauth, hendpoints, hdelay]
  rw [write, write, Json.reread, hobject.mapNumbers]
  exact congrArg object hmembers

theorem writable_reread {s : DefinitionSpec} (h : s.Writable) : s.reread.Writable where
  auth e he := by
    obtain ⟨e', he', rfl⟩ := Option.map_eq_some_iff.1 he
    exact EndpointSpec.writable_reread (h.auth e' he')
  sorted := KeyMap.sorted_mapValues _ h.sorted
  endpoints e he := by
    obtain ⟨e', he', rfl⟩ := List.mem_map.1 he
    exact EndpointSpec.writable_reread (h.endpoints e' he')
  delay := h.delay

theorem readable_write (hobject : Lists object) {s : DefinitionSpec} (h : s.Writable)
    (hfits : s.Fits) : (s.write object).Readable 0 := by
  have hauth : (s.auth.elim .null (EndpointSpec.write object)).Readable 1 := by
    cases hs : s.auth with
    | none => exact .null
    | some e =>
      exact EndpointSpec.readable_write hobject (h.auth e hs) (hfits.auth e hs) (by decide)
  have hendpoints :
      (Json.object (s.endpoints.mapValues (EndpointSpec.write object))).Readable 1 := by
    refine .object (by decide) fun m hm => ?_
    obtain ⟨e, he, rfl⟩ := List.mem_map.1 hm
    exact EndpointSpec.readable_write hobject (h.endpoints e he) (hfits.endpoints e he) (by decide)
  have hdelay : (s.requestDelayMs.elim .null Json.ofNat).Readable 1 := by
    cases hs : s.requestDelayMs with
    | none => exact .null
    | some n => exact .number (Json.inRange_ofNat (h.delay n hs))
  refine hobject.readable DefinitionSpec.namesApart_layout.1 (by decide) ?_
  simp only [members, List.forall_mem_cons, List.not_mem_nil, false_imp_iff, implies_true, and_true]
  exact ⟨.string _, .string _, readable_ofOption _, .string _, readable_ofStrings _ (by decide),
    readable_ofOption _, hauth, hendpoints, readable_ofOption _, readable_ofOption _, hdelay,
    readable_ofStrings _ (by decide)⟩

/-- **What the text of a definition is read as**: the definition, but for the numbers in its
bodies. -/
theorem decode?_compact_write (hobject : Lists object) {s : DefinitionSpec} (h : s.Writable)
    (hfits : s.Fits) : decode? (s.write object).compact = some s.reread := by
  rw [decode?, Json.document?_compact (readable_write hobject h hfits), Option.bind_some,
    reread_write hobject h]
  exact ofDocument?_write hobject (writable_reread h)

/-- **The definition stays the same just when the numbers of its bodies do.** -/
theorem reread_eq_self_iff (s : DefinitionSpec) :
    s.reread = s ↔ ∀ n ∈ s.numbers, n.reread = n := by
  have hauth : s.auth.map EndpointSpec.reread = s.auth ↔
      ∀ n ∈ s.auth.elim [] EndpointSpec.numbers, n.reread = n := by
    cases s.auth with
    | none => exact ⟨fun _ => List.forall_mem_nil _, fun _ => rfl⟩
    | some e => simpa using EndpointSpec.reread_eq_self_iff e
  have hendpoints : s.endpoints.mapValues EndpointSpec.reread = s.endpoints ↔
      ∀ n ∈ s.endpoints.flatMap fun e => e.2.numbers, n.reread = n := by
    rw [KeyMap.mapValues, Json.map_eq_self_iff]
    simp only [List.mem_flatMap, Prod.ext_iff, true_and, EndpointSpec.reread_eq_self_iff]
    constructor
    · rintro hsame n ⟨e, he, hn⟩
      exact hsame e he n hn
    · exact fun hall e he n hn => hall n ⟨e, he, hn⟩
  calc s.reread = s
    _ ↔ s.auth.map EndpointSpec.reread = s.auth ∧
        s.endpoints.mapValues EndpointSpec.reread = s.endpoints := by
      obtain ⟨id, name, icon, homepage, capabilities, contentFormat, auth, endpoints, draftUrl,
        postUrl, delay, hooks⟩ := s
      simp [reread]
    _ ↔ _ := by rw [hauth, hendpoints, numbers, List.forall_mem_append]

/-- The numbers of a definition that is read are in the bounds. -/
theorem inRange_of_mem_numbers {s : DefinitionSpec} (hfits : s.Fits) :
    ∀ n ∈ s.numbers, n.InRange := by
  have hnumbers {e : EndpointSpec} {depth : Nat} (h : e.Fits depth) : ∀ n ∈ e.numbers, n.InRange := by
    intro n hn
    unfold EndpointSpec.numbers at hn
    cases hbody : e.body with
    | none =>
      rw [hbody] at hn
      cases hn
    | some v =>
      rw [hbody] at hn
      exact (h v hbody).inRange n hn
  refine List.forall_mem_append.2 ⟨fun n hn => ?_, fun n hn => ?_⟩
  · cases hauth : s.auth with
    | none =>
      rw [hauth] at hn
      cases hn
    | some e =>
      rw [hauth] at hn
      exact hnumbers (hfits.auth e hauth) n hn
  · obtain ⟨e, he, hn⟩ := List.mem_flatMap.1 hn
    exact hnumbers (hfits.endpoints e he) n hn

end DefinitionSpec

end Syndication
