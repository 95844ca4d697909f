import Syndication.Definition.Spec
import Syndication.Proofs.Document.Fields

/-!
# A definition that is written is read back

Every field of a definition is written under its own name, and it is found and read there, whether
the fields are listed in their own order or in that of their names.

* `DefinitionSpec.Writable`: what is true of every definition that is read.
* `DefinitionSpec.ofDocument?_write`: such a definition is read back from its document.
* `DefinitionSpec.writable_of_ofDocument?`: a definition that is read from a JSON text is one.
-/

namespace Syndication

open Document (NamesApart Record Scanned exists_record? ofJson)
open Json (Lists)

variable {object : List (String × Json) → Json} {depth : Nat} {d : Document}

/-! ### Responses -/

namespace ResponseSpec

theorem namesApart_layout : NamesApart layout := by decide

/-- **A response is read back**, its map being in the order of its keys. -/
theorem ofDocument?_write (hobject : Lists object) {s : ResponseSpec} (h : s.extract.Sorted) :
    ofDocument? (ofJson (s.write object)) = some s := by
  have hnames : s.members.map (·.1) = layout.map (·.name) := rfl
  obtain ⟨r, hr, hfields⟩ := exists_record? hobject namesApart_layout hnames
  simp only [members, List.forall_mem_cons, List.not_mem_nil, false_imp_iff,
    implies_true] at hfields
  obtain ⟨hsuccess, herror, hextract, -⟩ := hfields
  rw [ofDocument?, write, hr, Option.bind_eq_bind, Option.bind_some,
    Record.withDefault?_bind hsuccess (Document.optional?_ofOption _),
    Record.withDefault?_bind herror (Document.optional?_ofOption _),
    Record.withDefault?_bind hextract (Document.map?_toJson h)]
  rfl

end ResponseSpec

/-! ### Endpoints -/

namespace EndpointSpec

theorem namesApart_layout : NamesApart layout := by decide

/-- **What is true of every endpoint that is read**: its maps are in the order of their keys, its
statuses have 16 bits, and its body is not null and has its objects in the order of their keys. -/
structure Writable (s : EndpointSpec) : Prop where
  maps : s.InKeyOrder
  statuses : ∀ n ∈ s.acceptStatus, n ≤ 65535
  body : ∀ v ∈ s.body, v ≠ .null ∧ v.InKeyOrder

/-- A body is read back when it is there, and it is not there when it is read as null. -/
theorem optional?_body {body : Option Json} (h : ∀ v ∈ body, v ≠ .null ∧ v.InKeyOrder) :
    Document.optional? Document.toJson? (ofJson (body.getD .null)) = some body := by
  cases body with
  | none => rfl
  | some v =>
    obtain ⟨hne, horder⟩ := h v rfl
    rw [Option.getD_some, Document.optional?_ofJson hne, Document.toJson?_ofJson horder,
      Option.map_some]

/-- **An endpoint is read back.** -/
theorem ofDocument?_write (hobject : Lists object) {s : EndpointSpec} (h : s.Writable) :
    ofDocument? (ofJson (s.write object)) = some s := by
  have hnames : (s.members object).map (·.1) = layout.map (·.name) := rfl
  obtain ⟨r, hr, hfields⟩ := exists_record? hobject namesApart_layout hnames
  simp only [members, List.forall_mem_cons, List.not_mem_nil, false_imp_iff,
    implies_true] at hfields
  obtain ⟨hurl, hmethod, hheaders, htype, hbody, hstatus, hresponse, -⟩ := hfields
  have hstatuses : Document.list? (Document.nat? 65535)
      (ofJson (.array (s.acceptStatus.map Json.ofNat))) = some s.acceptStatus :=
    Document.list?_ofJson fun n hn => Document.nat?_ofNat (h.statuses n hn)
  rw [ofDocument?, write, hr, Option.bind_eq_bind, Option.bind_some,
    Record.withDefault?_bind hurl (Document.string?_ofJson _),
    Record.withDefault?_bind hmethod (Document.optional?_ofOption _),
    Record.withDefault?_bind hheaders (Document.map?_toJson h.maps.headers),
    Record.withDefault?_bind htype (Document.optional?_ofOption _),
    Record.withDefault?_bind hbody (optional?_body h.body),
    Record.withDefault?_bind hstatus hstatuses,
    Record.withDefault?_bind hresponse (ResponseSpec.ofDocument?_write hobject h.maps.extract)]
  rfl

end EndpointSpec

/-! ### Definitions -/

namespace DefinitionSpec

theorem namesApart_layout : NamesApart layout := by decide

/-- **What is true of every definition that is read.** -/
structure Writable (s : DefinitionSpec) : Prop where
  auth : ∀ e ∈ s.auth, e.Writable
  sorted : s.endpoints.Sorted
  endpoints : ∀ e ∈ s.endpoints, e.2.Writable
  delay : ∀ n ∈ s.requestDelayMs, n ≤ Decimal.greatestNat64

theorem optional?_auth (hobject : Lists object) {auth : Option EndpointSpec}
    (h : ∀ e ∈ auth, e.Writable) : Document.optional? EndpointSpec.ofDocument?
      (ofJson (auth.elim .null (EndpointSpec.write object))) = some auth := by
  cases auth with
  | none => rfl
  | some e =>
    have hne : e.write object ≠ .null := hobject.ne_null EndpointSpec.namesApart_layout.1
    show Document.optional? EndpointSpec.ofDocument? (ofJson (e.write object)) = some (some e)
    rw [Document.optional?_ofJson hne, EndpointSpec.ofDocument?_write hobject (h e rfl),
      Option.map_some]

theorem optional?_delay {delay : Option Nat} (h : ∀ n ∈ delay, n ≤ Decimal.greatestNat64) :
    Document.optional? (Document.nat? Decimal.greatestNat64)
      (ofJson (delay.elim .null Json.ofNat)) = some delay := by
  cases delay with
  | none => rfl
  | some n =>
    show (Document.nat? Decimal.greatestNat64 (ofJson (Json.ofNat n))).map some = some (some n)
    rw [Document.nat?_ofNat (h n rfl), Option.map_some]

/-- **A definition is read back from its document.** -/
theorem ofDocument?_write (hobject : Lists object) {s : DefinitionSpec} (h : s.Writable) :
    ofDocument? (ofJson (s.write object)) = some s := by
  have hnames : (s.members object).map (·.1) = layout.map (·.name) := rfl
  obtain ⟨r, hr, hfields⟩ := exists_record? hobject namesApart_layout hnames
  simp only [members, List.forall_mem_cons, List.not_mem_nil, false_imp_iff,
    implies_true] at hfields
  obtain ⟨hid, hname, hicon, hhomepage, hcapabilities, hformat, hauth, hendpoints, hdraft, hpost,
    hdelay, hhooks, -⟩ := hfields
  have hendpointsRead : Document.map? EndpointSpec.ofDocument?
      (ofJson (.object (s.endpoints.mapValues (EndpointSpec.write object)))) = some s.endpoints :=
    Document.map?_ofJson h.sorted fun e he => EndpointSpec.ofDocument?_write hobject (h.endpoints e he)
  rw [ofDocument?, write, hr, Option.bind_eq_bind, Option.bind_some,
    Record.withDefault?_bind hid (Document.string?_ofJson _),
    Record.withDefault?_bind hname (Document.string?_ofJson _),
    Record.withDefault?_bind hicon (Document.optional?_ofOption _),
    Record.withDefault?_bind hhomepage (Document.string?_ofJson _),
    Record.withDefault?_bind hcapabilities (Document.list?_ofStrings _),
    Record.withDefault?_bind hformat (Document.optional?_ofOption _),
    Record.withDefault?_bind hauth (optional?_auth hobject h.auth),
    Record.withDefault?_bind hendpoints hendpointsRead,
    Record.withDefault?_bind hdraft (Document.optional?_ofOption _),
    Record.withDefault?_bind hpost (Document.optional?_ofOption _),
    Record.withDefault?_bind hdelay (optional?_delay h.delay),
    Record.withDefault?_bind hhooks (Document.list?_ofStrings _)]
  rfl

end DefinitionSpec

/-! ### What is read -/

/-- **The body can be read in its place**, the endpoint standing inside of `depth` lists and maps. -/
def EndpointSpec.Fits (depth : Nat) (s : EndpointSpec) : Prop :=
  ∀ v ∈ s.body, v.Readable (depth + 1)

/-- **All bodies can be read in their places.** -/
structure DefinitionSpec.Fits (s : DefinitionSpec) : Prop where
  auth : ∀ e ∈ s.auth, e.Fits 1
  endpoints : ∀ e ∈ s.endpoints, e.2.Fits 2

/-- An endpoint that is read from a JSON text can be written there again. -/
theorem EndpointSpec.writable_of_ofDocument? {s : EndpointSpec} (hd : Scanned depth d)
    (h : EndpointSpec.ofDocument? d = some s) : s.Writable ∧ s.Fits depth := by
  have hmaps : s.InKeyOrder := EndpointSpec.inKeyOrder_of_ofDocument? h
  -- only the body and the statuses are bound by what a text can hold
  unfold EndpointSpec.ofDocument? at h
  obtain ⟨r, hr, h⟩ := Option.bind_eq_some_iff.1 h
  obtain ⟨url, -, h⟩ := Option.bind_eq_some_iff.1 h
  obtain ⟨method, -, h⟩ := Option.bind_eq_some_iff.1 h
  obtain ⟨headers, -, h⟩ := Option.bind_eq_some_iff.1 h
  obtain ⟨contentType, -, h⟩ := Option.bind_eq_some_iff.1 h
  obtain ⟨body, hbody, h⟩ := Option.bind_eq_some_iff.1 h
  obtain ⟨statuses, hstatuses, h⟩ := Option.bind_eq_some_iff.1 h
  obtain ⟨response, -, h⟩ := Option.bind_eq_some_iff.1 h
  cases h
  have hstatus : ∀ n ∈ statuses, n ≤ 65535 := by
    refine Record.of_withDefault? (P := fun ns => ∀ n ∈ ns, n ≤ 65535) hstatuses
      (List.forall_mem_nil _) fun part hread n hn => ?_
    obtain ⟨item, hitem⟩ := Document.exists_of_mem_list? hread n hn
    exact Document.le_of_nat? hitem
  have hvalue : ∀ v ∈ body, v.Readable (depth + 1) ∧ v.InKeyOrder ∧ v ≠ .null := by
    refine hd.withDefault? hr hbody
      (P := fun body => ∀ v ∈ body, v.Readable (depth + 1) ∧ v.InKeyOrder ∧ v ≠ .null) nofun ?_
    rintro part hpart hread v rfl
    obtain ⟨hv, hne⟩ := Document.of_optional? hread
    obtain ⟨hreadable, horder, hnull⟩ := hpart.value hv
    exact ⟨hreadable, horder, fun heq => hne (hnull heq)⟩
  exact ⟨⟨hmaps, hstatus, fun v hv => ⟨(hvalue v hv).2.2, (hvalue v hv).2.1⟩⟩,
    fun v hv => (hvalue v hv).1⟩

/-- **A definition that is read from a JSON text can be written there again.** -/
theorem DefinitionSpec.writable_of_ofDocument? {s : DefinitionSpec} (hd : Scanned 0 d)
    (h : DefinitionSpec.ofDocument? d = some s) : s.Writable ∧ s.Fits := by
  have hsorted := (DefinitionSpec.inKeyOrder_of_ofDocument? h).endpoints
  unfold DefinitionSpec.ofDocument? at h
  obtain ⟨r, hr, h⟩ := Option.bind_eq_some_iff.1 h
  obtain ⟨id, -, h⟩ := Option.bind_eq_some_iff.1 h
  obtain ⟨name, -, h⟩ := Option.bind_eq_some_iff.1 h
  obtain ⟨icon, -, h⟩ := Option.bind_eq_some_iff.1 h
  obtain ⟨homepage, -, h⟩ := Option.bind_eq_some_iff.1 h
  obtain ⟨capabilities, -, h⟩ := Option.bind_eq_some_iff.1 h
  obtain ⟨format, -, h⟩ := Option.bind_eq_some_iff.1 h
  obtain ⟨auth, hauth, h⟩ := Option.bind_eq_some_iff.1 h
  obtain ⟨endpoints, hendpoints, h⟩ := Option.bind_eq_some_iff.1 h
  obtain ⟨draftUrl, -, h⟩ := Option.bind_eq_some_iff.1 h
  obtain ⟨postUrl, -, h⟩ := Option.bind_eq_some_iff.1 h
  obtain ⟨delay, hdelay, h⟩ := Option.bind_eq_some_iff.1 h
  obtain ⟨hooks, -, h⟩ := Option.bind_eq_some_iff.1 h
  cases h
  -- the endpoint of the login stands in the document, the others in a map that stands in it
  have hauth' : ∀ e ∈ auth, e.Writable ∧ e.Fits 1 := by
    refine hd.withDefault? hr hauth (P := fun auth => ∀ e ∈ auth, e.Writable ∧ e.Fits 1) nofun ?_
    rintro part hpart hread e rfl
    exact EndpointSpec.writable_of_ofDocument? hpart (Document.of_optional? hread).1
  have hendpoints' : ∀ e ∈ endpoints, e.2.Writable ∧ e.2.Fits 2 := by
    refine hd.withDefault? hr hendpoints (P := fun m => ∀ e ∈ m, e.2.Writable ∧ e.2.Fits 2)
      (List.forall_mem_nil _) fun part hpart hread e he => ?_
    obtain ⟨item, hitem, hitemRead⟩ := hpart.mem_map? hread e he
    exact EndpointSpec.writable_of_ofDocument? hitem hitemRead
  have hdelay' : ∀ n ∈ delay, n ≤ Decimal.greatestNat64 := by
    refine Record.of_withDefault? (P := fun n => ∀ k ∈ n, k ≤ Decimal.greatestNat64) hdelay nofun ?_
    rintro part hread n rfl
    exact Document.le_of_nat? (Document.of_optional? hread).1
  exact ⟨⟨fun e he => (hauth' e he).1, hsorted, fun e he => (hendpoints' e he).1, hdelay'⟩,
    ⟨fun e he => (hauth' e he).2, fun e he => (hendpoints' e he).2⟩⟩

end Syndication
