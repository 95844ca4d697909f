import Syndication.Proofs.Definition.Requirements

/-!
# Which definitions are accepted

A document is checked field by field and refused at the first field with something wrong about it.
Every part of the program that checks it is related by `Checks` to the requirements of the fields
that it looks at, beginning with a single field and ending with the whole document. The maps of a
document are checked entry by entry, so there the requirements come in the order of the entries.

What an accepted document becomes is collected on the way: `Endpoint.Follows` and
`Definition.Follows` say of each field how it follows from the document. Names and addresses come
from texts that write them, sets hold what the texts name and nothing else, and expressions are
those that their texts are read as.

Main statement:

* `Definition.validate_exact`: which documents are accepted, for which field the others are refused,
  and what the accepted ones become.
-/

namespace Syndication

variable {ε α β : Type} {id field parent name : String} {more : List Requirement}
variable {Good : α → Prop}

/-! ### Maps -/

namespace KeyMap

/-- **Maps with the same keys** in the same order, whose values are related under each of them. -/
def Related (R : String → α → β → Prop) (m : KeyMap α) (m' : KeyMap β) : Prop :=
  List.Forall₂ (fun entry entry' => entry'.1 = entry.1 ∧ R entry.1 entry.2 entry'.2) m m'

variable {R : String → α → β → Prop} {m : KeyMap α} {m' : KeyMap β}

theorem Related.cons {key : String} {a : α} {b : β} (h : R key a b) (hrest : Related R m m') :
    Related R ((key, a) :: m) ((key, b) :: m') :=
  List.Forall₂.cons ⟨rfl, h⟩ hrest

theorem Related.exists_of_mem (h : Related R m m') {key : String} {b : β} (hmem : (key, b) ∈ m') :
    ∃ a, (key, a) ∈ m ∧ R key a b := by
  unfold Related at h
  induction h with
  | nil => exact absurd hmem List.not_mem_nil
  | cons hfirst _ ih =>
    rcases List.mem_cons.1 hmem with rfl | hmem
    · obtain ⟨hkey, hrelated⟩ := hfirst
      cases hkey
      exact ⟨_, List.mem_cons_self, hrelated⟩
    · obtain ⟨a, ha, hrelated⟩ := ih hmem
      exact ⟨a, List.mem_cons_of_mem _ ha, hrelated⟩

end KeyMap

/-! ### Fields -/

/-- A field that is refused when it cannot be read. -/
theorem checks_refuse {read : Except FieldProblem β} {Met : Prop}
    (hmet : Met ↔ ∃ b, read = .ok b) :
    Checks id [⟨field, Met⟩] (read = .ok ·) (refuse id field read) :=
  .mapError hmet fun problem => .inl ⟨problem, rfl⟩

section Optional

variable {read : String → Except FieldProblem β} {Writes : String → β → Prop}
variable {raw : Option String} {absent : β} {p : Except DefinitionError α}

theorem forall_mem_some_iff (hreads : Reads read Writes) {s : String} :
    (∀ t ∈ some s, ∃ b, Writes t b) ↔ ∃ b, read s = .ok b := by
  rw [← hreads.exists_iff]
  exact ⟨fun h => h s rfl, fun h t ht => Option.some.inj ht ▸ h⟩

/-- A field with a value for its absence. -/
theorem Checks.optional {k : β → Except DefinitionError α} (hreads : Reads read Writes)
    (hp : p = raw.elim (.ok absent) (fun s => refuse id field (read s)) >>= k)
    (hrest : ∀ b, WritesOr Writes absent raw b → Checks id more Good (k b)) :
    Checks id (⟨field, ∀ s ∈ raw, ∃ b, Writes s b⟩ :: more) Good p := by
  rw [hp]
  cases raw with
  | none => exact .met (by simp) (hrest absent rfl)
  | some s =>
    refine .step (checks_refuse (forall_mem_some_iff hreads)) fun b hb => ?_
    exact hrest b ((hreads s b).1 hb)

/-- A field that is read for nothing but its faults. -/
theorem Checks.optionalUnused {rest : Except DefinitionError α} (hreads : Reads read Writes)
    (hp : p = raw.elim rest fun s => refuse id field (read s) >>= fun _ => rest)
    (hrest : Checks id more Good rest) :
    Checks id (⟨field, ∀ s ∈ raw, ∃ b, Writes s b⟩ :: more) Good p := by
  rw [hp]
  cases raw with
  | none => exact .met (by simp) hrest
  | some s =>
    exact .step (checks_refuse (forall_mem_some_iff hreads)) fun _ _ => hrest

end Optional

-- The two ways in which a program branches on a field that may be left out, as the rules above
-- take them.

theorem optional_bind (raw : Option String) (absent : β)
    (read : String → Except DefinitionError β) (k : β → Except DefinitionError α) :
    (match raw with
      | none => pure absent >>= k
      | some s => read s >>= k) = raw.elim (.ok absent) read >>= k := by
  cases raw <;> rfl

theorem optionalUnused_bind (raw : Option String) (read : String → Except DefinitionError β)
    (rest : Except DefinitionError α) :
    (match raw with
      | some s => read s >>= fun _ => rest
      | _ => rest) = raw.elim rest fun s => read s >>= fun _ => rest := by
  cases raw <;> rfl

theorem checks_compile {Met : Prop} {raw : String}
    (hmet : Met ↔ ∃ expression, Expression.WrittenBy raw expression) :
    Checks id [⟨field, Met⟩] (Expression.WrittenBy raw) (compile id field raw) :=
  .mapError hmet fun cause => .inr ⟨cause, rfl⟩

theorem checks_compileOptional (raw : Option String) :
    Checks id [⟨field, ∀ s ∈ raw, ∃ expression, Expression.WrittenBy s expression⟩]
      (Option.Rel Expression.WrittenBy raw) (compileOptional id field raw) := by
  cases raw with
  | none => exact .ok (by simp) .none
  | some s => exact (checks_compile (by simp)).map fun expression hwritten => .some hwritten

/-- The entries are compiled in the order of the map, and each stays under its key. -/
theorem checks_compileAll (entries : KeyMap String) :
    Checks id
      (entries.map fun (key, raw) =>
        ⟨field ++ "." ++ key, ∃ expression, Expression.WrittenBy raw expression⟩)
      (KeyMap.Related (fun _ => Expression.WrittenBy) entries) (compileAll id field entries) := by
  induction entries with
  | nil => exact .pure .nil
  | cons entry rest ih =>
    obtain ⟨key, raw⟩ := entry
    unfold compileAll
    refine (checks_compile Iff.rfl).step fun expression hwritten => ?_
    exact ih.map fun compiled hcompiled => .cons hwritten hcompiled

/-! ### Endpoints -/

/-- **What becomes of an endpoint that is accepted.** -/
structure Endpoint.Follows (name : String) (s : EndpointSpec) (e : Endpoint) : Prop where
  name_eq : e.name = name
  url_eq : e.url = s.url
  method_writes : WritesOr (fun raw m => Text.toAsciiUpper (Text.trim raw) = m.name) .get s.method
    e.method
  headers_eq : e.headers = s.headers
  encoding_writes : WritesOr (fun raw c => Text.trim raw = c.name) .json s.contentType e.encoding
  body_eq : e.body = s.body
  body_object : e.encoding ≠ .json → ∀ body ∈ e.body, ∃ members, body = .object members
  mem_acceptStatus : ∀ status, status ∈ e.acceptStatus ↔ status ∈ s.acceptStatus
  success_writes : Option.Rel Expression.WrittenBy s.response.success e.response.success
  error_writes : Option.Rel Expression.WrittenBy s.response.error e.response.error
  extract_writes :
    KeyMap.Related (fun _ => Expression.WrittenBy) s.response.extract e.response.extract

theorem ne_json_iff {encoding : BodyEncoding} {raw : Option String}
    (h : WritesOr (fun raw c => Text.trim raw = c.name) BodyEncoding.json raw encoding) :
    encoding ≠ .json ↔ ∃ s ∈ raw, Text.trim s ≠ BodyEncoding.json.name := by
  cases raw with
  | none =>
    have hjson : encoding = .json := h
    simp [hjson]
  | some s =>
    have hname : Text.trim s = encoding.name := h
    cases encoding <;> simp [hname, BodyEncoding.name]

theorem any_not_isObject {body : Option Json} :
    body.any (!·.isObject) = true ↔ ¬ ∀ v ∈ body, ∃ members, v = .object members := by
  cases body with
  | none => simp
  | some v => cases v <;> simp [Json.isObject]

theorem find?_not_isStatus_eq_none_iff {statuses : List Nat} :
    statuses.find? (!isStatus ·) = none ↔ ∀ status ∈ statuses, 100 ≤ status ∧ status ≤ 599 := by
  simp [isStatus]

/-- **Endpoints are checked field by field.** -/
theorem Endpoint.checks_validate (id parent name : String) (s : EndpointSpec) :
    Checks id (s.requirements parent) (Endpoint.Follows name s)
      (Endpoint.validate id parent name s) := by
  unfold Endpoint.validate
  have hurl : Text.trim s.url ≠ "" ↔ ¬ Text.isBlankText s.url = true :=
    Text.isBlankText_iff.not.symm
  refine .guard hurl (fun _ => .inl ⟨_, rfl⟩) fun _ => ?_
  refine .optional Method.reads (optional_bind _ _ _ _) fun method hmethod => ?_
  refine .optional BodyEncoding.reads (optional_bind _ _ _ _) fun encoding hencoding => ?_
  -- the encoding that the body is compared with is the one that has just been read, so what is
  -- asked of the body is said in terms of its text
  have hbody : ((∃ raw ∈ s.contentType, Text.trim raw ≠ BodyEncoding.json.name) →
      ∀ body ∈ s.body, ∃ members, body = .object members) ↔
      ¬ (encoding ≠ .json ∧ s.body.any (!·.isObject) = true) := by
    rw [← ne_json_iff hencoding, any_not_isObject, not_and, not_not]
  refine .guard hbody (fun _ => .inl ⟨_, rfl⟩) fun hobject => ?_
  split
  · next bad hbad =>
    have hunmet : ¬ ∀ status ∈ s.acceptStatus, 100 ≤ status ∧ status ≤ 599 := by
      rw [← find?_not_isStatus_eq_none_iff, hbad]
      nofun
    exact .fail hunmet (.inl ⟨_, rfl⟩)
  · next hnone =>
    have hstatuses : ∀ status ∈ s.acceptStatus, 100 ≤ status ∧ status ≤ 599 :=
      find?_not_isStatus_eq_none_iff.1 (Option.eq_none_iff_forall_ne_some.2 hnone)
    refine .met hstatuses ?_
    refine .step (checks_compileOptional _) fun success hsuccess => ?_
    refine .step (checks_compileOptional _) fun error herror => ?_
    refine (checks_compileAll _).map fun extract hextract => ?_
    exact {
      name_eq := rfl
      url_eq := rfl
      method_writes := hmethod
      headers_eq := rfl
      encoding_writes := hencoding
      body_eq := rfl
      body_object := fun hother => hobject ((ne_json_iff hencoding).1 hother)
      mem_acceptStatus := fun status => mem_sortedStatuses
      success_writes := hsuccess
      error_writes := herror
      extract_writes := hextract }

/-- The endpoints are checked in the order of the map, and each is named by its key. -/
theorem Endpoint.checks_validateAll (id : String) (specs : KeyMap EndpointSpec) :
    Checks id (specs.flatMap fun (name, s) => s.requirements ("endpoints." ++ name))
      (KeyMap.Related Endpoint.Follows specs) (Endpoint.validateAll id specs) := by
  induction specs with
  | nil => exact .pure .nil
  | cons spec rest ih =>
    obtain ⟨name, s⟩ := spec
    unfold Endpoint.validateAll
    refine (Endpoint.checks_validate id ("endpoints." ++ name) name s).bind fun e he => ?_
    exact ih.map fun endpoints hendpoints => .cons he hendpoints

/-! ### Definitions -/

/-- **What becomes of a definition that is accepted.** -/
structure Definition.Follows (s : DefinitionSpec) (d : Definition) : Prop where
  id_eq : d.id = Text.trim s.id
  displayName_eq : d.displayName = Text.trim s.name
  icon_eq : d.icon = s.icon
  homepage_writes : Url.WrittenBy s.homepage d.homepage
  mem_capabilities : ∀ c, c ∈ d.capabilities ↔ ∃ raw ∈ s.capabilities, Text.trim raw = c.name
  contentFormat_writes : WritesOr (fun raw format => Text.trim raw = format.name) .html
    s.contentFormat d.contentFormat
  mem_hooks : ∀ h, h ∈ d.hooks ↔ ∃ raw ∈ s.hooks, Text.trim raw = h.name
  auth_follows : ∃ auth, s.auth = some auth ∧ d.auth.Follows "auth" auth
  endpoints_follow : KeyMap.Related Endpoint.Follows s.endpoints d.endpoints
  draftUrl_iff : ∀ t, d.draftUrl = some t ↔ s.draftUrl = some t ∧ Text.trim t ≠ ""
  postUrl_iff : ∀ t, d.postUrl = some t ↔ s.postUrl = some t ∧ Text.trim t ≠ ""
  requestDelayMs_eq : d.requestDelayMs = s.requestDelayMs

theorem unlessBlank_eq_some_iff {raw : Option String} {text : String} :
    unlessBlank raw = some text ↔ raw = some text ∧ Text.trim text ≠ "" := by
  rw [unlessBlank, Option.filter_eq_some_iff, Bool.not_eq_true', ← Bool.not_eq_true,
    Text.isBlankText_iff]

theorem exists_mapM_iff {read : String → Except ε β} {Writes : String → β → Prop}
    (hreads : Reads read Writes) {raws : List String} :
    (∀ raw ∈ raws, ∃ b, Writes raw b) ↔ ∃ bs, raws.mapM read = .ok bs := by
  simp only [exists_mapM_eq_ok_iff, hreads.exists_iff]

/-- A set of things is kept in a fixed order. -/
theorem mem_filter_contains_iff {read : String → Except ε β} {Writes : String → β → Prop} [BEq β]
    [LawfulBEq β] (hreads : Reads read Writes) {all : List β} (hall : ∀ b, b ∈ all)
    {raws : List String} {bs : List β} (h : raws.mapM read = .ok bs) (b : β) :
    b ∈ all.filter bs.contains ↔ ∃ raw ∈ raws, Writes raw b := by
  rw [List.mem_filter, List.contains_iff_mem, mem_iff_of_mapM_eq_ok h]
  simp only [hall, true_and, hreads _ _]

/-- **Definitions are checked field by field.** -/
theorem Definition.checks_validate (s : DefinitionSpec) :
    Checks s.shownId s.requirements (Definition.Follows s) (Definition.validate s) := by
  unfold Definition.validate
  refine .guard String.isEmpty_iff.not.symm (fun hempty => ?_) fun hid => ?_
  · -- without an id the error has no name for the definition
    have hshown : s.shownId = "<unknown>" := if_pos (String.isEmpty_iff.1 hempty)
    rw [hshown]
    exact .inl ⟨_, rfl⟩
  -- from here on there is an id, and every error is about the definition with it
  have hshown : s.shownId = Text.trim s.id := if_neg hid
  rw [hshown]
  have hshape : (∀ c ∈ (Text.trim s.id).toList, IsIdChar c) ↔
      ¬ (!(Text.trim s.id).toList.all isIdChar) = true := by
    simp [isIdChar_iff]
  refine .guard hshape (fun _ => .inl ⟨_, rfl⟩) fun _ => ?_
  refine .guard String.isEmpty_iff.not.symm (fun _ => .inl ⟨_, rfl⟩) fun _ => ?_
  refine .step (checks_refuse Url.reads.exists_iff) fun homepage hhomepage => ?_
  refine .optionalUnused Url.reads (optionalUnused_bind _ _ _) ?_
  refine .step (checks_refuse (exists_mapM_iff Capability.reads)) fun capabilities hnamed => ?_
  refine .step (checks_refuse ContentFormat.exists_read_iff) fun contentFormat hcontentFormat => ?_
  refine .step (checks_refuse (exists_mapM_iff Hook.reads)) fun hooks hhooks => ?_
  cases hauth : s.auth with
  | none => exact .fail nofun (.inl ⟨_, rfl⟩)
  | some auth =>
    -- the auth endpoint is asked for first, and then all that is asked of it
    refine .met ⟨auth, rfl⟩ ?_
    refine (Endpoint.checks_validate _ "auth" "auth" auth).bind fun e he => ?_
    refine (Endpoint.checks_validateAll _ s.endpoints).map fun endpoints hendpoints => ?_
    exact {
      id_eq := rfl
      displayName_eq := rfl
      icon_eq := rfl
      homepage_writes := (Url.reads _ _).1 hhomepage
      mem_capabilities := mem_filter_contains_iff Capability.reads Capability.mem_all hnamed
      contentFormat_writes := ContentFormat.read_eq_ok_iff.1 hcontentFormat
      mem_hooks := mem_filter_contains_iff Hook.reads Hook.mem_all hhooks
      auth_follows := ⟨auth, hauth, he⟩
      endpoints_follow := hendpoints
      draftUrl_iff := fun _ => unlessBlank_eq_some_iff
      postUrl_iff := fun _ => unlessBlank_eq_some_iff
      requestDelayMs_eq := rfl }

/-- **Validation is exact.** A definition is accepted when all that is asked of it holds, and only
then. One that is refused is refused for the first requirement that is not met, whose field the
error names: the fields of the definition come first, then those of the auth endpoint, then those
of the other endpoints in the order of the map. One that is accepted says what its document says,
with each endpoint named by its key. -/
theorem Definition.validate_exact (s : DefinitionSpec) :
    ((∃ d, Definition.validate s = .ok d) ↔ ∀ r ∈ s.requirements, r.Met) ∧
    (∀ e, Definition.validate s = .error e →
      ∃ r, FirstUnmet s.requirements r ∧ e.Names s.shownId r.field) ∧
    (∀ d, Definition.validate s = .ok d →
      d.Follows s ∧ d.auth.name = "auth" ∧ ∀ key e, (key, e) ∈ d.endpoints → e.name = key) := by
  have hchecks := Definition.checks_validate s
  refine ⟨hchecks.exists_ok_iff, hchecks.of_error, fun d hd => ?_⟩
  obtain ⟨-, hfollows⟩ := hchecks.of_ok d hd
  obtain ⟨auth, -, hauth⟩ := hfollows.auth_follows
  refine ⟨hfollows, hauth.name_eq, fun key e he => ?_⟩
  obtain ⟨spec, -, hendpoint⟩ := hfollows.endpoints_follow.exists_of_mem he
  exact hendpoint.name_eq

-- with neither a known hook nor an auth endpoint, the field that comes first is blamed
example : Definition.validate ⟨" alpha ", "Alpha", none, "https://alpha.test", ["tags"], none, none,
    [], none, none, none, ["fly"]⟩ = .error (.invalid "alpha" "hooks" (.unknownHook "fly")) := by
  decide +kernel

end Syndication
