import Syndication.Definition.Validation
import Syndication.Proofs.Url.Host

/-!
# What is asked of a definition document

A document is accepted when all of its fields hold what they may hold. What is asked of the fields
is written here as a list of requirements in the order in which the fields are looked at, each with
the path of the field that is blamed when it is not met.

`Checks` ties such a list to a program that reads a document: the program succeeds only where every
requirement is met, and where it fails it names the field of the first one that is not. Programs
that run one after the other ask for the requirements of both, those of the first one first
(`Checks.bind`), so the list of a program is put together from the lists of its steps.

Main statements:

* `Checks.exists_ok_iff`: a program succeeds exactly where all that it asks for holds.
* `Method.reads`, `BodyEncoding.reads`, `Capability.reads`, `Hook.reads`,
  `ContentFormat.read_eq_ok_iff`, `Url.reads`: which texts are read as a name or an address.
* `DefinitionSpec.requirements`, `EndpointSpec.requirements`: what is asked for, and in which order.
-/

namespace Syndication

/-! ### Requirements and programs that check them -/

/-- Something that is asked of a document. -/
structure Requirement where
  /-- The path of the field that is blamed. -/
  field : String
  /-- What has to hold. -/
  Met : Prop

/-- **The first requirement of a list that is not met.** -/
inductive FirstUnmet : List Requirement → Requirement → Prop
  | here {r : Requirement} {later : List Requirement} (unmet : ¬ r.Met) :
    FirstUnmet (r :: later) r
  | later {q r : Requirement} {later : List Requirement} (met : q.Met)
    (first : FirstUnmet later r) : FirstUnmet (q :: later) r

/-- The error blames a field of the document with an id. -/
def DefinitionError.Names (e : DefinitionError) (id field : String) : Prop :=
  (∃ problem, e = .invalid id field problem) ∨ ∃ cause, e = .expression id field cause

section Checks

variable {ε α β : Type} {id : String} {r : Requirement} {asked more : List Requirement}
variable {Good : α → Prop} {Found : β → Prop}

theorem FirstUnmet.append_left (h : FirstUnmet asked r) : FirstUnmet (asked ++ more) r := by
  induction h with
  | here unmet => exact .here unmet
  | later met _ ih => exact .later met ih

theorem FirstUnmet.append_right (hasked : ∀ q ∈ asked, q.Met) (h : FirstUnmet more r) :
    FirstUnmet (asked ++ more) r := by
  induction asked with
  | nil => exact h
  | cons q rest ih =>
    obtain ⟨hq, hrest⟩ := List.forall_mem_cons.1 hasked
    exact .later hq (ih hrest)

theorem FirstUnmet.not_forall (h : FirstUnmet asked r) : ¬ ∀ q ∈ asked, q.Met := by
  intro hasked
  induction h with
  | here unmet => exact unmet (hasked _ List.mem_cons_self)
  | later _ _ ih => exact ih fun q hq => hasked q (List.mem_cons_of_mem _ hq)

/-- **What a program checks.** If it succeeds then all that is asked for holds, and its result is a
good one; if it fails then it names the field of the first requirement that is not met. -/
structure Checks (id : String) (asked : List Requirement) (Good : α → Prop)
    (p : Except DefinitionError α) : Prop where
  of_ok : ∀ a, p = .ok a → (∀ r ∈ asked, r.Met) ∧ Good a
  of_error : ∀ e, p = .error e → ∃ r, FirstUnmet asked r ∧ e.Names id r.field

namespace Checks

variable {p : Except DefinitionError α} {x : Except DefinitionError β}
variable {k : β → Except DefinitionError α}

theorem ok {a : α} (hasked : ∀ q ∈ asked, q.Met) (hgood : Good a) :
    Checks id asked Good (.ok a) where
  of_ok b hb := by
    cases hb
    exact ⟨hasked, hgood⟩
  of_error e he := by cases he

theorem error {e : DefinitionError} (hfirst : FirstUnmet asked r) (hnames : e.Names id r.field) :
    Checks id asked Good (.error e) where
  of_ok a ha := by cases ha
  of_error f hf := by
    cases hf
    exact ⟨r, hfirst, hnames⟩

/-- A program succeeds exactly where all that it asks for holds. -/
theorem exists_ok_iff (h : Checks id asked Good p) : (∃ a, p = .ok a) ↔ ∀ r ∈ asked, r.Met := by
  constructor
  · rintro ⟨a, ha⟩
    exact (h.of_ok a ha).1
  · intro hasked
    cases hp : p with
    | ok a => exact ⟨a, rfl⟩
    | error e =>
      obtain ⟨r, hfirst, -⟩ := h.of_error e hp
      exact absurd hasked hfirst.not_forall

/-- A program that asks for nothing. -/
theorem pure {a : α} (h : Good a) : Checks id [] Good (.ok a) :=
  .ok (List.forall_mem_nil _) h

/-- What two programs ask for that run one after the other. -/
theorem bind (h : Checks id asked Found x) (hrest : ∀ b, Found b → Checks id more Good (k b)) :
    Checks id (asked ++ more) Good (x >>= k) := by
  cases hx : x with
  | error e =>
    obtain ⟨r, hfirst, hnames⟩ := h.of_error e hx
    exact .error hfirst.append_left hnames
  | ok b =>
    -- the second program runs only where all that the first one asks for holds
    obtain ⟨hasked, hfound⟩ := h.of_ok b hx
    have hk : Checks id more Good (k b) := hrest b hfound
    show Checks id (asked ++ more) Good (k b)
    cases hkb : k b with
    | error e =>
      obtain ⟨r, hfirst, hnames⟩ := hk.of_error e hkb
      exact .error (hfirst.append_right hasked) hnames
    | ok a =>
      obtain ⟨hmore, hgood⟩ := hk.of_ok a hkb
      exact .ok (List.forall_mem_append.2 ⟨hasked, hmore⟩) hgood

theorem step (h : Checks id [r] Found x) (hrest : ∀ b, Found b → Checks id more Good (k b)) :
    Checks id (r :: more) Good (x >>= k) :=
  bind h hrest

/-- The last step of a program puts the result together. -/
theorem map {f : β → α} (h : Checks id asked Found x) (hgood : ∀ b, Found b → Good (f b)) :
    Checks id asked Good (x >>= fun b => .ok (f b)) := by
  have hbind := h.bind (k := fun b => .ok (f b)) fun b hb => pure (hgood b hb)
  rwa [List.append_nil] at hbind

/-- A field that is refused. -/
theorem fail {e : DefinitionError} (hunmet : ¬ r.Met) (hnames : e.Names id r.field) :
    Checks id (r :: more) Good (throw e >>= k) :=
  .error (.here hunmet) hnames

/-- A field with nothing wrong about it. -/
theorem met (hmet : r.Met) (h : Checks id more Good p) : Checks id (r :: more) Good p := by
  have hpure : Checks id [r] (fun _ : Unit => True) (.ok ()) :=
    .ok (List.forall_mem_singleton.2 hmet) trivial
  exact hpure.step fun _ _ => h

/-- A field that is refused when a test finds fault with it. -/
theorem guard {P : Prop} [Decidable P] {e : DefinitionError} {k : Unit → Except DefinitionError α}
    (hmet : r.Met ↔ ¬ P) (hnames : P → e.Names id r.field)
    (hrest : r.Met → Checks id more Good (k ())) :
    Checks id (r :: more) Good (if P then throw e >>= k else k ()) := by
  split
  · next hP => exact fail (fun h => hmet.1 h hP) (hnames hP)
  · next hP => exact met (hmet.2 hP) (hrest (hmet.2 hP))

/-- A field whose text has to be readable. -/
theorem mapError {read : Except ε β} {blame : ε → DefinitionError}
    (hmet : r.Met ↔ ∃ b, read = .ok b) (hnames : ∀ cause, (blame cause).Names id r.field) :
    Checks id [r] (read = .ok ·) (read.mapError blame) := by
  cases read with
  | error cause =>
    have hunmet : ¬ r.Met := by
      rw [hmet]
      rintro ⟨b, hb⟩
      cases hb
    exact .error (.here hunmet) (hnames cause)
  | ok b => exact .ok (List.forall_mem_singleton.2 (hmet.2 ⟨b, rfl⟩)) rfl

end Checks

end Checks

/-! ### Texts that are read as names -/

/-- **What a reader of texts understands.** -/
def Reads {ε β : Type} (read : String → Except ε β) (Writes : String → β → Prop) : Prop :=
  ∀ raw b, read raw = .ok b ↔ Writes raw b

theorem Reads.exists_iff {ε β : Type} {read : String → Except ε β} {Writes : String → β → Prop}
    (h : Reads read Writes) {raw : String} : (∃ b, Writes raw b) ↔ ∃ b, read raw = .ok b :=
  exists_congr fun b => (h raw b).symm

/-- What is looked up by its name is found under it alone. -/
theorem find?_name_eq_some_iff {β : Type} {all : List β} {name : β → String} {text : String} {b : β}
    (hself : ∀ b, all.find? (name · == name b) = some b) :
    all.find? (name · == text) = some b ↔ text = name b := by
  constructor
  · intro h
    have hname : (name b == text) = true := by simpa using List.find?_some h
    exact (eq_of_beq hname).symm
  · rintro rfl
    exact hself b

theorem Method.reads :
    Reads Method.read fun raw m => Text.toAsciiUpper (Text.trim raw) = m.name := by
  intro raw m
  refine Iff.trans ?_ (find?_name_eq_some_iff Method.ofName?_name)
  show Method.read raw = .ok _ ↔ Method.ofName? _ = _
  unfold Method.read
  dsimp only
  split <;> simp [*]

theorem BodyEncoding.reads : Reads BodyEncoding.read fun raw e => Text.trim raw = e.name := by
  intro raw e
  refine Iff.trans ?_ (find?_name_eq_some_iff BodyEncoding.ofName?_name)
  show BodyEncoding.read raw = .ok _ ↔ BodyEncoding.ofName? _ = _
  unfold BodyEncoding.read
  dsimp only
  split <;> simp [*]

theorem Capability.reads : Reads Capability.read fun raw c => Text.trim raw = c.name := by
  intro raw c
  refine Iff.trans ?_ (find?_name_eq_some_iff Capability.ofName?_name)
  show Capability.read raw = .ok _ ↔ Capability.ofName? _ = _
  unfold Capability.read
  split <;> simp [*]

theorem Hook.reads : Reads Hook.read fun raw h => Text.trim raw = h.name := by
  intro raw h
  refine Iff.trans ?_ (find?_name_eq_some_iff Hook.ofName?_name)
  show Hook.read raw = .ok _ ↔ Hook.ofName? _ = _
  unfold Hook.read
  split <;> simp [*]

/-- What an optional text stands for: what it writes, or a value for its absence. -/
def WritesOr {β : Type} (Writes : String → β → Prop) (absent : β) (raw : Option String) (b : β) :
    Prop :=
  raw.elim (b = absent) (Writes · b)

/-- The format of a document without one is HTML. -/
theorem ContentFormat.read_eq_ok_iff {raw : Option String} {format : ContentFormat} :
    ContentFormat.read raw = .ok format ↔
      WritesOr (fun raw format => Text.trim raw = format.name) .html raw format := by
  cases raw with
  | none =>
    show Except.ok .html = .ok format ↔ format = .html
    rw [Except.ok.injEq, eq_comm]
  | some raw =>
    show ContentFormat.read (some raw) = .ok format ↔ Text.trim raw = format.name
    unfold ContentFormat.read
    rw [Option.map_some]
    generalize Text.trim raw = name
    cases format <;> split <;> simp_all [ContentFormat.name]

theorem ContentFormat.exists_read_iff {raw : Option String} :
    (∀ text ∈ raw, ∃ format : ContentFormat, Text.trim text = format.name) ↔
      ∃ format, ContentFormat.read raw = .ok format := by
  simp only [ContentFormat.read_eq_ok_iff]
  cases raw <;> simp [WritesOr]

/-- **A text writes a web address with a host.** -/
def Url.WrittenBy (raw : String) (url : Url) : Prop :=
  Url.parse (Text.trim raw) = .ok (.web url) ∧ url.host ≠ .domain ""

theorem Url.reads : Reads Url.readWeb? Url.WrittenBy := by
  intro raw url
  have hwritten : Url.WrittenBy raw url ↔ Url.parse (Text.trim raw) = .ok (.web url) :=
    ⟨And.left, fun h => ⟨h, Url.host_ne_of_parse h⟩⟩
  rw [hwritten]
  unfold Url.readWeb?
  split
  · next hblank =>
    have hempty : Text.trim raw = "" := Text.isBlankText_iff.1 hblank
    have hparse : Url.parse "" = .error .noScheme := rfl
    rw [hempty, hparse]
    simp
  · split <;> simp [*]

/-- **A text writes an expression.** -/
def Expression.WrittenBy (raw : String) (expression : Expression) : Prop :=
  Expression.parse raw = .ok expression

/-! ### What is asked for -/

/-- **What is asked of an endpoint** whose fields stand under `parent`, in the order in which it is
asked. -/
def EndpointSpec.requirements (parent : String) (s : EndpointSpec) : List Requirement :=
  [⟨parent ++ "." ++ "url", Text.trim s.url ≠ ""⟩,
    ⟨parent ++ "." ++ "method",
      ∀ raw ∈ s.method, ∃ m : Method, Text.toAsciiUpper (Text.trim raw) = m.name⟩,
    ⟨parent ++ "." ++ "content_type",
      ∀ raw ∈ s.contentType, ∃ e : BodyEncoding, Text.trim raw = e.name⟩,
    -- forms are made of named fields
    ⟨parent ++ "." ++ "body",
      (∃ raw ∈ s.contentType, Text.trim raw ≠ BodyEncoding.json.name) →
        ∀ body ∈ s.body, ∃ members, body = .object members⟩,
    ⟨parent ++ "." ++ "accept_status", ∀ status ∈ s.acceptStatus, 100 ≤ status ∧ status ≤ 599⟩,
    ⟨parent ++ "." ++ "response.success",
      ∀ raw ∈ s.response.success, ∃ expression, Expression.WrittenBy raw expression⟩,
    ⟨parent ++ "." ++ "response.error",
      ∀ raw ∈ s.response.error, ∃ expression, Expression.WrittenBy raw expression⟩] ++
  s.response.extract.map fun (key, raw) =>
    ⟨parent ++ "." ++ "response.extract" ++ "." ++ key,
      ∃ expression, Expression.WrittenBy raw expression⟩

/-- The characters of ids. -/
def IsIdChar (c : Char) : Prop :=
  ('a' ≤ c ∧ c ≤ 'z') ∨ ('0' ≤ c ∧ c ≤ '9') ∨ c = '_' ∨ c = '-'

theorem isIdChar_iff {c : Char} : isIdChar c = true ↔ IsIdChar c := by
  have hlower : c.isLower = true ↔ 'a' ≤ c ∧ c ≤ 'z' := by
    show (decide ('a' ≤ c) && decide (c ≤ 'z')) = true ↔ _
    rw [Bool.and_eq_true, decide_eq_true_iff, decide_eq_true_iff]
  have hdigit : c.isDigit = true ↔ '0' ≤ c ∧ c ≤ '9' := by
    show (decide ('0' ≤ c) && decide (c ≤ '9')) = true ↔ _
    rw [Bool.and_eq_true, decide_eq_true_iff, decide_eq_true_iff]
  simp only [isIdChar, IsIdChar, Bool.or_eq_true, hlower, hdigit, beq_iff_eq, or_assoc]

/-- **What is asked of a definition**, in the order in which it is asked. -/
def DefinitionSpec.requirements (s : DefinitionSpec) : List Requirement :=
  [⟨"id", Text.trim s.id ≠ ""⟩,
    ⟨"id", ∀ c ∈ (Text.trim s.id).toList, IsIdChar c⟩,
    ⟨"name", Text.trim s.name ≠ ""⟩,
    ⟨"homepage", ∃ url, Url.WrittenBy s.homepage url⟩,
    ⟨"icon", ∀ raw ∈ s.icon, ∃ url, Url.WrittenBy raw url⟩,
    ⟨"capabilities", ∀ raw ∈ s.capabilities, ∃ c : Capability, Text.trim raw = c.name⟩,
    ⟨"content_format", ∀ raw ∈ s.contentFormat, ∃ f : ContentFormat, Text.trim raw = f.name⟩,
    ⟨"hooks", ∀ raw ∈ s.hooks, ∃ h : Hook, Text.trim raw = h.name⟩,
    ⟨"auth", ∃ auth, s.auth = some auth⟩] ++
  (s.auth.elim [] (EndpointSpec.requirements "auth") ++
    s.endpoints.flatMap fun (name, e) => e.requirements ("endpoints." ++ name))

/-- The id by which errors call the definition. -/
def DefinitionSpec.shownId (s : DefinitionSpec) : String :=
  if Text.trim s.id = "" then "<unknown>" else Text.trim s.id

end Syndication
