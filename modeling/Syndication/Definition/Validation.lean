import Syndication.Definition.Basic
import Syndication.Definition.Error
import Syndication.Definition.Spec
import Syndication.Text.Blank

/-!
# Validating definitions

A definition document becomes a definition when every field holds what it may
hold. The fields are checked in a fixed order, and the first one that fails is
named: id, name, homepage, icon, capabilities, content format, hooks, the auth
endpoint, then the other endpoints by name; within an endpoint address, method,
encoding, body, statuses, then the expressions.

Main statement:

* `mem_sortedStatuses`: collecting the statuses loses and adds none.
-/

namespace Syndication

/-! ### Names and addresses -/

/-- The method that a text names, in any case and with blanks around it. -/
def Method.read (raw : String) : Except FieldProblem Method :=
  let name := Text.toAsciiUpper (Text.trim raw)
  match Method.ofName? name with
  | some m => .ok m
  | none => .error (.unknownMethod name)

/-- The encoding that a text names, with blanks around it. -/
def BodyEncoding.read (raw : String) : Except FieldProblem BodyEncoding :=
  let name := Text.trim raw
  match BodyEncoding.ofName? name with
  | some e => .ok e
  | none => .error (.unknownEncoding name)

/-- The capability that a text names, with blanks around it. -/
def Capability.read (raw : String) : Except FieldProblem Capability :=
  match Capability.ofName? (Text.trim raw) with
  | some c => .ok c
  | none => .error (.unknownCapability raw)

/-- The hook that a text names, with blanks around it. -/
def Hook.read (raw : String) : Except FieldProblem Hook :=
  match Hook.ofName? (Text.trim raw) with
  | some h => .ok h
  | none => .error (.unknownHook raw)

/-- The format that a text names, with blanks around it; HTML when there is
none. -/
def ContentFormat.read (raw : Option String) : Except FieldProblem ContentFormat :=
  match raw.map Text.trim with
  | none => .ok .html
  | some "html" => .ok .html
  | some "markdown" => .ok .markdown
  | some other => .error (.unknownFormat other)

/-- The web address that a text writes. -/
def Url.readWeb? (raw : String) : Except FieldProblem Url :=
  if Text.isBlankText raw then .error .required
  else match Url.parse (Text.trim raw) with
  | .error cause => .error (.malformedUrl cause)
  | .ok (.web url) => .ok url
  | .ok .other => .error (.notWebUrl raw)

/-- Whether a character may stand in an id. -/
def isIdChar (c : Char) : Bool :=
  c.isLower || c.isDigit || c == '_' || c == '-'

/-! ### Endpoints -/

/-- The statuses in increasing order, each once. -/
def sortedStatuses (statuses : List Nat) : List Nat :=
  statuses.foldr insertStatus []
where
  /-- The list with one more status, in its place. -/
  insertStatus (s : Nat) : List Nat → List Nat
    | [] => [s]
    | t :: rest =>
      if s < t then s :: t :: rest
      else if s = t then t :: rest
      else t :: insertStatus s rest

theorem mem_insertStatus {s t : Nat} {statuses : List Nat} :
    t ∈ sortedStatuses.insertStatus s statuses ↔ t = s ∨ t ∈ statuses := by
  induction statuses with
  | nil => simp [sortedStatuses.insertStatus]
  | cons u rest ih =>
    unfold sortedStatuses.insertStatus
    split
    · simp
    · split
      · rename_i h
        simp [h]
      · simp only [List.mem_cons, ih]
        constructor
        · rintro (h | h | h) <;> simp [h]
        · rintro (h | h | h) <;> simp [h]

/-- Collecting the statuses loses and adds none. -/
theorem mem_sortedStatuses {t : Nat} {statuses : List Nat} :
    t ∈ sortedStatuses statuses ↔ t ∈ statuses := by
  induction statuses with
  | nil => simp [sortedStatuses]
  | cons s rest ih =>
    have h : sortedStatuses (s :: rest) = sortedStatuses.insertStatus s (sortedStatuses rest) := rfl
    rw [h, mem_insertStatus, ih, List.mem_cons]

/-- Whether a number is a status. -/
def isStatus (n : Nat) : Bool :=
  100 ≤ n && n ≤ 599

/-- Refuses a field. -/
def refuse {α : Type} (id field : String) (result : Except FieldProblem α) :
    Except DefinitionError α :=
  result.mapError fun problem => .invalid id field problem

/-- Reads the text of a field as an expression. -/
def compile (id field raw : String) : Except DefinitionError Expression :=
  (Expression.parse raw).mapError fun cause => .expression id field cause

/-- Reads the text of a field as an expression, if there is one. -/
def compileOptional (id field : String) (raw : Option String) :
    Except DefinitionError (Option Expression) :=
  match raw with
  | none => .ok none
  | some raw => some <$> compile id field raw

/-- Reads the texts of fields as expressions, in order. -/
def compileAll (id field : String) : KeyMap String → Except DefinitionError (KeyMap Expression)
  | [] => .ok []
  | (key, raw) :: rest => do
    let e ← compile id (field ++ "." ++ key) raw
    let es ← compileAll id field rest
    return (key, e) :: es

/-- **Validates an endpoint.** Its fields stand under `parent` in messages. -/
def Endpoint.validate (id parent name : String) (spec : EndpointSpec) :
    Except DefinitionError Endpoint := do
  let field (suffix : String) : String := parent ++ "." ++ suffix
  if Text.isBlankText spec.url then throw (.invalid id (field "url") .required)
  let method ← match spec.method with
    | none => pure Method.get
    | some raw => refuse id (field "method") (Method.read raw)
  let encoding ← match spec.contentType with
    | none => pure BodyEncoding.json
    | some raw => refuse id (field "content_type") (BodyEncoding.read raw)
  -- forms are made of named fields
  if encoding ≠ .json ∧ spec.body.any (!·.isObject) then
    throw (.invalid id (field "body") .bodyNotObject)
  if let some bad := spec.acceptStatus.find? (!isStatus ·) then
    throw (.invalid id (field "accept_status") (.invalidStatus bad))
  let success ← compileOptional id (field "response.success") spec.response.success
  let error ← compileOptional id (field "response.error") spec.response.error
  let extract ← compileAll id (field "response.extract") spec.response.extract
  return {
    name
    url := spec.url
    method
    headers := spec.headers
    encoding
    body := spec.body
    acceptStatus := sortedStatuses spec.acceptStatus
    response := ⟨success, error, extract⟩ }

/-- Validates endpoints in the order of their names. -/
def Endpoint.validateAll (id : String) :
    KeyMap EndpointSpec → Except DefinitionError (KeyMap Endpoint)
  | [] => .ok []
  | (name, spec) :: rest => do
    let e ← Endpoint.validate id ("endpoints." ++ name) name spec
    let es ← Endpoint.validateAll id rest
    return (name, e) :: es

/-! ### Definitions -/

/-- A text, unless it is blank. -/
def unlessBlank (s : Option String) : Option String :=
  s.filter (!Text.isBlankText ·)

/-- **Validates a definition.** -/
def Definition.validate (spec : DefinitionSpec) : Except DefinitionError Definition := do
  let id := Text.trim spec.id
  -- without an id the message has no name for the definition
  if id.isEmpty then throw (.invalid "<unknown>" "id" .required)
  if !id.toList.all isIdChar then throw (.invalid id "id" .idShape)
  let displayName := Text.trim spec.name
  if displayName.isEmpty then throw (.invalid id "name" .required)
  let homepage ← refuse id "homepage" (Url.readWeb? spec.homepage)
  if let some icon := spec.icon then
    let _ ← refuse id "icon" (Url.readWeb? icon)
  let capabilities ← refuse id "capabilities" (spec.capabilities.mapM Capability.read)
  let contentFormat ← refuse id "content_format" (ContentFormat.read spec.contentFormat)
  let hooks ← refuse id "hooks" (spec.hooks.mapM Hook.read)
  let auth ← match spec.auth with
    | none => throw (.invalid id "auth" .required)
    | some auth => Endpoint.validate id "auth" "auth" auth
  let endpoints ← Endpoint.validateAll id spec.endpoints
  return {
    id
    displayName
    icon := spec.icon
    homepage
    -- each once, in a fixed order
    capabilities := Capability.all.filter capabilities.contains
    contentFormat
    auth
    endpoints
    draftUrl := unlessBlank spec.draftUrl
    postUrl := unlessBlank spec.postUrl
    requestDelayMs := spec.requestDelayMs
    hooks := Hook.all.filter hooks.contains }

end Syndication
