import Syndication.Text.Blank
import Syndication.Text.Search
import Syndication.Decimal.Reading
import Syndication.Json.Basic
import Syndication.Expression.Error

/-!
# Field paths

A field path addresses a part of a JSON value: a key of an object or an index of
an array for each of its segments. It is written with dots, `a.b.c`, or with an
index in brackets, `a[0].b`, and may begin with `$` or `$.`; `$` alone addresses
the whole value.

Main statements:

* `resolve_nil`, `resolve_cons`, `follow?_append`: a path is followed one segment at
  a time.
* `isSegment_of_parse`: every segment of a path that was read is a nonempty run
  of ASCII letters, digits, underscores and hyphens.
-/

namespace Syndication

/-- A path into a JSON value. -/
structure FieldPath where
  /-- The keys and indices, from the outside in. -/
  segments : List String
deriving DecidableEq, Repr

namespace FieldPath

/-- The characters of a segment. -/
def isSegmentChar (c : Char) : Bool :=
  c.isAlphanum || c == '_' || c == '-'

/-- Whether a text is a segment. -/
def isSegment (cs : List Char) : Bool :=
  !cs.isEmpty && cs.all isSegmentChar

/-- Brackets become dots: an opening one a dot, a closing one nothing. -/
def dotted (cs : List Char) : List Char :=
  cs.flatMap fun c => if c = '[' then ['.'] else if c = ']' then [] else [c]

/-- The text behind the mark of the whole value. -/
def afterRoot (cs : List Char) : List Char :=
  match cs with
  | '$' :: '.' :: rest => rest
  | '$' :: rest => rest
  | rest => rest

/-- The path that a text writes. -/
def parseChars (raw : List Char) : Except ExpressionError FieldPath :=
  let trimmed := Chars.trim raw
  let body := afterRoot trimmed
  if body.isEmpty then
    if trimmed = ['$'] then .ok ⟨[]⟩ else .error (.invalidPath (String.ofList raw))
  else
    let segments := Chars.splitOn '.' (dotted body)
    if segments.all isSegment then .ok ⟨segments.map String.ofList⟩
    else .error (.invalidPath (String.ofList raw))

/-- The path that a text writes. -/
def parse (raw : String) : Except ExpressionError FieldPath :=
  parseChars raw.toList

/-- The path that a text writes, if it writes one. -/
def parse? (raw : String) : Option FieldPath :=
  (parse raw).toOption

/-- Every segment of a path that was read is well formed. -/
theorem isSegment_of_parse {raw : List Char} {path : FieldPath} (h : parseChars raw = .ok path) :
    ∀ s ∈ path.segments, isSegment s.toList = true := by
  unfold parseChars at h
  simp only at h
  split at h
  · split at h
    · simp only [Except.ok.injEq] at h
      simp [← h]
    · simp at h
  · split at h
    · rename_i hall
      simp only [Except.ok.injEq] at h
      subst h
      intro s hs
      simp only [List.mem_map] at hs
      obtain ⟨cs, hcs, rfl⟩ := hs
      simpa using List.all_eq_true.1 hall cs hcs
    · simp at h

/-- The index that a segment writes, if it is one that an array may have. -/
def index? (segment : String) : Option Nat :=
  (Decimal.natOfDigits? segment.toList).filter (· ≤ Decimal.greatestNat64)

/-- The part of a value that one segment addresses. -/
def step? (segment : String) : Json → Option Json
  | .object members => KeyMap.find? segment members
  | .array items => (index? segment).bind fun i => items[i]?
  | _ => none

/-- The part of a value that segments address, one inside the other. -/
def follow? : List String → Json → Option Json
  | [], value => some value
  | segment :: rest, value => (step? segment value).bind (follow? rest)

/-- The part of a value that a path addresses, if there is one. -/
def resolve (path : FieldPath) (value : Json) : Option Json :=
  follow? path.segments value

@[simp] theorem resolve_nil (value : Json) : resolve ⟨[]⟩ value = some value := rfl

/-- A path is followed one segment at a time. -/
@[simp] theorem resolve_cons (segment : String) (rest : List String) (value : Json) :
    resolve ⟨segment :: rest⟩ value = (step? segment value).bind (resolve ⟨rest⟩) := rfl

/-- A path that goes on is followed from where its beginning leads. -/
theorem follow?_append (first second : List String) (value : Json) :
    follow? (first ++ second) value = (follow? first value).bind (follow? second) := by
  induction first generalizing value with
  | nil => rfl
  | cons segment rest ih =>
    simp only [List.cons_append, follow?]
    cases step? segment value with
    | none => rfl
    | some part => simpa using ih part

/-- The text of a path. -/
def text (path : FieldPath) : String :=
  "$." ++ ".".intercalate path.segments

end FieldPath

end Syndication
