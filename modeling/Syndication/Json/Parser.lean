import Syndication.Document.Basic
import Syndication.Json.Reading

/-!
# Reading JSON texts

Strict JSON: no comments, no trailing commas, no leading zeros, no byte-order
mark, blanks only space, tab, line feed and carriage return. A text is read into
a `Document` first, which keeps repeated keys; `Json.parse?` then takes the value
of that document.

Half of a surrogate pair, a number beyond double precision and a list or map
nested more than `maxDepth` levels deep are `unreadable` parts: a syntax error
for who wants their value, and no harm where they are ignored.

Main statements:

* `parse?_null`, `parse?_empty`: the null value is written `null`, and an empty
  text has no value.
-/

namespace Syndication.Json

/-- The greatest number of lists and maps that may stand around a value. -/
def maxDepth : Nat := 127

/-- The blanks between tokens. -/
def isSpace (c : Char) : Bool :=
  c == ' ' || c == '\t' || c == '\n' || c == '\r'

/-- The rest of a text behind its blanks. -/
def skipSpace (cs : List Char) : List Char :=
  cs.dropWhile isSpace

/-! ### Texts -/

/-- A unit of a quoted text: a character, or a code unit of 16 bits that is
escaped by its number. -/
inductive TextUnit where
  | char (c : Char)
  /-- A code unit. -/
  | code (n : Nat)
deriving DecidableEq, Repr

/-- The code unit that four hexadecimal digits write. -/
def codeUnit? (a b c d : Char) : Option Nat :=
  Plain.natInBase? 16 [a, b, c, d]

/-- The units of a text up to its closing quotation mark, and what follows. -/
def scanText : List Char → Option (List TextUnit × List Char)
  | [] => none
  | '"' :: rest => some ([], rest)
  | '\\' :: 'u' :: a :: b :: c :: d :: rest => do
    let n ← codeUnit? a b c d
    let (units, rest) ← scanText rest
    return (.code n :: units, rest)
  | '\\' :: e :: rest => do
    let c ← escaped? e
    let (units, rest) ← scanText rest
    return (.char c :: units, rest)
  | c :: rest =>
    if c.toNat < 0x20 ∨ c = '\\' then none
    else do
      let (units, rest) ← scanText rest
      return (.char c :: units, rest)
where
  /-- The character that a short escape stands for. -/
  escaped? : Char → Option Char
    | '"' => some '"'
    | '\\' => some '\\'
    | '/' => some '/'
    | 'b' => some '\x08'
    | 'f' => some '\x0C'
    | 'n' => some '\n'
    | 'r' => some '\r'
    | 't' => some '\t'
    | _ => none

/-- Whether a code unit is the first half of a surrogate pair. -/
def isHighSurrogate (n : Nat) : Bool := 0xD800 ≤ n && n ≤ 0xDBFF

/-- Whether a code unit is the second half of a surrogate pair. -/
def isLowSurrogate (n : Nat) : Bool := 0xDC00 ≤ n && n ≤ 0xDFFF

/-- The characters of the units, unless half of a surrogate pair stands
alone. -/
def assemble? : List TextUnit → Option (List Char)
  | [] => some []
  | .char c :: rest => (assemble? rest).map (c :: ·)
  | .code high :: .code low :: rest =>
    if isHighSurrogate high then
      if isLowSurrogate low then
        (assemble? rest).map (Char.ofNat (0x10000 + (high - 0xD800) * 0x400 + (low - 0xDC00)) :: ·)
      else none
    else if isLowSurrogate high then none
    -- the first is a character of its own; the second may begin a pair
    else (assemble? (.code low :: rest)).map (Char.ofNat high :: ·)
  | .code n :: rest =>
    if isHighSurrogate n || isLowSurrogate n then none
    else (assemble? rest).map (Char.ofNat n :: ·)

/-- The document of a quoted text. -/
def textDocument (units : List TextUnit) : Document :=
  match assemble? units with
  | some cs => .text (String.ofList cs)
  | none => .unreadable

/-! ### Numbers -/

/-- The exponent that begins behind the letter, and what follows. -/
def scanExponent (cs : List Char) : Option (Int × List Char) :=
  let (negative, ds) := match cs with
    | '-' :: r => (true, r)
    | '+' :: r => (false, r)
    | r => (false, r)
  let digits := ds.takeWhile Char.isDigit
  if digits.isEmpty then none
  else
    let n := Decimal.natOfDigits digits
    some (if negative then -(n : Int) else n, ds.dropWhile Char.isDigit)

/-- The digits of the fraction, if a point comes here, and what follows. -/
def scanFraction : List Char → Option (Option (List Char) × List Char)
  | '.' :: r =>
    let digits := r.takeWhile Char.isDigit
    if digits.isEmpty then none else some (some digits, r.dropWhile Char.isDigit)
  | r => some (none, r)

/-- The number that begins here behind its sign, and what follows. -/
def scanUnsigned (negative : Bool) (cs : List Char) : Option (NumberText × List Char) :=
  let whole := cs.takeWhile Char.isDigit
  -- zero stands alone before the point
  if whole.isEmpty || (whole.head? == some '0' && whole.length ≠ 1) then none
  else
    (scanFraction (cs.dropWhile Char.isDigit)).bind fun (fraction, rest) =>
      match rest with
      | 'e' :: r | 'E' :: r =>
        (scanExponent r).map fun (e, rest) => (⟨negative, whole, fraction, some e⟩, rest)
      | rest => some (⟨negative, whole, fraction, none⟩, rest)

/-- The number that begins here, and what follows. -/
def scanNumber : List Char → Option (NumberText × List Char)
  | '-' :: r => scanUnsigned true r
  | r => scanUnsigned false r

/-- The document of a number. -/
def numberDocument (t : NumberText) : Document :=
  match t.number? with
  | some n => .number n
  | none => .unreadable

/-! ### Values -/

/-- A list or map, unless too many others stand around it. -/
def nested (depth : Nat) (d : Document) : Document :=
  if depth < maxDepth then d else .unreadable

mutual

/-- The value that begins here, inside `depth` lists and maps, and what
follows. -/
def scanValue : Nat → Nat → List Char → Option (Document × List Char)
  | 0, _, _ => none
  | fuel + 1, depth, cs =>
    match skipSpace cs with
    | 'n' :: 'u' :: 'l' :: 'l' :: rest => some (.null, rest)
    | 't' :: 'r' :: 'u' :: 'e' :: rest => some (.bool true, rest)
    | 'f' :: 'a' :: 'l' :: 's' :: 'e' :: rest => some (.bool false, rest)
    | '"' :: rest => (scanText rest).map fun (units, rest) => (textDocument units, rest)
    | '[' :: rest =>
      match skipSpace rest with
      | ']' :: rest => some (nested depth (.list []), rest)
      | rest =>
        (scanItems fuel (depth + 1) rest).map fun (ds, rest) => (nested depth (.list ds), rest)
    | '{' :: rest =>
      match skipSpace rest with
      | '}' :: rest => some (nested depth (.map []), rest)
      | rest =>
        (scanMembers fuel (depth + 1) rest).map fun (es, rest) => (nested depth (.map es), rest)
    | rest => (scanNumber rest).map fun (t, rest) => (numberDocument t, rest)

/-- The items of a list up to its closing bracket; at least one. -/
def scanItems : Nat → Nat → List Char → Option (List Document × List Char)
  | 0, _, _ => none
  | fuel + 1, depth, cs => do
    let (d, rest) ← scanValue fuel depth cs
    match skipSpace rest with
    | ',' :: rest => do
      let (ds, rest) ← scanItems fuel depth rest
      return (d :: ds, rest)
    | ']' :: rest => some ([d], rest)
    | _ => none

/-- The members of a map up to its closing brace; at least one. -/
def scanMembers : Nat → Nat → List Char → Option (List (Document × Document) × List Char)
  | 0, _, _ => none
  | fuel + 1, depth, cs =>
    match skipSpace cs with
    | '"' :: rest => do
      let (units, rest) ← scanText rest
      match skipSpace rest with
      | ':' :: rest => do
        let (d, rest) ← scanValue fuel depth rest
        match skipSpace rest with
        | ',' :: rest => do
          let (es, rest) ← scanMembers fuel depth rest
          return ((textDocument units, d) :: es, rest)
        | '}' :: rest => some ([(textDocument units, d)], rest)
        | _ => none
      | _ => none
    | _ => none

end

/-- The document that a text writes. Every level of nesting and every item takes
at least one character, so twice the length of the text is depth enough. -/
def scan? (cs : List Char) : Option Document :=
  match scanValue (2 * cs.length + 2) 0 cs with
  | some (d, rest) => if (skipSpace rest).isEmpty then some d else none
  | none => none

/-- The document that a text writes. -/
def document? (s : String) : Option Document :=
  scan? s.toList

/-- The value that a text writes. -/
def parse? (s : String) : Option Json :=
  (document? s).bind Document.toJson?

/-- The null value is written `null`. -/
theorem parse?_null : parse? "null" = some .null := by decide

/-- An empty text has no value. -/
theorem parse?_empty : parse? "" = none := by decide

end Syndication.Json
