import Syndication.Text.Utf8
import Syndication.Yaml.Scalar

/-!
# Tokens of a YAML text

The pieces of a text before its structure is known, and the reading of those that
need no more than the characters that follow.

Main statements:

* `Token`: the pieces.
* `directive?`, `anchorName?`, `tag?`: reading the pieces with a name.
-/

namespace Syndication.Yaml

/-- How a scalar is written. -/
inductive Style where
  /-- Without quotes. -/
  | plain
  /-- In quotes or as a block. -/
  | quoted
deriving DecidableEq, Repr

/-- A piece of a text. -/
inductive Token where
  /-- The version of the notation. -/
  | version (major minor : Nat)
  /-- What a handle of tags stands for. -/
  | handle (name meaning : String)
  /-- The beginning of a document. -/
  | documentStart
  | documentEnd
  /-- The beginning of a list by indentation. -/
  | listStart
  /-- The beginning of a map by indentation. -/
  | mapStart
  /-- The end of a list or a map by indentation. -/
  | blockEnd
  | bracketOpen
  | bracketClose
  | braceOpen
  | braceClose
  /-- The mark before an item of a list by indentation. -/
  | dash
  | comma
  /-- The beginning of a key. -/
  | key
  /-- The beginning of a value. -/
  | value
  /-- A reference to a part with a name. -/
  | alias (name : String)
  /-- The name of the part that follows. -/
  | anchor (name : String)
  /-- The type of the part that follows. -/
  | tag (handle suffix : String)
  | scalar (style : Style) (text : String)
deriving DecidableEq, Repr

/-- Reads a name, which may be empty, and what follows. -/
def name (cs : List Char) : List Char × List Char :=
  cs.span isNameChar

/-! ### Anchors -/

/-- Whether a name of a part may end here. -/
def endsAnchor : List Char → Bool
  | [] => true
  | c :: _ => isBlank c || isBreak c || ['?', ':', ',', ']', '}', '%', '@', '\x60'].contains c

/-- Reads the name of a part behind its mark, and what follows. -/
def anchorName? (cs : List Char) : Option (String × List Char) :=
  let (found, rest) := name cs
  if found.isEmpty || !endsAnchor rest then none else some (String.ofList found, rest)

/-! ### Tags -/

/-- Whether a character may stand in a tag; in angle brackets more may. -/
def isTagChar (bracketed : Bool) (c : Char) : Bool :=
  isNameChar c || ";/?:@&=+$.%!~*'()".toList.contains c || (bracketed && [',', '[', ']'].contains c)

/-- Reads a byte that is written with a percent sign, and what follows. -/
def byte? : List Char → Option (UInt8 × List Char)
  | '%' :: a :: b :: rest => do
    return (UInt8.ofNat (← Plain.natInBase? 16 [a, b]), rest)
  | _ => none

/-- The number of bytes of a character that begins with a byte. -/
def byteCount? (b : UInt8) : Option Nat :=
  if b < 0x80 then some 1
  else if 0xC0 ≤ b && b < 0xE0 then some 2
  else if 0xE0 ≤ b && b < 0xF0 then some 3
  else if 0xF0 ≤ b && b < 0xF8 then some 4
  else none

/-- Reads some bytes that are written with percent signs, and what follows. -/
def bytes? : Nat → List Char → Option (List UInt8 × List Char)
  | 0, cs => some ([], cs)
  | n + 1, cs => do
    let (b, cs) ← byte? cs
    let (bs, cs) ← bytes? n cs
    return (b :: bs, cs)

/-- Reads a character that is written with percent signs, and what follows. -/
def percentChar? (cs : List Char) : Option (List Char × List Char) := do
  let (first, _) ← byte? cs
  let (bs, rest) ← bytes? (← byteCount? first) cs
  return ((← Text.decode? bs), rest)

/-- Reads the characters of a tag, and what follows. -/
def tagChars? (bracketed : Bool) : Nat → List Char → Option (List Char × List Char)
  | 0, _ => none
  | fuel + 1, cs =>
    match cs with
    | [] => some ([], [])
    | '%' :: _ => do
      let (found, rest) ← percentChar? cs
      let (others, rest) ← tagChars? bracketed fuel rest
      return (found ++ others, rest)
    | c :: rest =>
      if isTagChar bracketed c then do
        let (others, rest) ← tagChars? bracketed fuel rest
        return (c :: others, rest)
      else some ([], cs)

/-- Reads the characters of a tag, of which there has to be one, and what
follows. -/
def tagText? (bracketed : Bool) (cs : List Char) : Option (List Char × List Char) := do
  let (found, rest) ← tagChars? bracketed (cs.length + 1) cs
  if found.isEmpty then none else some (found, rest)

/-- Reads a tag in angle brackets, of which the opening one was read. -/
def bracketedTag? (cs : List Char) : Option (Token × List Char) := do
  let (found, rest) ← tagText? true cs
  match rest with
  | '>' :: rest => return (.tag "" (String.ofList found), rest)
  | _ => none

/-- Reads a tag behind its mark: with a handle of its own, or with that of the
writer. The mark alone is a tag too. -/
def shortTag? (cs : List Char) : Option (Token × List Char) := do
  let (found, rest) := name cs
  match rest with
  | '!' :: rest =>
    let (suffix, rest) ← tagText? false rest
    return (.tag (String.ofList ('!' :: found ++ ['!'])) (String.ofList suffix), rest)
  | _ =>
    let (more, rest) ← tagChars? false (rest.length + 1) rest
    match found ++ more with
    | [] => return (.tag "" "!", rest)
    | suffix => return (.tag "!" (String.ofList suffix), rest)

/-- Reads a tag behind its mark, and what follows. -/
def tag? (flow : Bool) (cs : List Char) : Option (Token × List Char) := do
  let (token, rest) ← match cs with
    | '<' :: rest => bracketedTag? rest
    | cs => shortTag? cs
  if startsBlank rest || (flow && rest.head? == some ',') then return (token, rest) else none

/-! ### Directives -/

/-- Reads a number of at most nine digits, and what follows. -/
def versionNumber? (cs : List Char) : Option (Nat × List Char) :=
  let (found, rest) := cs.span Char.isDigit
  if found.isEmpty || 9 < found.length then none else some (Decimal.natOfDigits found, rest)

/-- Reads the version behind its name, and what follows. -/
def version? (cs : List Char) : Option (Token × List Char) := do
  let (major, cs) ← versionNumber? (cs.dropWhile isBlank)
  match cs with
  | '.' :: cs =>
    let (minor, cs) ← versionNumber? cs
    return (.version major minor, cs)
  | _ => none

/-- Reads a handle of tags, and what follows. -/
def tagHandle? (cs : List Char) : Option (List Char × List Char) :=
  match cs with
  | '!' :: cs =>
    let (found, rest) := name cs
    match rest with
    | '!' :: rest => some ('!' :: found ++ ['!'], rest)
    | _ => if found.isEmpty then some (['!'], rest) else none
  | _ => none

/-- Reads the meaning of a handle behind its name, and what follows. -/
def handleMeaning? (cs : List Char) : Option (Token × List Char) := do
  let (handle, cs) ← tagHandle? (cs.dropWhile isBlank)
  if !cs.head?.any isBlank then none
  else
    let (meaning, cs) ← tagText? true (cs.dropWhile isBlank)
    if startsBlank cs then return (.handle (String.ofList handle) (String.ofList meaning), cs)
    else none

/-- Reads a directive behind its mark up to the next line, and what follows. -/
def directive? (cs : List Char) : Option (Token × List Char) := do
  let (found, rest) := name cs
  if !startsBlank rest then none
  else
    let (token, rest) ← match String.ofList found with
      | "YAML" => version? rest
      | "TAG" => handleMeaning? rest
      | _ => none
    let rest := skipComment (rest.dropWhile isBlank)
    if rest.head?.all isBreak then return (token, skipBreak rest) else none

end Syndication.Yaml
