import Syndication.Yaml.Token

/-!
# The layout of a YAML text

Outside of brackets and braces the structure of a text is told by indentation, and
a key is recognised only by the colon behind it. Reading the tokens of a text
therefore keeps the columns of the open lists and maps, and for every level of
brackets and braces the place at which a key may have begun. When the colon comes,
the mark of the key, and of the map if this is its first key, are put in at that
place.

Main statement:

* `tokens?`: the tokens of a text.
-/

namespace Syndication.Yaml

/-- A place at which a key may have begun. -/
structure KeyPlace where
  /-- How many tokens stand before it. -/
  position : Nat
  /-- Whether a key has to stand here. -/
  required : Bool
  /-- The number of its first character. -/
  index : Nat
  line : Nat
  column : Nat
deriving DecidableEq, Repr

/-- How far the tokens of a text were read. -/
structure Layout where
  /-- The place in the text. -/
  cursor : Cursor
  /-- The tokens, the last first. -/
  tokens : List Token
  /-- The column, plus one, of the innermost list or map. -/
  indent : Nat
  /-- The same for those around it, the innermost first. -/
  outer : List Nat
  /-- Whether a key may begin here. -/
  keyAllowed : Bool
  /-- The place at which a key may have begun on this level of brackets and
  braces. -/
  keyPlace : Option KeyPlace
  /-- The same for the levels around it, the innermost first. -/
  outerPlaces : List (Option KeyPlace)
deriving DecidableEq, Repr

namespace Layout

/-- The beginning of a text. -/
def start (text : List Char) : Layout :=
  ⟨.start text, [], 0, [], true, none, []⟩

/-- Whether the place is inside of brackets or braces. -/
def inFlow (l : Layout) : Bool :=
  !l.outerPlaces.isEmpty

/-- The layout with one more token. -/
def push (l : Layout) (t : Token) : Layout :=
  { l with tokens := t :: l.tokens }

/-- The layout with a token put in behind as many as `position`. -/
def insertAt (l : Layout) (position : Nat) (t : Token) : Layout :=
  { l with tokens := l.tokens.insertIdx (l.tokens.length - position) t }

/-- The layout at the place at which some characters are left. -/
def goTo (l : Layout) (rest : List Char) : Layout :=
  { l with cursor := l.cursor.upTo rest }

/-- The layout after some characters. -/
def skip (l : Layout) (n : Nat) : Layout :=
  { l with cursor := l.cursor.advance n }

/-! ### Indentation -/

/-- The layout with a list or a map begun at a column, unless one is open there. -/
def openAt (l : Layout) (column position : Nat) (t : Token) : Layout :=
  if l.inFlow || column < l.indent then l
  else
    { l.insertAt position t with indent := column + 1, outer := l.indent :: l.outer }

/-- The layout with the lists and maps closed that are indented to a column of
`column` or more; columns are counted from one. -/
def closeFrom (column : Nat) : Nat → List Nat → List Token → Nat × List Nat × List Token
  | indent, [], tokens => (indent, [], tokens)
  | indent, parent :: outer, tokens =>
    if column < indent then closeFrom column parent outer (.blockEnd :: tokens)
    else (indent, parent :: outer, tokens)

/-- The layout with the lists and maps closed that the text at a column, counted
from one, no longer belongs to. -/
def close (l : Layout) (column : Nat) : Layout :=
  if l.inFlow then l
  else
    let (indent, outer, tokens) := closeFrom column l.indent l.outer l.tokens
    { l with indent, outer, tokens }

/-! ### Places of keys -/

/-- The layout without the place at which a key may have begun; a key that has to
stand there is missing. -/
def dropKey? (l : Layout) : Option Layout :=
  if l.keyPlace.any (·.required) then none else some { l with keyPlace := none }

/-- The layout with the place at which a key may have begun, if one may begin
here. -/
def markKey? (l : Layout) : Option Layout :=
  if l.keyAllowed then do
    let place : KeyPlace :=
      -- at the column of an open map there is nothing but its next key
      ⟨l.tokens.length, !l.inFlow && l.indent == l.cursor.column + 1, l.cursor.index, l.cursor.line,
        l.cursor.column⟩
    return { ← l.dropKey? with keyPlace := some place }
  else some l

/-- Whether a key that began at a place can no longer end here: it stands on one
line and is not too long. -/
def isStale (c : Cursor) (p : KeyPlace) : Bool :=
  p.line < c.line || p.index + 1024 < c.index

/-- The place without one at which a key can no longer have begun. -/
def refreshPlace? (c : Cursor) (place : Option KeyPlace) : Option (Option KeyPlace) :=
  match place with
  | some p => if isStale c p then (if p.required then none else some none) else some (some p)
  | none => some none

/-- The layout without places at which a key can no longer have begun. -/
def refresh? (l : Layout) : Option Layout := do
  return { l with
    keyPlace := ← refreshPlace? l.cursor l.keyPlace
    outerPlaces := ← l.outerPlaces.mapM (refreshPlace? l.cursor) }

/-! ### Between tokens -/

/-- Whether blanks of a kind may stand here. -/
def takesBlank (l : Layout) (c : Char) : Bool :=
  c == ' ' || (c == '\t' && (l.inFlow || !l.keyAllowed))

/-- The layout at the next token: blanks, comments and ends of lines are left out,
and so is a byte order mark at the beginning of a line. -/
def toToken : Nat → Layout → Layout
  | 0, l => l
  | fuel + 1, l =>
    let l := if l.cursor.column == 0 && l.cursor.rest.head? == some '\uFEFF' then l.skip 1 else l
    let l := l.goTo (skipComment (l.cursor.rest.dropWhile l.takesBlank))
    match l.cursor.rest with
    | c :: _ =>
      if isBreak c then
        let l := l.goTo (skipBreak l.cursor.rest)
        -- outside of brackets and braces a new line may begin with a key
        toToken fuel { l with keyAllowed := l.keyAllowed || !l.inFlow }
      else l
    | [] => l

/-! ### Tokens -/

/-- Reads a token that closes everything and stands at the beginning of a line. -/
def atMargin? (l : Layout) : Option Layout := do
  return { ← (l.close 0).dropKey? with keyAllowed := false }

/-- Reads an opening bracket or brace. -/
def openFlow? (l : Layout) (t : Token) : Option Layout := do
  let l ← l.markKey?
  return { (l.skip 1).push t with
    keyAllowed := true
    keyPlace := none
    outerPlaces := l.keyPlace :: l.outerPlaces }

/-- Reads a closing bracket or brace. -/
def closeFlow? (l : Layout) (t : Token) : Option Layout := do
  let l := { (← l.dropKey?).skip 1 with keyAllowed := false }
  match l.outerPlaces with
  | place :: outer => return { l with keyPlace := place, outerPlaces := outer }.push t
  | [] => return l.push t

/-- Reads a comma. -/
def comma? (l : Layout) : Option Layout := do
  return { ((← l.dropKey?).skip 1).push .comma with keyAllowed := true }

/-- Reads the mark before an item. -/
def dash? (l : Layout) : Option Layout := do
  if !l.inFlow && !l.keyAllowed then none
  else
    let l ← (l.openAt l.cursor.column l.tokens.length .listStart).dropKey?
    return { (l.skip 1).push .dash with keyAllowed := true }

/-- Reads the mark before a key. -/
def question? (l : Layout) : Option Layout := do
  if !l.inFlow && !l.keyAllowed then none
  else
    let l ← (l.openAt l.cursor.column l.tokens.length .mapStart).dropKey?
    return { (l.skip 1).push .key with keyAllowed := !l.inFlow }

/-- Reads the mark before a value: what stands before it on the line is its key, if
a key may have begun there. -/
def colon? (l : Layout) : Option Layout :=
  match l.keyPlace with
  | some p =>
    -- the key is already read: its mark, and that of its map, go in before it
    let l := { l with keyPlace := none }.insertAt p.position .key
    let l := l.openAt p.column p.position .mapStart
    some { (l.skip 1).push .value with keyAllowed := false }
  | none =>
    if !l.inFlow && !l.keyAllowed then none
    else
      -- a value without a key
      let l := l.openAt l.cursor.column l.tokens.length .mapStart
      some { (l.skip 1).push .value with keyAllowed := !l.inFlow }

/-- Reads a token that may be part of a key. -/
def inKey? (l : Layout) (read : Layout → Option (Token × List Char)) : Option Layout := do
  let l ← l.markKey?
  let (token, rest) ← read l
  return { (l.goTo rest).push token with keyAllowed := false }

/-- Reads a scalar in quotes. -/
def quote? (l : Layout) (mark : Char) : Option Layout :=
  l.inKey? fun l => do
    let (text, rest) ← quoted? mark (l.cursor.column + 1) (l.cursor.rest.drop 1)
    return (.scalar .quoted (String.ofList text), rest)

/-- Reads a block of lines. -/
def lines? (l : Layout) (literal : Bool) : Option Layout := do
  let l ← l.dropKey?
  let (text, rest) ← block? literal l.indent (l.cursor.rest.drop 1)
  return { (l.goTo rest).push (.scalar .quoted (String.ofList text)) with keyAllowed := true }

/-- Reads a scalar without quotes. -/
def words? (l : Layout) : Option Layout := do
  let l ← l.markKey?
  let s ← plain? l.inFlow l.indent l.cursor.column l.cursor.rest
  return { (l.goTo s.rest).push (.scalar .plain (String.ofList s.text)) with
    keyAllowed := s.broken }

/-- Whether a scalar without quotes may begin here. -/
def startsWords (l : Layout) : Bool :=
  match l.cursor.rest with
  | [] => false
  | '-' :: rest => !rest.head?.any isBlank
  | c :: rest =>
    if c == '?' || c == ':' then !l.inFlow && !startsBlank rest
    else !isBlank c && !isBreak c && !",[]\x7b\x7d#&*!|>'\"%@".toList.contains c && c != '\x60'

/-- Reads the token that begins here. -/
def token? (l : Layout) : Option Layout :=
  let rest := l.cursor.rest
  -- a mark is one only before a blank, except in brackets and braces
  let indicates : Bool := l.inFlow || startsBlank (rest.drop 1)
  if l.cursor.column == 0 && rest.head? == some '%' then do
    let l ← l.atMargin?
    let (token, rest) ← directive? (rest.drop 1)
    return (l.goTo rest).push token
  else if l.cursor.column == 0 && startsMarker rest then do
    let t := if rest.head? == some '-' then Token.documentStart else Token.documentEnd
    return ((← l.atMargin?).skip 3).push t
  else match rest.head? with
    | some '[' => l.openFlow? .bracketOpen
    | some '{' => l.openFlow? .braceOpen
    | some ']' => l.closeFlow? .bracketClose
    | some '}' => l.closeFlow? .braceClose
    | some ',' => l.comma?
    | some '*' => l.inKey? fun l => do
      let (name, rest) ← anchorName? (l.cursor.rest.drop 1)
      return (.alias name, rest)
    | some '&' => l.inKey? fun l => do
      let (name, rest) ← anchorName? (l.cursor.rest.drop 1)
      return (.anchor name, rest)
    | some '!' => l.inKey? fun l => tag? l.inFlow (l.cursor.rest.drop 1)
    | some '\'' => l.quote? '\''
    | some '"' => l.quote? '"'
    | some c =>
      if c == '-' && startsBlank (rest.drop 1) then l.dash?
      else if c == '?' && indicates then l.question?
      else if c == ':' && indicates then l.colon?
      else if c == '|' && !l.inFlow then l.lines? true
      else if c == '>' && !l.inFlow then l.lines? false
      else if l.startsWords then l.words?
      else none
    | none => none

/-- Reads the tokens up to the end of the text: the tokens, the last first. -/
def run? : Nat → Layout → Option (List Token)
  | 0, _ => none
  | fuel + 1, l => do
    let l ← (l.toToken (l.cursor.rest.length + 1)).refresh?
    if l.cursor.rest.isEmpty then
      let l ← (l.close 0).dropKey?
      return l.tokens
    else run? fuel (← (l.close (l.cursor.column + 1)).token?)

end Layout

/-- **The tokens of a text.** -/
def tokens? (text : List Char) : Option (List Token) :=
  if text.all isAllowed then
    (Layout.run? (text.length + 1) (.start text)).map List.reverse
  else none

end Syndication.Yaml
