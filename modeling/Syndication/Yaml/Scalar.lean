import Syndication.Document.Plain
import Syndication.Yaml.Cursor

/-!
# Scalars of a YAML text

A scalar is written without quotes, in single or double quotes, or as a block of
indented lines. In the first three styles lines are folded: a single end of a line
between two words is a space, and of several the first is dropped. A block keeps
its lines or folds them too.

Main statements:

* `plain?`, `quoted?`, `block?`: reading a scalar of each style.
* `Gap.text_empty`: without blanks nothing is put between two words.
-/

namespace Syndication.Yaml

/-! ### Folding -/

/-- What stands between two words of a scalar. -/
structure Gap where
  /-- The blanks, where no line has ended. -/
  blanks : List Char
  /-- Whether a line has ended. -/
  broken : Bool
  /-- The first end of a line. -/
  firstBreak : List Char
  /-- The other ends of lines. -/
  otherBreaks : List Char
deriving DecidableEq, Repr

namespace Gap

/-- Nothing between two words. -/
def empty : Gap := ⟨[], false, [], []⟩

/-- A line whose end is written with a backslash. -/
def escapedBreak : Gap := ⟨[], true, [], []⟩

/-- The gap with one more blank. Blanks at the beginning of a line do not count. -/
def addBlank (g : Gap) (c : Char) : Gap :=
  if g.broken then g else { g with blanks := g.blanks ++ [c] }

/-- The gap with one more end of a line. -/
def addBreak (g : Gap) (c : Char) : Gap :=
  if g.broken then { g with otherBreaks := g.otherBreaks ++ keptBreak c }
  else ⟨[], true, keptBreak c, g.otherBreaks⟩

/-- What is put between the words. -/
def text (g : Gap) : List Char :=
  if g.broken then
    if g.firstBreak.head? = some '\n' then
      if g.otherBreaks.isEmpty then [' '] else g.otherBreaks
    else g.firstBreak ++ g.otherBreaks
  else g.blanks

/-- Without blanks nothing is put between two words. -/
@[simp] theorem text_empty : empty.text = [] := rfl

end Gap

/-! ### Scalars without quotes -/

/-- Whether a character has a meaning inside brackets and braces. -/
def isFlowIndicator (c : Char) : Bool :=
  c == ',' || c == '[' || c == ']' || c == '{' || c == '}'

/-- Whether a colon stands directly before something that it may not touch inside
brackets and braces. -/
def isStrayColon : List Char → Bool
  | ':' :: c :: _ => isFlowIndicator c || c == '?'
  | _ => false

/-- Whether a word of a scalar without quotes ends here. -/
def endsWord (flow : Bool) : List Char → Bool
  | [] => true
  | ':' :: rest => startsBlank rest
  | c :: _ => flow && isFlowIndicator c

/-- A scalar that was read: its text, whether a line has ended after it, and what
follows. -/
structure PlainScalar where
  text : List Char
  /-- Whether a line has ended after it. -/
  broken : Bool
  /-- What follows it and the blanks after it. -/
  rest : List Char
deriving DecidableEq, Repr

/-- Reads a scalar without quotes on, from a column. `gap` was read since the last
word, which ended `text`. Outside of brackets and braces (`flow`) lines of the
scalar begin at column `indent` or later. -/
def plainFrom? (flow : Bool) (indent : Nat) (text : List Char) (gap : Gap) :
    Nat → List Char → Option PlainScalar
  | _, [] => some ⟨text, gap.broken, []⟩
  | _, '\r' :: '\n' :: rest => plainFrom? flow indent text (gap.addBreak '\n') 0 rest
  | column, c :: rest =>
    if isBreak c then plainFrom? flow indent text (gap.addBreak c) 0 rest
    else if isBlank c then
      -- a tab does not indent
      if gap.broken && column < indent && c == '\t' then none
      else plainFrom? flow indent text (gap.addBlank c) (column + 1) rest
    else if gap != .empty && ((!flow && column < indent) ||
        (column == 0 && startsMarker (c :: rest)) || c == '#') then
      some ⟨text, gap.broken, c :: rest⟩
    else if flow && isStrayColon (c :: rest) then none
    else if endsWord flow (c :: rest) then some ⟨text, gap.broken, c :: rest⟩
    else plainFrom? flow indent (text ++ gap.text ++ [c]) .empty (column + 1) rest

/-- Reads a scalar without quotes that begins at a column. -/
def plain? (flow : Bool) (indent column : Nat) (cs : List Char) : Option PlainScalar :=
  plainFrom? flow indent [] .empty column cs

/-! ### Scalars in quotes -/

/-- The character that an escape of one character stands for. -/
def simpleEscape? (c : Char) : Option Char :=
  match c with
  | '0' => some '\x00'
  | 'a' => some '\x07'
  | 'b' => some '\x08'
  | 't' | '\t' => some '\t'
  | 'n' => some '\n'
  | 'v' => some '\x0b'
  | 'f' => some '\x0c'
  | 'r' => some '\r'
  | 'e' => some '\x1b'
  | ' ' | '"' | '/' | '\\' => some c
  | 'N' => some '\u0085'
  | '_' => some '\u00a0'
  | 'L' => some '\u2028'
  | 'P' => some '\u2029'
  | _ => none

/-- The number of digits of an escape by number. -/
def escapeLength? (c : Char) : Option Nat :=
  match c with
  | 'x' => some 2
  | 'u' => some 4
  | 'U' => some 8
  | _ => none

/-- The character with a number. -/
def charOfNat? (n : Nat) : Option Char :=
  if n ≤ 0x10FFFF ∧ ¬(0xD800 ≤ n ∧ n ≤ 0xDFFF) then some (Char.ofNat n) else none

/-- The character that an escape stands for, and what follows it. -/
def escape? : List Char → Option (Char × List Char)
  | [] => none
  | c :: rest =>
    match escapeLength? c with
    | some n => do
      let digits := rest.take n
      if digits.length < n then none
      else return (← charOfNat? (← Plain.natInBase? 16 digits), rest.drop n)
    | none => (simpleEscape? c).map (·, rest)

/-- Reads a scalar in quotes on, from a column, up to the closing quote: its text
and what follows. -/
def quotedFrom? (quote : Char) : Nat → List Char → Gap → Nat → List Char →
    Option (List Char × List Char)
  | 0, _, _, _, _ => none
  | _ + 1, _, _, _, [] => none
  | fuel + 1, text, gap, column, c :: rest =>
    if isBreak c then
      let rest := if c == '\r' && rest.head? == some '\n' then rest.drop 1 else rest
      quotedFrom? quote fuel text (gap.addBreak c) 0 rest
    else if isBlank c then quotedFrom? quote fuel text (gap.addBlank c) (column + 1) rest
    -- the mark of a document may not stand within quotes
    else if column == 0 && startsMarker (c :: rest) then none
    else
      let text := text ++ gap.text
      if c == quote then
        -- a single quote is written twice
        if quote == '\'' && rest.head? == some '\'' then
          quotedFrom? quote fuel (text ++ ['\'']) .empty (column + 2) (rest.drop 1)
        else some (text, rest)
      else if c == '\\' && quote == '"' then
        match rest with
        | '\r' :: '\n' :: rest => quotedFrom? quote fuel text .escapedBreak 0 rest
        | e :: others =>
          if isBreak e then quotedFrom? quote fuel text .escapedBreak 0 others
          else do
            let (d, rest) ← escape? rest
            quotedFrom? quote fuel (text ++ [d]) .empty (column + 2) rest
        | [] => none
      else quotedFrom? quote fuel (text ++ [c]) .empty (column + 1) rest

/-- Reads a scalar in quotes behind the opening quote, from a column. -/
def quoted? (quote : Char) (column : Nat) (cs : List Char) : Option (List Char × List Char) :=
  quotedFrom? quote (cs.length + 1) [] .empty column cs

/-! ### Blocks of lines -/

/-- What becomes of the ends of lines at the end of a block. -/
inductive Chomping where
  /-- They are dropped. -/
  | strip
  /-- One of them stays. -/
  | clip
  /-- They stay. -/
  | keep
deriving DecidableEq, Repr

/-- What a block says about itself. -/
structure BlockHeader where
  /-- What becomes of the ends of lines at its end. -/
  chomping : Chomping
  /-- By how many columns it is indented, if it says so. -/
  increment : Option Nat
deriving DecidableEq, Repr

/-- The chomping that a character asks for. -/
def chomping? : Char → Option Chomping
  | '+' => some .keep
  | '-' => some .strip
  | _ => none

/-- The indentation that a character asks for. -/
def increment? (c : Char) : Option Nat :=
  if c.isDigit then some (c.toNat - '0'.toNat) else none

/-- Reads what a block says about itself, in either order, and what follows. -/
def blockHeader (cs : List Char) : BlockHeader × List Char :=
  match cs with
  | [] => (⟨.clip, none⟩, [])
  | c :: rest =>
    match chomping? c, increment? c with
    | some chomping, _ =>
      match rest.head?.bind increment? with
      | some n => (⟨chomping, some n⟩, rest.drop 1)
      | none => (⟨chomping, none⟩, rest)
    | none, some n =>
      match rest.head?.bind chomping? with
      | some chomping => (⟨chomping, some n⟩, rest.drop 1)
      | none => (⟨.clip, some n⟩, rest)
    | none, none => (⟨.clip, none⟩, cs)

/-- Leaves out a comment. -/
def skipComment (cs : List Char) : List Char :=
  match cs with
  | '#' :: _ => cs.dropWhile (!isBreak ·)
  | _ => cs

/-- Leaves out the end of a line, if there is one. -/
def skipBreak (cs : List Char) : List Char :=
  match cs with
  | '\r' :: '\n' :: rest => rest
  | c :: rest => if isBreak c then rest else cs
  | [] => []

/-- Empty lines and the indentation after them. -/
structure Margin where
  /-- The ends of the lines. -/
  breaks : List Char
  /-- The column at which the text goes on. -/
  column : Nat
  /-- The greatest column that was reached. -/
  widest : Nat
  /-- What follows. -/
  rest : List Char
deriving DecidableEq, Repr

/-- Reads empty lines and indentation up to column `indent`; up to any column if
that is zero. -/
def marginFrom? (indent : Nat) (breaks : List Char) (widest : Nat) :
    Nat → List Char → Option Margin
  | column, [] => some ⟨breaks, column, max widest column, []⟩
  | column, '\r' :: '\n' :: rest =>
    marginFrom? indent (breaks ++ ['\n']) (max widest column) 0 rest
  | column, c :: rest =>
    let within := indent == 0 || column < indent
    if c == ' ' && within then marginFrom? indent breaks widest (column + 1) rest
    else if c == '\t' && within then none
    else if isBreak c then
      marginFrom? indent (breaks ++ keptBreak c) (max widest column) 0 rest
    else some ⟨breaks, column, max widest column, c :: rest⟩

/-- Reads empty lines and indentation at the beginning of a line. -/
def margin? (indent : Nat) (cs : List Char) : Option Margin :=
  marginFrom? indent [] 0 0 cs

/-- The lines of a block that were read. -/
structure BlockText where
  /-- The text up to the last line. -/
  text : List Char
  /-- The end of the last line. -/
  lastBreak : List Char
  /-- Whether the last line begins with a blank. -/
  indented : Bool
deriving DecidableEq, Repr

/-- The text with what stands before a line: unless lines are kept (`literal`), the
end of a line between two lines without indentation is a space. -/
def BlockText.join (b : BlockText) (literal : Bool) (breaks : List Char) (blank : Bool) :
    List Char :=
  if !literal && b.lastBreak.head? == some '\n' && !b.indented && !blank then
    b.text ++ (if breaks.isEmpty then [' '] else breaks)
  else b.text ++ b.lastBreak ++ breaks

/-- The first end of a line in what follows a line, as it is kept. -/
def firstBreak (cs : List Char) : List Char :=
  (cs.head?.map keptBreak).getD []

/-- Reads the lines of a block whose margin was read. -/
def blockFrom? (literal : Bool) (indent : Nat) : Nat → BlockText → Margin →
    Option (BlockText × Margin)
  | 0, b, m => some (b, m)
  | fuel + 1, b, m =>
    match m.rest with
    | [] => some (b, m)
    | c :: _ =>
      if m.column = indent then do
        let line := m.rest.takeWhile (!isBreak ·)
        let after := m.rest.dropWhile (!isBreak ·)
        let blank := isBlank c
        blockFrom? literal indent fuel
          ⟨b.join literal m.breaks blank ++ line, firstBreak after, blank⟩
          (← margin? indent (skipBreak after))
      else some (b, m)

/-- Reads a block behind its indicator: its text and what follows. `parent` is the
column, plus one, to which the part around the block is indented. -/
def block? (literal : Bool) (parent : Nat) (cs : List Char) : Option (List Char × List Char) := do
  let (header, cs) := blockHeader cs
  let cs := skipComment (cs.dropWhile isBlank)
  if header.increment = some 0 || !cs.head?.all isBreak then none
  else
    -- an indentation that is given counts from the part around the block
    let given := header.increment.map fun n => (parent - 1) + n
    let m ← margin? (given.getD 0) (skipBreak cs)
    -- else the lines up to the first text tell it, but it is at least one column
    let indent := given.getD (max m.widest (max parent 1))
    let (b, m) ← blockFrom? literal indent (cs.length + 1) ⟨[], [], false⟩ m
    let ending := match header.chomping with
      | .strip => []
      | .clip => b.lastBreak
      | .keep => b.lastBreak ++ m.breaks
    return (b.text ++ ending, m.rest)

end Syndication.Yaml
