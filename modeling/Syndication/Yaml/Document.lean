import Syndication.Document.Basic
import Syndication.Text.Search
import Syndication.Yaml.Layout
import Syndication.Yaml.Node

/-!
# Documents in YAML

A YAML text says what a document says in any format, with parts that are written
once and referred to by name. A reference stands for the part that has the name at
that point; a part that refers to itself, or that is nested too deeply, can be
read as no value.

Main statement:

* `document?`: the document that a text writes.
-/

namespace Syndication.Yaml

/-- The parts with names, as far as a document has been read. -/
structure Names where
  /-- The number of the part that a name stands for. -/
  numbers : List (String × Nat)
  /-- The parts by number, the latest first. -/
  parts : List (Nat × Document)

namespace Names

/-- No part has a name. -/
def empty : Names := ⟨[], []⟩

/-- The number that the next part with a name gets. -/
def next (n : Names) : Nat :=
  n.numbers.length

/-- The names with one more, or with one that stands for another part. -/
def declare (n : Names) (anchor : Option String) : Names :=
  match anchor with
  | none => n
  | some name =>
    { numbers := (name, n.next) :: n.numbers.filter (·.1 != name)
      parts := (n.next, .unreadable) :: n.parts }

/-- The names with the part of a number. -/
def define (n : Names) (anchor : Option String) (number : Nat) (d : Document) : Names :=
  if anchor.isNone then n else { n with parts := (number, d) :: n.parts }

/-- The part that a name stands for. -/
def find? (n : Names) (name : String) : Option Document :=
  (n.numbers.lookup name).bind fun number => n.parts.lookup number

end Names

/-- What the name of a type says. -/
def tagOf (name : String) : Document.Tag :=
  match name with
  | "tag:yaml.org,2002:null" => .null
  | "tag:yaml.org,2002:bool" => .bool
  | "tag:yaml.org,2002:int" => .integer
  | "tag:yaml.org,2002:float" => .float
  | name => if Text.startsWith "!" name then .foreign else .plainText

/-- A part with its type, if that is said. -/
def withTag (tag : Option String) (d : Document) : Document :=
  match tag with
  | some name => .tagged (tagOf name) d
  | none => d

/-- How deeply lists and maps may be nested. -/
def maxDepth : Nat := 128

/-- A list or a map unless it is nested too deeply. -/
def nested (depth : Nat) (d : Document) : Document :=
  if depth < maxDepth then d else .unreadable

mutual

/-- The document of a node inside of `depth` others, and the names after it. -/
def ofNode? (depth : Nat) (names : Names) : Node → Option (Document × Names)
  | .alias name => (names.find? name).map (·, names)
  | .scalar p style text =>
    let d := withTag p.tag (match style with
      | .plain => .plain text
      | .quoted => .text text)
    some (d, (names.declare p.anchor).define p.anchor names.next d)
  | .list p items => do
    let (items, after) ← ofNodes? (depth + 1) (names.declare p.anchor) items
    let d := withTag p.tag (nested depth (.sequence items))
    return (d, after.define p.anchor names.next d)
  | .map p entries => do
    let (entries, after) ← ofEntries? (depth + 1) (names.declare p.anchor) entries
    let d := withTag p.tag (nested depth (.map entries))
    return (d, after.define p.anchor names.next d)

/-- The documents of the items of a list, and the names after them. -/
def ofNodes? (depth : Nat) (names : Names) : List Node → Option (List Document × Names)
  | [] => some ([], names)
  | n :: rest => do
    let (d, names) ← ofNode? depth names n
    let (ds, names) ← ofNodes? depth names rest
    return (d :: ds, names)

/-- The documents of the entries of a map, and the names after them. -/
def ofEntries? (depth : Nat) (names : Names) :
    List (Node × Node) → Option (List (Document × Document) × Names)
  | [] => some ([], names)
  | (k, v) :: rest => do
    let (k, names) ← ofNode? depth names k
    let (v, names) ← ofNode? depth names v
    let (entries, names) ← ofEntries? depth names rest
    return ((k, v) :: entries, names)

end

/-- **The document that a text writes.** -/
def document? (text : String) : Option Document := do
  let root ← Node.root? (← tokens? text.toList)
  return (← ofNode? 0 .empty root).1

end Syndication.Yaml
