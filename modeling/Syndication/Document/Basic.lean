import Syndication.Document.Plain

/-!
# Documents as written

A document is what a text in one of the document formats says before it is known
which values are wanted: members in the order in which they are written, with
keys that may be repeated, and scalars without quotes whose type is still open.
A part that is well formed but that no value can hold, such as half of a
surrogate pair or a number that is too large, is `unreadable`; it does no harm
where it is ignored.

Reading a typed value out of a document goes through a `Record`: the parts of
the document under the names of the fields of that type.
-/

namespace Syndication

/-- What a document says about the type of a part of it. -/
inductive Document.Tag where
  | null
  /-- It is a truth value. -/
  | bool
  | integer
  /-- It is a number. -/
  | float
  /-- It is of another type that says nothing about a scalar but that it is a
  text. -/
  | plainText
  /-- It is of a type that only the writer knows. -/
  | foreign
deriving DecidableEq, Repr

/-- A document as it is written. -/
inductive Document where
  /-- The null value. -/
  | null
  /-- A truth value. -/
  | bool (value : Bool)
  | number (value : Json.Number)
  | text (value : String)
  /-- A scalar without quotes, of open type. -/
  | plain (raw : String)
  /-- A list, which may also stand for the fields of a record in their order. -/
  | list (items : List Document)
  /-- A list that stands for nothing else. -/
  | sequence (items : List Document)
  /-- Members, in the order in which they are written. -/
  | map (entries : List (Document × Document))
  /-- A part that is said to be of a type. -/
  | tagged (tag : Document.Tag) (part : Document)
  /-- A part that no value can hold. -/
  | unreadable
deriving Repr

namespace Document

instance : Inhabited Document := ⟨.null⟩

mutual

/-- The document that a JSON value is. -/
def ofJson : Json → Document
  | .null => .null
  | .bool b => .bool b
  | .number n => .number n
  | .string s => .text s
  | .array items => .list (ofItems items)
  | .object members => .map (ofMembers members)

/-- The documents that JSON values are. -/
def ofItems : List Json → List Document
  | [] => []
  | v :: rest => ofJson v :: ofItems rest

/-- The entries that the members of an object are. -/
def ofMembers : List (String × Json) → List (Document × Document)
  | [] => []
  | (k, v) :: rest => (.text k, ofJson v) :: ofMembers rest

end

/-- The text of a scalar where a text is wanted. -/
def string? : Document → Option String
  | .text s => some s
  | .plain raw => some raw
  | .tagged _ d => d.string?
  | _ => none

/-- The value of a scalar that is said to be of a type. -/
def taggedValue? (tag : Tag) (raw : String) : Option Json :=
  match tag with
  | .null => if raw != "" && Plain.isNull raw then some .null else none
  | .bool => (Plain.bool? raw).map .bool
  | .integer => (Plain.integer? raw).map Json.ofInt
  | .float =>
    (Plain.float? raw).map fun
      | .finite x => .number (.double x)
      | .special => .null
  | .plainText => some (.string raw)
  | .foreign => none

mutual

/-- The value of a document where any value is wanted; of members with the same
key the last counts. -/
def toJson? : Document → Option Json
  | .null => some .null
  | .bool b => some (.bool b)
  | .number n => some (.number n)
  | .text s => some (.string s)
  | .plain raw => Plain.value? raw
  | .tagged .foreign _ => none
  | .tagged tag (.plain raw) | .tagged tag (.text raw) => taggedValue? tag raw
  | .tagged _ d => toJson? d
  | .list items | .sequence items => (itemsToJson? items).map .array
  | .map entries => (entriesToJson? [] entries).map .object
  | .unreadable => none

/-- The values of the items of a list. -/
def itemsToJson? : List Document → Option (List Json)
  | [] => some []
  | d :: rest => do
    let v ← toJson? d
    let vs ← itemsToJson? rest
    return v :: vs

/-- The members that the entries of a document add to given ones. -/
def entriesToJson? (members : KeyMap Json) : List (Document × Document) → Option (KeyMap Json)
  | [] => some members
  | (key, d) :: rest => do
    let k ← key.string?
    let v ← toJson? d
    entriesToJson? (KeyMap.insert k v members) rest

end

/-! ### Reading typed values -/

/-- Whether a document stands for an absent value where one may be absent. -/
def isAbsent : Document → Bool
  | .null => true
  | .plain raw => Plain.isNull raw
  | .tagged .null (.plain raw) => raw != "" && Plain.isNull raw
  | _ => false

/-- Whether a document is said to be null but is spelled otherwise. -/
def isFalseNull : Document → Bool
  | .tagged .null (.plain raw) => raw == "" || !Plain.isNull raw
  | _ => false

/-- A value that may be absent. -/
def optional? {α : Type} (read : Document → Option α) (d : Document) : Option (Option α) :=
  if d.isAbsent then some none else if d.isFalseNull then none else (read d).map some

/-- What is said about a part without its type. -/
def untagged : Document → Document
  | .tagged _ d => d.untagged
  | d => d

/-- The truth value of a scalar. -/
def bool? (d : Document) : Option Bool :=
  match d.untagged with
  | .bool b => some b
  | .plain raw => Plain.bool? raw
  | _ => none

/-- The natural number of a scalar, up to a bound. -/
def nat? (greatest : Nat) (d : Document) : Option Nat :=
  let within (i : Int) : Option Nat := if 0 ≤ i ∧ i ≤ greatest then some i.toNat else none
  match d.untagged with
  | .number (.integer i) => within i
  | .plain raw => (Plain.integer? raw).bind within
  | _ => none

/-- The items of a list; a scalar without any character is an empty list. -/
def list? {α : Type} (read : Document → Option α) (d : Document) : Option (List α) :=
  match d.untagged with
  | .list items | .sequence items => items.mapM read
  | .plain "" => some []
  | _ => none

/-- The entries of a map whose keys are texts, the last of those with the same
key. -/
def map? {α : Type} (read : Document → Option α) (d : Document) : Option (KeyMap α) :=
  match d.untagged with
  | .map entries => do
    let pairs ← entries.mapM fun (key, d) => do
      let k ← key.string?
      let v ← read d
      return (k, v)
    return KeyMap.ofEntries pairs
  | .plain "" => some []
  | _ => none

/-- The names of one field: the one that is written and the other ones that are
understood. -/
structure FieldName where
  /-- The name that is written. -/
  name : String
  /-- Other names that are understood. -/
  aliases : List String := []

/-- The parts of a document under the names of the fields of a type. -/
abbrev Record := List (String × Document)

/-- The field that a key names. -/
def fieldOf? (layout : List FieldName) (key : String) : Option String :=
  (layout.find? fun f => f.name == key || f.aliases.contains key).map (·.name)

/-- Adds the entries of a document to a record. Entries of no field are left out;
two entries of the same field are refused. -/
def gather? (layout : List FieldName) : Record → List (Document × Document) → Option Record
  | found, [] => some found
  | found, (key, d) :: rest => do
    let k ← key.string?
    match fieldOf? layout k with
    | none => gather? layout found rest
    | some name =>
      -- a field may be given under one of its names only
      if found.any (·.1 == name) then none else gather? layout ((name, d) :: found) rest

/-- **The record of a document.** The fields are named, or listed in the order of
the type; a list may end early but not go on beyond the last field. -/
def record? (layout : List FieldName) (d : Document) : Option Record :=
  match d.untagged with
  | .map entries => gather? layout [] entries
  | .list items =>
    if items.length ≤ layout.length then some ((layout.map (·.name)).zip items) else none
  | .plain "" => some []
  | _ => none

/-- The record of a document in which a list has to go on to the last field. -/
def fullRecord? (layout : List FieldName) (d : Document) : Option Record :=
  match d.untagged with
  | .list items => if items.length = layout.length then record? layout (.list items) else none
  | d => record? layout d

/-- A field that has to be there. -/
def Record.required? {α : Type} (r : Record) (name : String) (read : Document → Option α) :
    Option α :=
  (r.lookup name).bind read

/-- A field that may be missing. -/
def Record.withDefault? {α : Type} (r : Record) (name : String) (missing : α)
    (read : Document → Option α) : Option α :=
  match r.lookup name with
  | some d => read d
  | none => some missing

end Document

end Syndication
