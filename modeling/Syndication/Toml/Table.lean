import Syndication.Decimal.Extended
import Syndication.KeyMap

/-!
# Tables

A value in TOML is a scalar, an array or a table. A table is given a header or
braces of its own, or it arises on the way to another one; how it came to be tells
how it may grow. A table in braces is closed, a table with a header may not be
given another one, and a table that arose through a dotted key may only be added to
through dotted keys and by headers of tables inside of it.

Main statements:

* `addPair?`: a table with one more entry under a dotted key.
* `addHeader?`, `addItem?`: a table with one more table, or one more item of an
  array of tables.
-/

namespace Syndication.Toml

/-- How a table came to be. -/
inductive Origin where
  /-- It is written in braces. -/
  | braces
  | header
  /-- A header of a table inside of it named it. -/
  | passedByHeader
  /-- A dotted key of an entry inside of it named it. -/
  | passedByKey
deriving DecidableEq, Repr

/-- A value. -/
inductive Value where
  | text (value : String)
  | integer (value : Int)
  /-- A number with a fraction or an exponent. -/
  | float (value : Extended)
  /-- A truth value. -/
  | bool (value : Bool)
  /-- A date, a time of day or both, by its text. -/
  | moment (text : String)
  /-- An array in brackets. -/
  | array (items : List Value)
  | table (origin : Origin) (entries : List (String × Value))
  /-- An array of tables with headers, the last one first. -/
  | tables (items : List Value)
deriving Repr

/-- Whether a key may pass through a table: a dotted key only through one that has
neither braces nor a header, a header through one without braces. -/
def Origin.letsPass (dotted : Bool) : Origin → Bool
  | .braces => false
  | .header => !dotted
  | .passedByHeader | .passedByKey => true

/-- How a table on the way of a key comes to be. -/
def Origin.onTheWay (dotted : Bool) : Origin :=
  if dotted then .passedByKey else .passedByHeader

/-- **Changes the table to which a key leads** from a table of some origin. Tables
on the way that are not there are made; the way through an array of tables goes
through its last one. -/
def alter? (dotted : Bool)
    (change : Origin → List (String × Value) → Option (List (String × Value))) :
    List String → Origin → List (String × Value) → Option (List (String × Value))
  | [], origin, entries => change origin entries
  | key :: rest, _, entries =>
    match KeyMap.find? key entries with
    | none =>
      let origin := Origin.onTheWay dotted
      (alter? dotted change rest origin []).map fun es =>
        KeyMap.insert key (.table origin es) entries
    | some (.table origin inner) =>
      if origin.letsPass dotted then
        (alter? dotted change rest origin inner).map fun es =>
          KeyMap.insert key (.table origin es) entries
      else none
    -- the last item stands first
    | some (.tables (.table origin inner :: earlier)) =>
      (alter? dotted change rest origin inner).map fun es =>
        KeyMap.insert key (.tables (.table origin es :: earlier)) entries
    | some _ => none

/-- The entries with one more, unless the key is taken. -/
def addNew? (key : String) (value : Value) (entries : List (String × Value)) :
    Option (List (String × Value)) :=
  if (KeyMap.find? key entries).isSome then none else some (KeyMap.insert key value entries)

/-- **A table with one more entry** under a dotted key: `path` is the key without
its last part. A table that a path leads to must have arisen through a dotted key. -/
def addPair? (path : List String) (key : String) (value : Value)
    (entries : List (String × Value)) : Option (List (String × Value)) :=
  alter? true
    (fun origin es =>
      if path.isEmpty || origin == .passedByKey then addNew? key value es else none)
    path .header entries

/-- **A table with one more table inside**, which has a header. A table that a
header has passed may be given its own. -/
def addHeader? (path : List String) (key : String) (entries : List (String × Value)) :
    Option (List (String × Value)) :=
  alter? false
    (fun _ es =>
      match KeyMap.find? key es with
      | none => some (KeyMap.insert key (.table .header []) es)
      -- a header of a table inside came before its own
      | some (.table .passedByHeader inner) =>
        some (KeyMap.insert key (.table .header inner) es)
      | some _ => none)
    path .header entries

/-- **A table with one more item** of an array of tables inside. -/
def addItem? (path : List String) (key : String) (entries : List (String × Value)) :
    Option (List (String × Value)) :=
  alter? false
    (fun _ es =>
      match KeyMap.find? key es with
      | none => some (KeyMap.insert key (.tables [.table .header []]) es)
      | some (.tables items) => some (KeyMap.insert key (.tables (.table .header [] :: items)) es)
      | some _ => none)
    path .header entries

end Syndication.Toml
