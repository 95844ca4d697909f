import Syndication.Text.LowerCase
import Syndication.Text.Search
import Syndication.Toml.Table

/-!
# Layers of settings

Settings come in layers: a file, and the environment over it. A layer is put over
another one key by key, and the case of letters in a key makes no difference.

Main statements:

* `find?_put_self`: a scalar that is put under a key is found there.
* `ofTable`, `withVariables`: the layer of a file, and that of the environment over
  another one.
-/

namespace Syndication

/-- What is said about a setting. -/
inductive Setting where
  /-- A truth value. -/
  | bool (value : Bool)
  | integer (value : Int)
  /-- A number with a fraction or an exponent. -/
  | float (value : Extended)
  | text (value : String)
  | list (items : List Setting)
  /-- Settings under keys. -/
  | group (entries : List (String × Setting))
deriving Repr

namespace Setting

/-- Nothing is said. -/
def nothing : Setting := .group []

/-- The entries of a group. -/
def entries : Setting → List (String × Setting)
  | .group es => es
  | _ => []

/-- What is said under a key. -/
def find? (s : Setting) (key : String) : Option Setting :=
  KeyMap.find? key s.entries

mutual

/-- A setting put over what was said before. -/
def overlay (old : Setting) : Setting → Setting
  | .group es => overlayAll old es
  | .bool b => .bool b
  | .integer i => .integer i
  | .float x => .float x
  | .text s => .text s
  | .list items => .list items

/-- Entries put over what was said before. What is no group gives way to one. -/
def overlayAll (old : Setting) : List (String × Setting) → Setting
  | [] => old
  | (key, value) :: rest =>
    let key := Text.toLower key
    let inner := (old.find? key).getD nothing
    overlayAll (.group (KeyMap.insert key (overlay inner value) old.entries)) rest

end

/-- A setting put over what was said before under a path of keys. -/
def put (value : Setting) : List String → Setting → Setting
  | [], old => overlay old value
  | key :: rest, old =>
    let key := Text.toLower key
    let inner := (old.find? key).getD nothing
    .group (KeyMap.insert key (put value rest inner) old.entries)

/-- Whether a setting is not a group. -/
def isScalar : Setting → Bool
  | .group _ => false
  | _ => true

/-- What is no group replaces what was said before. -/
theorem overlay_of_isScalar {value : Setting} (h : value.isScalar = true) (old : Setting) :
    overlay old value = value := by
  cases value <;> simp_all [overlay, isScalar]

/-- A scalar that is put under a key is found there. -/
theorem find?_put_self {value : Setting} (h : value.isScalar = true) (key : String)
    (old : Setting) : (put value [key] old).find? (Text.toLower key) = some value := by
  simp [put, find?, entries, overlay_of_isScalar h]

/-! ### Keys -/

/-- Whether a character may stand in a part of a path of keys. -/
def isKeyChar (c : Char) : Bool :=
  c.isAlphanum || c == '_' || c == '-' || c == ' '

/-- The path that a key at the outermost level names: its parts between points, or
the whole key if it is no path. -/
def keyPath (key : String) : List String :=
  let parts := Chars.splitOn '.' key.toList
  if parts.all fun part => !part.isEmpty && part.all isKeyChar then parts.map String.ofList
  else [key]

/-! ### Files -/

mutual

/-- What a value of a file says. -/
def ofValue : Toml.Value → Setting
  | .text s => .text s
  | .integer i => .integer i
  | .float x => .float x
  | .bool b => .bool b
  | .moment s => .text s
  | .array items => .list (ofItems items)
  | .table _ es => .group (ofEntries es)
  | .tables items => .list (ofItems items).reverse

/-- What the items of an array say. -/
def ofItems : List Toml.Value → List Setting
  | [] => []
  | v :: rest => ofValue v :: ofItems rest

/-- What the entries of a table say. -/
def ofEntries : List (String × Toml.Value) → List (String × Setting)
  | [] => []
  | (key, v) :: rest => (key, ofValue v) :: ofEntries rest

end

/-- What the outermost table of a file says. -/
def ofTable (table : List (String × Toml.Value)) : Setting :=
  (ofEntries table).foldl (fun s (key, value) => put value (keyPath key) s) nothing

/-! ### The environment -/

/-- What a text of the environment says: a truth value, an integer or a number if it
is spelled like one. -/
def ofText (raw : String) : Setting :=
  let small := Text.toLower raw
  if small == "true" then .bool true
  else if small == "false" then .bool false
  else match Decimal.int64? raw.toList with
    | some i => .integer i
    | none =>
      match Extended.read? raw.toList with
      | some x => .float x
      | none => .text raw

/-- The path of keys that a variable of the environment names: its parts between
double underscores behind a given beginning. -/
def variablePath? (beginning name : String) : Option (List String) :=
  (Chars.stripPrefix? beginning.toList (Text.toLower name).toList).map fun key =>
    keyPath (Text.replaceAll "__" "." (String.ofList key))

/-- What was said before with the variables of the environment put over it. -/
def withVariables (beginning : String) (s : Setting) (environment : List (String × String)) :
    Setting :=
  environment.foldl (fun s (name, raw) =>
    match variablePath? beginning name with
    | some path => put (ofText raw) path s
    | none => s) s

section Variables

variable {beginning name raw : String} {s : Setting} {rest : List (String × String)}

theorem withVariables_cons_of_some {path : List String}
    (h : variablePath? beginning name = some path) :
    withVariables beginning s ((name, raw) :: rest) =
      withVariables beginning (put (ofText raw) path s) rest := by
  simp only [withVariables, List.foldl_cons, h]

/-- A variable whose name begins otherwise says nothing. -/
theorem withVariables_cons_of_none (h : variablePath? beginning name = none) :
    withVariables beginning s ((name, raw) :: rest) = withVariables beginning s rest := by
  simp only [withVariables, List.foldl_cons, h]

end Variables

/-! ### Reading values -/

/-- The truth value that a word stands for. -/
def switch? (word : String) : Option Bool :=
  let word := Text.toLower word
  if ["true", "on", "yes"].contains word then some true
  else if ["false", "off", "no"].contains word then some false
  else none

/-- The truth value of a setting. -/
def bool? : Setting → Option Bool
  | .bool b => some b
  | .integer i => some (i != 0)
  | .float x => some !x.isZero
  | .text s => if s == "1" then some true else if s == "0" then some false else switch? s
  | .list _ | .group _ => none

/-- The natural number of a setting, up to a bound. -/
def nat? (greatest : Nat) (s : Setting) : Option Nat :=
  let found : Option Nat := match s with
    | .bool b => some b.toNat
    | .integer i => if 0 ≤ i then some i.toNat else none
    | .float x => some (x.toNat Decimal.greatestNat64)
    | .text s =>
      match switch? s with
      | some b => some b.toNat
      | none =>
        match s.toList with
        | '+' :: digits => Decimal.natOfDigits? digits
        | digits => Decimal.natOfDigits? digits
    | .list _ | .group _ => none
  found.filter (· ≤ greatest)

/-- The text of a setting. -/
def text? : Setting → Option String
  | .bool b => some (if b then "true" else "false")
  | .integer i => some (toString i)
  | .float x => some x.text
  | .text s => some s
  | .list _ | .group _ => none

/-- The settings of a record with given keys: under their keys, or in their order.
What is said beyond the last key is left out. -/
def record? (layout : List String) : Setting → Option (List (String × Setting))
  | .group es => some es
  | .list items => some (layout.zip items)
  | _ => none

/-- A setting of a record that may be missing. -/
def withDefault? {α : Type} (r : List (String × Setting)) (name : String) (missing : α)
    (read : Setting → Option α) : Option α :=
  match KeyMap.find? name r with
  | some s => read s
  | none => some missing

end Setting

end Syndication
