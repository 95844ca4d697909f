import Syndication.Toml.Statement

/-!
# Documents in TOML

The statements of a text build one table. An entry belongs to the table of the last
header in front of it, or to the outermost table if there is none.

Main statements:

* `table?`: the table that a text writes.
-/

namespace Syndication.Toml

/-- A table under construction, and the key of the table to which the next entry
belongs. -/
structure Draft where
  /-- The entries of the outermost table. -/
  entries : List (String × Value)
  /-- The key of the last header. -/
  current : List String

namespace Draft

/-- The draft after one more statement. -/
def add? (d : Draft) : Statement → Option Draft
  | .pair path key value =>
    (alter? false (fun _ es => addPair? path key value es) d.current .header d.entries).map
      fun es => { d with entries := es }
  | .header path key => (addHeader? path key d.entries).map fun es => ⟨es, path ++ [key]⟩
  | .item path key => (addItem? path key d.entries).map fun es => ⟨es, path ++ [key]⟩

end Draft

/-- **The table that a text writes.** -/
def table? (text : String) : Option (List (String × Value)) := do
  let statements ← statements? text
  let draft ← statements.foldlM Draft.add? ⟨[], []⟩
  return draft.entries

end Syndication.Toml
