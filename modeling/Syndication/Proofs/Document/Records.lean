import Mathlib.Data.List.Nodup
import Syndication.Document.Basic
import Syndication.Proofs.Definition.KeyOrder

/-!
# Records that are read back

A record that is written as an object has every field once and under its own name. When the object
is read as a document, each field is found under that name, in whatever order the fields are
listed. What is found there is read back when it is a text, a list, a map or an absent value of
something that is read back.

* `record?_ofJson`: the fields of an object are the parts of its record.
* `toJson?_ofJson`: a value whose objects are in the order of their keys is read back.
* `optional?_ofJson`, `list?_ofJson`, `map?_ofJson`: absent values, lists and maps are read back.
-/

namespace Syndication

variable {α : Type}

/-! ### Maps in the order of their keys -/

namespace KeyMap

/-- An entry whose key is behind all others is put at the end. -/
theorem insert_of_forall_lt {key : String} (value : α) {m : KeyMap α} (h : ∀ e ∈ m, e.1 < key) :
    insert key value m = m ++ [(key, value)] := by
  induction m with
  | nil => rfl
  | cons e m ih =>
    obtain ⟨hlt, hrest⟩ := List.forall_mem_cons.1 h
    have hne : e.1 ≠ key := by
      rintro rfl
      exact String.lt_irrefl _ hlt
    rw [insert, if_neg hne, if_neg (String.lt_asymm hlt), ih hrest]
    rfl

/-- **A map in the order of its keys is the map of its entries.** -/
theorem ofEntries_eq_self {m : KeyMap α} (h : m.Sorted) : ofEntries m = m := by
  -- what is in the map already stands before all that is still to be put in
  have hfold (front : KeyMap α) (hsorted : Sorted (front ++ m)) :
      m.foldl (fun m e => insert e.1 e.2 m) front = front ++ m := by
    clear h
    induction m generalizing front with
    | nil => exact (List.append_nil front).symm
    | cons e m ih =>
      have hbehind : ∀ e' ∈ front, e'.1 < e.1 := fun e' he' =>
        (List.pairwise_append.1 hsorted).2.2 e' he' e List.mem_cons_self
      rw [List.foldl_cons, insert_of_forall_lt e.2 hbehind]
      rw [← List.singleton_append, ← List.append_assoc] at hsorted
      rw [ih _ hsorted, List.append_assoc]
      rfl
  exact hfold [] h

/-- Entries whose keys are distinct all stand in the map. -/
theorem mem_ofEntries_of_nodup {entries : List (String × α)} (h : (entries.map (·.1)).Nodup)
    {e : String × α} (he : e ∈ entries) : e ∈ ofEntries entries := by
  have hkey : e.1 ∈ (ofEntries entries).keys := mem_keys_ofEntries.2 (List.mem_map_of_mem he)
  obtain ⟨e', he', hkey'⟩ := List.mem_map.1 hkey
  obtain rfl : e' = e := List.inj_on_of_nodup_map h (mem_ofEntries he') he hkey'
  exact he'

theorem nodup_keys_of_sorted {m : KeyMap α} (h : m.Sorted) : (m.map (·.1)).Nodup :=
  List.pairwise_map.2 (h.imp String.ne_of_lt)

end KeyMap

/-! ### Values -/

/-- **Every object of a value is in the order of its keys.** -/
inductive Json.InKeyOrder : Json → Prop
  | null : InKeyOrder .null
  | bool (b : Bool) : InKeyOrder (.bool b)
  | number (n : Json.Number) : InKeyOrder (.number n)
  | string (s : String) : InKeyOrder (.string s)
  | array {items : List Json} (h : ∀ v ∈ items, InKeyOrder v) : InKeyOrder (.array items)
  | object {members : KeyMap Json} (hsorted : members.Sorted)
      (h : ∀ m ∈ members, InKeyOrder m.2) : InKeyOrder (.object members)

namespace Document

theorem itemsToJson?_ofItems {items : List Json} (h : ∀ v ∈ items, toJson? (ofJson v) = some v) :
    itemsToJson? (ofItems items) = some items := by
  induction items with
  | nil => rfl
  | cons v items ih =>
    obtain ⟨hv, hitems⟩ := List.forall_mem_cons.1 h
    rw [ofItems, itemsToJson?, hv, ih hitems]
    rfl

theorem entriesToJson?_ofMembers {members : List (String × Json)} (found : KeyMap Json)
    (h : ∀ m ∈ members, toJson? (ofJson m.2) = some m.2) :
    entriesToJson? found (ofMembers members) =
      some (members.foldl (fun m e => KeyMap.insert e.1 e.2 m) found) := by
  induction members generalizing found with
  | nil => rfl
  | cons m members ih =>
    obtain ⟨hm, hmembers⟩ := List.forall_mem_cons.1 h
    rw [ofMembers, entriesToJson?, hm, List.foldl_cons, ← ih _ hmembers]
    rfl

/-- **A value whose objects are in the order of their keys is read back.** -/
theorem toJson?_ofJson {v : Json} (h : v.InKeyOrder) : toJson? (ofJson v) = some v := by
  induction h with
  | null => rfl
  | bool b => rfl
  | number n => rfl
  | string s => rfl
  | array h ih => rw [ofJson, toJson?, itemsToJson?_ofItems ih, Option.map_some]
  | object hsorted h ih =>
    rw [ofJson, toJson?, entriesToJson?_ofMembers [] ih, Option.map_some]
    exact congrArg (fun m => some (Json.object m)) (KeyMap.ofEntries_eq_self hsorted)

/-! ### Fields of a record -/

variable {layout : List FieldName}

theorem gather?_ofMembers {members : List (String × Json)} (found : Record)
    (hnames : ∀ m ∈ members, fieldOf? layout m.1 = some m.1) (hnodup : (members.map (·.1)).Nodup)
    (hfresh : ∀ m ∈ members, found.any (·.1 == m.1) = false) :
    ∃ r, gather? layout found (ofMembers members) = some r ∧
      (∀ m ∈ members, r.lookup m.1 = some (ofJson m.2)) ∧
      ∀ name, name ∉ members.map (·.1) → r.lookup name = found.lookup name := by
  induction members generalizing found with
  | nil => exact ⟨found, rfl, List.forall_mem_nil _, fun _ _ => rfl⟩
  | cons m members ih =>
    obtain ⟨key, v⟩ := m
    obtain ⟨hname, hnames⟩ := List.forall_mem_cons.1 hnames
    obtain ⟨hnew, hfresh⟩ := List.forall_mem_cons.1 hfresh
    rw [List.map_cons, List.nodup_cons] at hnodup
    obtain ⟨hnot, hnodup⟩ := hnodup
    -- the other names are not among the fields that are found, nor are they this one
    have hfresh' : ∀ m ∈ members, ((key, ofJson v) :: found).any (·.1 == m.1) = false := by
      intro m hm
      have hmem : m.1 ∈ members.map (·.1) := List.mem_map_of_mem hm
      have hne : (key == m.1) = false :=
        beq_eq_false_iff_ne.2 fun heq => hnot (heq ▸ hmem)
      rw [List.any_cons, hne, hfresh m hm, Bool.false_or]
    obtain ⟨r, hr, hmembers, hothers⟩ := ih _ hnames hnodup hfresh'
    refine ⟨r, ?_, List.forall_mem_cons.2 ⟨?_, hmembers⟩, ?_⟩
    · rw [ofMembers, gather?, string?, Option.bind_eq_bind, Option.bind_some, hname]
      dsimp only
      rw [hnew]
      exact hr
    · rw [hothers key hnot]
      simp
    · intro name hnotMem
      rw [List.map_cons, List.mem_cons, not_or] at hnotMem
      rw [hothers name hnotMem.2, List.lookup_cons, beq_eq_false_iff_ne.2 hnotMem.1]

/-- **The fields of an object are the parts of its record**, when all are written under their own
names and none twice. -/
theorem record?_ofJson {members : List (String × Json)}
    (hnames : ∀ m ∈ members, fieldOf? layout m.1 = some m.1)
    (hnodup : (members.map (·.1)).Nodup) :
    ∃ r, record? layout (ofJson (.object members)) = some r ∧
      ∀ m ∈ members, r.lookup m.1 = some (ofJson m.2) := by
  obtain ⟨r, hr, hmembers, -⟩ :=
    gather?_ofMembers [] hnames hnodup fun _ _ => rfl
  exact ⟨r, hr, hmembers⟩

/-- A field that is there has the value that its part is read as. -/
theorem Record.withDefault?_bind {β : Type} {r : Record} {name : String} {d : Document}
    {missing a : α} {read : Document → Option α} {rest : α → Option β} (h : r.lookup name = some d)
    (hread : read d = some a) : (r.withDefault? name missing read >>= rest) = rest a := by
  have hvalue : r.withDefault? name missing read = some a := by
    rw [withDefault?, h]
    exact hread
  rw [hvalue]
  rfl

/-! ### Values of a field -/

variable {read : Document → Option α} {write : α → Json}

@[simp] theorem string?_ofJson (s : String) : string? (ofJson (.string s)) = some s := rfl

/-- A value that is there is read back, unless it is written as an absent one. -/
theorem optional?_ofJson {v : Json} (hv : v ≠ .null) :
    optional? read (ofJson v) = (read (ofJson v)).map some := by
  cases v with
  | null => exact absurd rfl hv
  | bool b => rfl
  | number n => rfl
  | string s => rfl
  | array items => rfl
  | object members => rfl

theorem optional?_ofOption (s : Option String) :
    optional? string? (ofJson (Json.ofOption s)) = some s := by
  cases s with
  | none => rfl
  | some s => rfl

theorem ofItems_eq_map (items : List Json) : ofItems items = items.map ofJson := by
  induction items with
  | nil => rfl
  | cons v items ih => rw [ofItems, ih, List.map_cons]

theorem ofMembers_eq_map (members : List (String × Json)) :
    ofMembers members = members.map fun m => (.text m.1, ofJson m.2) := by
  induction members with
  | nil => rfl
  | cons m members ih => rw [ofMembers, ih, List.map_cons]

theorem mapM_map_of_forall {β : Type} {f : β → Option α} {g : α → β} {xs : List α}
    (h : ∀ x ∈ xs, f (g x) = some x) : (xs.map g).mapM f = some xs := by
  induction xs with
  | nil => rfl
  | cons x xs ih =>
    obtain ⟨hx, hxs⟩ := List.forall_mem_cons.1 h
    rw [List.map_cons, List.mapM_cons, hx, ih hxs]
    rfl

/-- A list of what is read back is read back. -/
theorem list?_ofJson {xs : List α} (h : ∀ x ∈ xs, read (ofJson (write x)) = some x) :
    list? read (ofJson (.array (xs.map write))) = some xs := by
  rw [ofJson, ofItems_eq_map, List.map_map]
  exact mapM_map_of_forall h

/-- An entry of a map, with its key as a text. -/
def pair? (read : Document → Option α) (e : Document × Document) : Option (String × α) := do
  let k ← e.1.string?
  let v ← read e.2
  return (k, v)

theorem map?_map (read : Document → Option α) (entries : List (Document × Document)) :
    map? read (.map entries) = (entries.mapM (pair? read)).map KeyMap.ofEntries := by
  show (List.mapM (pair? read) entries >>= fun pairs => some (KeyMap.ofEntries pairs)) = _
  cases entries.mapM (pair? read) with
  | none => rfl
  | some pairs => rfl

theorem pair?_ofJson (key : String) {v : Json} {a : α} (h : read (ofJson v) = some a) :
    pair? read (.text key, ofJson v) = some (key, a) := by
  show (read (ofJson v)).bind _ = _
  rw [h]
  rfl

/-- A map to what is read back is read back, its entries being in the order of their keys. -/
theorem map?_ofJson {m : KeyMap α} (hsorted : m.Sorted)
    (h : ∀ e ∈ m, read (ofJson (write e.2)) = some e.2) :
    map? read (ofJson (.object (m.mapValues write))) = some m := by
  have hentries : (m.map fun e => (Document.text e.1, ofJson (write e.2))).mapM (pair? read) =
      some m :=
    mapM_map_of_forall fun e he => pair?_ofJson e.1 (h e he)
  rw [ofJson, ofMembers_eq_map, KeyMap.mapValues, List.map_map, map?_map, Function.comp_def,
    hentries, Option.map_some, KeyMap.ofEntries_eq_self hsorted]

theorem list?_ofStrings (ss : List String) :
    list? string? (ofJson (Json.ofStrings ss)) = some ss :=
  list?_ofJson fun _ _ => rfl

theorem map?_toJson {m : KeyMap String} (h : m.Sorted) :
    map? string? (ofJson m.toJson) = some m :=
  map?_ofJson h fun _ _ => rfl

theorem nat?_ofNat {greatest n : Nat} (h : n ≤ greatest) :
    nat? greatest (ofJson (Json.ofNat n)) = some n := by
  have hwithin : 0 ≤ (n : Int) ∧ (n : Int) ≤ greatest := by omega
  exact if_pos hwithin

end Document

end Syndication
