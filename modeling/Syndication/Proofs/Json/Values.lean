import Syndication.Proofs.Document.Records
import Syndication.Proofs.Json.Doubles

/-!
# The values of JSON texts

A number that is read from a JSON text is an integer of 64 bits or a number of double precision, and
around a value stand no more lists and maps than `maxDepth`. Every value that a part of a text is
read as keeps to these bounds (`Json.Readable`), and its objects are in the order of their keys.

* `mapNumbers`, `numbers`: other numbers in place of those of a value, and what these are.
* `scanned_of_document?`: what a text is scanned as keeps to the bounds.
* `Document.Scanned.value`: so does the value of it.
-/

namespace Syndication

/-! ### The numbers of a value -/

namespace Json

mutual

/-- The value with other numbers in their places. -/
def mapNumbers (f : Number → Number) : Json → Json
  | .null => .null
  | .bool b => .bool b
  | .number n => .number (f n)
  | .string s => .string s
  | .array items => .array (mapItems f items)
  | .object members => .object (mapMembers f members)

/-- The items with other numbers in them. -/
def mapItems (f : Number → Number) : List Json → List Json
  | [] => []
  | v :: rest => mapNumbers f v :: mapItems f rest

/-- The members with other numbers in them. -/
def mapMembers (f : Number → Number) : List (String × Json) → List (String × Json)
  | [] => []
  | (k, v) :: rest => (k, mapNumbers f v) :: mapMembers f rest

end

mutual

/-- The numbers in a value. -/
def numbers : Json → List Number
  | .number n => [n]
  | .array items => itemNumbers items
  | .object members => memberNumbers members
  | .null | .bool _ | .string _ => []

/-- The numbers in items. -/
def itemNumbers : List Json → List Number
  | [] => []
  | v :: rest => numbers v ++ itemNumbers rest

/-- The numbers in members. -/
def memberNumbers : List (String × Json) → List Number
  | [] => []
  | (_, v) :: rest => numbers v ++ memberNumbers rest

end

variable {f : Number → Number}

theorem mapItems_eq_map (items : List Json) : mapItems f items = items.map (mapNumbers f) := by
  induction items with
  | nil => rfl
  | cons v items ih => rw [mapItems, ih, List.map_cons]

theorem mapMembers_eq_mapValues (members : List (String × Json)) :
    mapMembers f members = KeyMap.mapValues (mapNumbers f) members := by
  induction members with
  | nil => rfl
  | cons m members ih =>
    rw [mapMembers, ih]
    rfl

theorem itemNumbers_eq_flatMap (items : List Json) : itemNumbers items = items.flatMap numbers := by
  induction items with
  | nil => rfl
  | cons v items ih => rw [itemNumbers, ih, List.flatMap_cons]

theorem memberNumbers_eq_flatMap (members : List (String × Json)) :
    memberNumbers members = members.flatMap fun m => numbers m.2 := by
  induction members with
  | nil => rfl
  | cons m members ih => rw [memberNumbers, ih, List.flatMap_cons]

theorem map_eq_self_iff {α : Type} {g : α → α} {l : List α} :
    l.map g = l ↔ ∀ x ∈ l, g x = x :=
  calc l.map g = l
    _ ↔ l.map g = l.map id := by rw [List.map_id]
    _ ↔ ∀ x ∈ l, g x = x := List.map_inj_left

/-- **A value stays the same just when all its numbers do.** -/
theorem mapNumbers_eq_self_iff (v : Json) : v.mapNumbers f = v ↔ ∀ n ∈ v.numbers, f n = n := by
  induction v using nested_induction with
  | null => simp [mapNumbers, numbers]
  | bool b => simp [mapNumbers, numbers]
  | number n => simp [mapNumbers, numbers]
  | string s => simp [mapNumbers, numbers]
  | array items ih =>
    rw [mapNumbers, numbers, mapItems_eq_map, itemNumbers_eq_flatMap, Json.array.injEq,
      map_eq_self_iff]
    simp only [List.mem_flatMap]
    constructor
    · rintro hsame n ⟨v, hv, hn⟩
      exact (ih v hv).1 (hsame v hv) n hn
    · exact fun hall v hv => (ih v hv).2 fun n hn => hall n ⟨v, hv, hn⟩
  | object members ih =>
    rw [mapNumbers, numbers, mapMembers_eq_mapValues, memberNumbers_eq_flatMap, Json.object.injEq,
      KeyMap.mapValues, map_eq_self_iff]
    simp only [List.mem_flatMap, Prod.ext_iff, true_and]
    constructor
    · rintro hsame n ⟨m, hm, hn⟩
      exact (ih m hm).1 (hsame m hm) n hn
    · exact fun hall m hm => (ih m hm).2 fun n hn => hall n ⟨m, hm, hn⟩

theorem mapNumbers_ne_null {v : Json} (h : v ≠ .null) : v.mapNumbers f ≠ .null := by
  cases v with
  | null => exact absurd rfl h
  | bool b => exact nofun
  | number n => exact nofun
  | string s => exact nofun
  | array items => exact nofun
  | object members => exact nofun

/-- Objects stay in the order of their keys. -/
theorem InKeyOrder.mapNumbers {v : Json} (h : v.InKeyOrder) : (v.mapNumbers f).InKeyOrder := by
  induction h with
  | null => exact .null
  | bool b => exact .bool b
  | number n => exact .number _
  | string s => exact .string s
  | array h ih =>
    rw [Json.mapNumbers, mapItems_eq_map]
    refine .array fun v hv => ?_
    obtain ⟨w, hw, rfl⟩ := List.mem_map.1 hv
    exact ih w hw
  | object hsorted h ih =>
    rw [Json.mapNumbers, mapMembers_eq_mapValues]
    refine .object (KeyMap.sorted_mapValues _ hsorted) fun m hm => ?_
    obtain ⟨m', hm', rfl⟩ := List.mem_map.1 hm
    exact ih m' hm'

/-! ### Bounds -/

/-- The numbers that are read: integers of 64 bits, with a sign or without, and numbers of double
precision. -/
def Number.InRange : Number → Prop
  | .integer i => Decimal.leastInt64 ≤ i ∧ i ≤ Decimal.greatestNat64
  | .double x => x.Representable

/-- **A value that can be read inside of `depth` lists and maps.** -/
inductive Readable : Nat → Json → Prop
  | null {depth : Nat} : Readable depth .null
  | bool {depth : Nat} (b : Bool) : Readable depth (.bool b)
  | number {depth : Nat} {n : Number} (h : n.InRange) : Readable depth (.number n)
  | string {depth : Nat} (s : String) : Readable depth (.string s)
  | array {depth : Nat} {items : List Json} (hdepth : depth < maxDepth)
      (h : ∀ v ∈ items, Readable (depth + 1) v) : Readable depth (.array items)
  | object {depth : Nat} {members : List (String × Json)} (hdepth : depth < maxDepth)
      (h : ∀ m ∈ members, Readable (depth + 1) m.2) : Readable depth (.object members)

theorem inRange_ofNat {n : Nat} (h : n ≤ Decimal.greatestNat64) : (Number.integer n).InRange := by
  have hleast : Decimal.leastInt64 = -9223372036854775808 := rfl
  show Decimal.leastInt64 ≤ (n : Int) ∧ (n : Int) ≤ Decimal.greatestNat64
  omega

/-- The numbers of a value that can be read are in the bounds. -/
theorem Readable.inRange {v : Json} (h : v.Readable depth) : ∀ n ∈ v.numbers, n.InRange := by
  induction h with
  | null => exact List.forall_mem_nil _
  | bool b => exact List.forall_mem_nil _
  | number h => exact List.forall_mem_singleton.2 h
  | string s => exact List.forall_mem_nil _
  | array hdepth h ih =>
    intro n hn
    rw [numbers, itemNumbers_eq_flatMap] at hn
    obtain ⟨v, hv, hn⟩ := List.mem_flatMap.1 hn
    exact ih v hv n hn
  | object hdepth h ih =>
    intro n hn
    rw [numbers, memberNumbers_eq_flatMap] at hn
    obtain ⟨m, hm, hn⟩ := List.mem_flatMap.1 hn
    exact ih m hm n hn

theorem NumberText.inRange_of_number? {t : NumberText} {n : Number} (h : t.number? = some n) :
    n.InRange := by
  unfold NumberText.number? at h
  split at h
  · rename_i i hi
    rw [← Option.some.inj h]
    unfold NumberText.integer? at hi
    have hleast : Decimal.leastInt64 = -9223372036854775808 := rfl
    have hgreatest : Decimal.greatestNat64 = 18446744073709551615 := rfl
    show Decimal.leastInt64 ≤ i ∧ i ≤ Decimal.greatestNat64
    dsimp only at hi
    split_ifs at hi with hmarked hnegative hfits hfits
    · obtain rfl := Option.some.inj hi
      omega
    · obtain rfl := Option.some.inj hi
      omega
  · obtain ⟨x, hx, rfl⟩ := Option.map_eq_some_iff.1 h
    exact representable_of_double? hx

end Json

namespace Document

/-- **What is scanned inside of `depth` lists and maps.** -/
inductive Scanned : Nat → Document → Prop
  | null {depth : Nat} : Scanned depth .null
  | bool {depth : Nat} (b : Bool) : Scanned depth (.bool b)
  | number {depth : Nat} {n : Json.Number} (h : n.InRange) : Scanned depth (.number n)
  | text {depth : Nat} (s : String) : Scanned depth (.text s)
  | unreadable {depth : Nat} : Scanned depth .unreadable
  | list {depth : Nat} {items : List Document} (hdepth : depth < Json.maxDepth)
      (h : ∀ d ∈ items, Scanned (depth + 1) d) : Scanned depth (.list items)
  | map {depth : Nat} {entries : List (Document × Document)} (hdepth : depth < Json.maxDepth)
      (h : ∀ e ∈ entries, Scanned (depth + 1) e.2) : Scanned depth (.map entries)

variable {depth : Nat} {d : Document}

theorem exists_of_mem_itemsToJson? {items : List Document} {vs : List Json}
    (h : itemsToJson? items = some vs) : ∀ v ∈ vs, ∃ d ∈ items, toJson? d = some v := by
  induction items generalizing vs with
  | nil =>
    obtain rfl := Option.some.inj h
    exact List.forall_mem_nil _
  | cons d items ih =>
    obtain ⟨v, hv, h⟩ := Option.bind_eq_some_iff.1 h
    obtain ⟨rest, hrest, h⟩ := Option.bind_eq_some_iff.1 h
    obtain rfl := Option.some.inj h
    refine List.forall_mem_cons.2 ⟨⟨d, List.mem_cons_self, hv⟩, fun w hw => ?_⟩
    obtain ⟨d', hd', hread⟩ := ih hrest w hw
    exact ⟨d', List.mem_cons_of_mem _ hd', hread⟩

theorem exists_of_mem_entriesToJson? {entries : List (Document × Document)}
    {found members : KeyMap Json} (h : entriesToJson? found entries = some members)
    (hfound : found.Sorted) : members.Sorted ∧
      ∀ m ∈ members, m ∈ found ∨ ∃ e ∈ entries, toJson? e.2 = some m.2 := by
  induction entries generalizing found with
  | nil =>
    obtain rfl := Option.some.inj h
    exact ⟨hfound, fun m hm => .inl hm⟩
  | cons entry entries ih =>
    obtain ⟨key, hkey, h⟩ := Option.bind_eq_some_iff.1 h
    obtain ⟨v, hv, h⟩ := Option.bind_eq_some_iff.1 h
    obtain ⟨hsorted, hmembers⟩ := ih h (KeyMap.sorted_insert hfound)
    refine ⟨hsorted, fun m hm => ?_⟩
    rcases hmembers m hm with hm | ⟨e, he, hread⟩
    · rcases KeyMap.mem_insert hm with rfl | hm
      · exact .inr ⟨entry, List.mem_cons_self, hv⟩
      · exact .inl hm
    · exact .inr ⟨e, List.mem_cons_of_mem _ he, hread⟩

/-- **The value of what is scanned** can be read in the same place, its objects are in the order of
their keys, and it is null only where null is written. -/
theorem Scanned.value (h : Scanned depth d) {v : Json} (hv : toJson? d = some v) :
    v.Readable depth ∧ v.InKeyOrder ∧ (v = .null → d = .null) := by
  induction h generalizing v with
  | null =>
    obtain rfl := Option.some.inj hv
    exact ⟨.null, .null, fun _ => rfl⟩
  | bool b =>
    obtain rfl := Option.some.inj hv
    exact ⟨.bool b, .bool b, nofun⟩
  | number h =>
    obtain rfl := Option.some.inj hv
    exact ⟨.number h, .number _, nofun⟩
  | text s =>
    obtain rfl := Option.some.inj hv
    exact ⟨.string s, .string s, nofun⟩
  | unreadable => cases hv
  | list hdepth h ih =>
    obtain ⟨vs, hvs, rfl⟩ := Option.map_eq_some_iff.1 hv
    have hread := exists_of_mem_itemsToJson? hvs
    refine ⟨.array hdepth fun v hv => ?_, .array fun v hv => ?_, nofun⟩
    · obtain ⟨d, hd, hdv⟩ := hread v hv
      exact (ih d hd hdv).1
    · obtain ⟨d, hd, hdv⟩ := hread v hv
      exact (ih d hd hdv).2.1
  | map hdepth h ih =>
    -- entries are put into the map by their keys, so the object is sorted whatever their order was
    obtain ⟨members, hmembers, rfl⟩ := Option.map_eq_some_iff.1 hv
    obtain ⟨hsorted, hread⟩ := exists_of_mem_entriesToJson? hmembers KeyMap.sorted_nil
    refine ⟨.object hdepth fun m hm => ?_, .object hsorted fun m hm => ?_, nofun⟩
    · obtain ⟨e, he, hem⟩ := (hread m hm).resolve_left List.not_mem_nil
      exact (ih e he hem).1
    · obtain ⟨e, he, hem⟩ := (hread m hm).resolve_left List.not_mem_nil
      exact (ih e he hem).2.1

end Document

namespace Json

open Document (Scanned)

variable {depth fuel : Nat} {cs rest : List Char}

theorem scanned_textDocument (units : List TextUnit) : Scanned depth (textDocument units) := by
  unfold textDocument
  split
  · exact .text _
  · exact .unreadable

theorem scanned_numberDocument (t : NumberText) : Scanned depth (numberDocument t) := by
  unfold numberDocument
  split
  · rename_i n hn
    exact .number (NumberText.inRange_of_number? hn)
  · exact .unreadable

theorem scanned_nested {d : Document} (h : depth < maxDepth → Scanned depth d) :
    Scanned depth (nested depth d) := by
  unfold nested
  split
  · rename_i hdepth
    exact h hdepth
  · exact .unreadable

/-- **What is scanned with so many steps keeps to the bounds**: a value, the items of a list and the
members of a map. -/
structure ScansWithin (fuel : Nat) : Prop where
  value : ∀ {depth cs d rest}, scanValue fuel depth cs = some (d, rest) → Scanned depth d
  items : ∀ {depth cs ds rest}, scanItems fuel depth cs = some (ds, rest) →
    ∀ d ∈ ds, Scanned depth d
  members : ∀ {depth cs es rest}, scanMembers fuel depth cs = some (es, rest) →
    ∀ e ∈ es, Scanned depth e.2

/-- A list or a map counts as one level for what is in it. -/
theorem ScansWithin.value_succ (h : ScansWithin fuel) {d : Document}
    (hscan : scanValue (fuel + 1) depth cs = some (d, rest)) : Scanned depth d := by
  rw [scanValue] at hscan
  split at hscan
  · cases hscan
    exact .null
  · cases hscan
    exact .bool true
  · cases hscan
    exact .bool false
  · obtain ⟨p, -, hp⟩ := Option.map_eq_some_iff.1 hscan
    cases hp
    exact scanned_textDocument _
  · split at hscan
    · cases hscan
      exact scanned_nested fun hdepth => .list hdepth (List.forall_mem_nil _)
    · obtain ⟨p, hitems, hp⟩ := Option.map_eq_some_iff.1 hscan
      cases hp
      exact scanned_nested fun hdepth => .list hdepth (h.items hitems)
  · split at hscan
    · cases hscan
      exact scanned_nested fun hdepth => .map hdepth (List.forall_mem_nil _)
    · obtain ⟨p, hmembers, hp⟩ := Option.map_eq_some_iff.1 hscan
      cases hp
      exact scanned_nested fun hdepth => .map hdepth (h.members hmembers)
  · obtain ⟨p, -, hp⟩ := Option.map_eq_some_iff.1 hscan
    cases hp
    exact scanned_numberDocument _

theorem ScansWithin.items_succ (h : ScansWithin fuel) {ds : List Document}
    (hscan : scanItems (fuel + 1) depth cs = some (ds, rest)) : ∀ d ∈ ds, Scanned depth d := by
  rw [scanItems] at hscan
  obtain ⟨⟨d, behind⟩, hvalue, hscan⟩ := Option.bind_eq_some_iff.1 hscan
  have hd := h.value hvalue
  -- after the item stands a comma and more of them, or the closing bracket
  dsimp only at hscan
  split at hscan
  · obtain ⟨⟨ds', rest'⟩, hitems, hscan⟩ := Option.bind_eq_some_iff.1 hscan
    cases hscan
    exact List.forall_mem_cons.2 ⟨hd, h.items hitems⟩
  · cases hscan
    exact List.forall_mem_singleton.2 hd
  · cases hscan

theorem ScansWithin.members_succ (h : ScansWithin fuel) {es : List (Document × Document)}
    (hscan : scanMembers (fuel + 1) depth cs = some (es, rest)) :
    ∀ e ∈ es, Scanned depth e.2 := by
  rw [scanMembers] at hscan
  -- a key, a colon and a value, in this order
  split at hscan
  · obtain ⟨⟨units, behind⟩, -, hscan⟩ := Option.bind_eq_some_iff.1 hscan
    dsimp only at hscan
    split at hscan
    · obtain ⟨⟨d, behind'⟩, hvalue, hscan⟩ := Option.bind_eq_some_iff.1 hscan
      have hd := h.value hvalue
      dsimp only at hscan
      split at hscan
      · obtain ⟨⟨es', rest'⟩, hmembers, hscan⟩ := Option.bind_eq_some_iff.1 hscan
        cases hscan
        exact List.forall_mem_cons.2 ⟨hd, h.members hmembers⟩
      · cases hscan
        exact List.forall_mem_singleton.2 hd
      · cases hscan
    · cases hscan
  · cases hscan

theorem scansWithin (fuel : Nat) : ScansWithin fuel := by
  induction fuel with
  | zero => exact ⟨nofun, nofun, nofun⟩
  | succ fuel ih => exact ⟨ih.value_succ, ih.items_succ, ih.members_succ⟩

/-- What a text is scanned as keeps to the bounds. -/
theorem scanned_of_document? {text : String} {d : Document} (h : document? text = some d) :
    Scanned 0 d := by
  unfold document? scan? at h
  split at h
  · rename_i hscan
    obtain ⟨-, hd⟩ := Option.ite_none_right_eq_some.1 h
    cases hd
    exact (scansWithin _).value hscan
  · cases h

end Json

end Syndication
