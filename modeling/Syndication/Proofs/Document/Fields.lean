import Syndication.Proofs.Json.Values

/-!
# The fields of a record that is written

A record is written as an object with all fields of its type, in the order of the fields or in that
of their names. Either way each field is found in it under its own name, other numbers may be put in
its place, and it can be read as deep as its fields can.

* `Lists`: the ways to list the members of an object.
* `exists_record?`: the record of a written object has every field.
* `Scanned.field`: the parts of a record that is scanned.
-/

namespace Syndication

namespace KeyMap

variable {α β : Type}

theorem mapValues_nil (f : α → β) : mapValues f [] = [] := rfl

theorem mapValues_cons (f : α → β) (key : String) (value : α) (m : KeyMap α) :
    mapValues f ((key, value) :: m) = (key, f value) :: mapValues f m := rfl

theorem mapValues_mapValues {γ : Type} (g : β → γ) (f : α → β) (m : KeyMap α) :
    mapValues g (mapValues f m) = mapValues (fun value => g (f value)) m := by
  rw [mapValues, mapValues, List.map_map]
  rfl

theorem mapValues_congr {f g : α → β} {m : KeyMap α} (h : ∀ e ∈ m, f e.2 = g e.2) :
    mapValues f m = mapValues g m :=
  List.map_congr_left fun e he => congrArg (e.1, ·) (h e he)

theorem mapValues_insert (f : α → β) (key : String) (value : α) (m : KeyMap α) :
    mapValues f (insert key value m) = insert key (f value) (mapValues f m) := by
  induction m with
  | nil => rfl
  | cons e m ih =>
    obtain ⟨k, v⟩ := e
    show mapValues f (insert key value ((k, v) :: m)) =
      insert key (f value) ((k, f v) :: mapValues f m)
    rw [insert, insert]
    split_ifs with heq hlt
    · rfl
    · rfl
    · exact congrArg ((k, f v) :: ·) ih

/-- Values are replaced in the entries or in the map of them. -/
theorem mapValues_ofEntries (f : α → β) (entries : List (String × α)) :
    mapValues f (ofEntries entries) = ofEntries (mapValues f entries) := by
  have hfold (m : KeyMap α) : mapValues f (entries.foldl (fun m e => insert e.1 e.2 m) m) =
      (mapValues f entries).foldl (fun m e => insert e.1 e.2 m) (mapValues f m) := by
    induction entries generalizing m with
    | nil => rfl
    | cons e entries ih =>
      rw [List.foldl_cons, ih, mapValues_insert]
      rfl
  exact hfold []

end KeyMap

namespace Json

/-- **A way to list the members of an object**: all of them and nothing else, none twice. -/
structure Lists (object : List (String × Json) → Json) : Prop where
  exists_members : ∀ {members : List (String × Json)}, (members.map (·.1)).Nodup →
    ∃ listed, object members = .object listed ∧ (listed.map (·.1)).Nodup ∧
      ∀ m, m ∈ listed ↔ m ∈ members
  mapNumbers : ∀ (f : Number → Number) (members : List (String × Json)),
    (object members).mapNumbers f = object (KeyMap.mapValues (mapNumbers f) members)

/-- Members are listed in the order in which they are given. -/
theorem lists_object : Lists .object where
  exists_members {members} h := ⟨members, rfl, h, fun _ => Iff.rfl⟩
  mapNumbers f members := by rw [mapNumbers, mapMembers_eq_mapValues]

/-- Members are listed in the order of their keys. -/
theorem lists_ofMembers : Lists ofMembers where
  exists_members {members} h :=
    ⟨KeyMap.ofEntries members, rfl, KeyMap.nodup_keys_of_sorted (KeyMap.sorted_ofEntries members),
      fun _ => ⟨KeyMap.mem_ofEntries, KeyMap.mem_ofEntries_of_nodup h⟩⟩
  mapNumbers f members := by
    rw [ofMembers, mapNumbers, mapMembers_eq_mapValues, KeyMap.mapValues_ofEntries]
    rfl

variable {object : List (String × Json) → Json} {members : List (String × Json)} {depth : Nat}

theorem Lists.ne_null (hobject : Lists object) (hnodup : (members.map (·.1)).Nodup) :
    object members ≠ .null := by
  obtain ⟨listed, hlisted, -⟩ := hobject.exists_members hnodup
  rw [hlisted]
  exact nofun

/-- An object can be read where there is room for it and for what is in it. -/
theorem Lists.readable (hobject : Lists object) (hnodup : (members.map (·.1)).Nodup)
    (hdepth : depth < maxDepth) (h : ∀ m ∈ members, m.2.Readable (depth + 1)) :
    (object members).Readable depth := by
  obtain ⟨listed, hlisted, -, hmem⟩ := hobject.exists_members hnodup
  rw [hlisted]
  exact .object hdepth fun m hm => h m ((hmem m).1 hm)

/-! ### The values of fields -/

variable {f : Number → Number}

/-- A value without numbers has no other numbers in their places. -/
theorem mapNumbers_of_numbers {v : Json} (h : v.numbers = []) : v.mapNumbers f = v := by
  rw [mapNumbers_eq_self_iff, h]
  exact List.forall_mem_nil _

theorem mapNumbers_string (s : String) : (string s).mapNumbers f = .string s := rfl

theorem numbers_ofOption (s : Option String) : (ofOption s).numbers = [] := by
  cases s with
  | none => rfl
  | some s => rfl

theorem numbers_ofStrings (ss : List String) : (ofStrings ss).numbers = [] := by
  rw [ofStrings, numbers, itemNumbers_eq_flatMap, List.flatMap_map]
  exact List.flatMap_eq_nil_iff.2 fun _ _ => rfl

theorem numbers_toJson (m : KeyMap String) : m.toJson.numbers = [] := by
  rw [KeyMap.toJson, numbers, memberNumbers_eq_flatMap, KeyMap.mapValues, List.flatMap_map]
  exact List.flatMap_eq_nil_iff.2 fun _ _ => rfl

theorem readable_ofOption (s : Option String) : (ofOption s).Readable depth := by
  cases s with
  | none => exact .null
  | some s => exact .string s

theorem readable_ofStrings (ss : List String) (h : depth < maxDepth) :
    (ofStrings ss).Readable depth := by
  refine .array h fun v hv => ?_
  obtain ⟨s, -, rfl⟩ := List.mem_map.1 hv
  exact .string s

theorem readable_toJson (m : KeyMap String) (h : depth < maxDepth) : m.toJson.Readable depth := by
  refine .object h fun e he => ?_
  obtain ⟨⟨key, s⟩, -, rfl⟩ := List.mem_map.1 he
  exact .string s

end Json

namespace Document

open Json (Lists)

/-- **The names of the fields are distinct**, and none is another name of an earlier field. -/
def NamesApart (layout : List FieldName) : Prop :=
  (layout.map (·.name)).Nodup ∧
    ∀ name ∈ layout.map (·.name), fieldOf? layout name = some name

instance (layout : List FieldName) : Decidable (NamesApart layout) :=
  inferInstanceAs (Decidable (_ ∧ _))

variable {layout : List FieldName} {object : List (String × Json) → Json}
  {members : List (String × Json)}

/-- **The record of a written object has every field**, under its own name. -/
theorem exists_record? {members : List (String × Json)} (hobject : Lists object) (hlayout : NamesApart layout)
    (hfields : members.map (·.1) = layout.map (·.name)) :
    ∃ r, Document.record? layout (ofJson (object members)) = some r ∧
      ∀ m ∈ members, r.lookup m.1 = some (ofJson m.2) := by
  obtain ⟨hdistinct, hnames⟩ := hlayout
  rw [← hfields] at hdistinct hnames
  obtain ⟨listed, hlisted, hnodup, hmem⟩ := hobject.exists_members hdistinct
  have hlistedNames : ∀ m ∈ listed, fieldOf? layout m.1 = some m.1 := fun m hm =>
    hnames m.1 (List.mem_map_of_mem ((hmem m).1 hm))
  obtain ⟨r, hr, hparts⟩ := record?_ofJson hlistedNames hnodup
  exact ⟨r, hlisted ▸ hr, fun m hm => hparts m ((hmem m).2 hm)⟩

/-! ### What is scanned -/

variable {depth : Nat} {d : Document} {r : Record}

theorem Scanned.untagged (h : Scanned depth d) : d.untagged = d := by
  cases h <;> rfl

theorem mem_of_gather? {entries : List (Document × Document)} {found : Record}
    (h : gather? layout found entries = some r) :
    ∀ field ∈ r, field ∈ found ∨ ∃ e ∈ entries, field.2 = e.2 := by
  induction entries generalizing found with
  | nil =>
    obtain rfl := Option.some.inj h
    exact fun field hfield => .inl hfield
  | cons entry entries ih =>
    obtain ⟨key, part⟩ := entry
    obtain ⟨k, hk, h⟩ := Option.bind_eq_some_iff.1 h
    intro field hfield
    split at h
    · rcases ih h field hfield with hfound | ⟨e, he, heq⟩
      · exact .inl hfound
      · exact .inr ⟨e, List.mem_cons_of_mem _ he, heq⟩
    · obtain ⟨-, h⟩ := Option.ite_none_left_eq_some.1 h
      rcases ih h field hfield with hfound | ⟨e, he, heq⟩
      · rcases List.mem_cons.1 hfound with rfl | hfound
        · exact .inr ⟨_, List.mem_cons_self, rfl⟩
        · exact .inl hfound
      · exact .inr ⟨e, List.mem_cons_of_mem _ he, heq⟩

/-- **The parts of a record** are scanned one level deeper. -/
theorem Scanned.field (h : Scanned depth d) (hr : Document.record? layout d = some r) :
    ∀ field ∈ r, Scanned (depth + 1) field.2 := by
  unfold Document.record? at hr
  rw [h.untagged] at hr
  cases h with
  | list hdepth h =>
    obtain ⟨-, hr⟩ := Option.ite_none_right_eq_some.1 hr
    obtain rfl := Option.some.inj hr
    exact fun field hfield => h _ (List.of_mem_zip hfield).2
  | map hdepth h =>
    intro field hfield
    obtain ⟨e, he, heq⟩ := (mem_of_gather? hr field hfield).resolve_left List.not_mem_nil
    exact heq ▸ h e he
  | null => cases hr
  | bool b => cases hr
  | number h => cases hr
  | text s => cases hr
  | unreadable => cases hr

theorem mem_of_lookup {name : String} {part : Document} (h : r.lookup name = some part) :
    (name, part) ∈ r := by
  induction r with
  | nil => cases h
  | cons field r ih =>
    rw [List.lookup_cons] at h
    cases heq : name == field.1 with
    | true =>
      rw [heq] at h
      obtain rfl := Option.some.inj h
      rw [eq_of_beq heq]
      exact List.mem_cons_self
    | false =>
      rw [heq] at h
      exact List.mem_cons_of_mem _ (ih h)

variable {α : Type} {read : Document → Option α}

/-- What holds of the value that is read from a part one level deeper and of the value for its
absence holds of a field. -/
theorem Scanned.withDefault? (h : Scanned depth d) (hr : Document.record? layout d = some r)
    {name : String} {missing a : α} (hread : r.withDefault? name missing read = some a)
    {P : α → Prop} (hmissing : P missing)
    (hpart : ∀ part, Scanned (depth + 1) part → read part = some a → P a) : P a := by
  unfold Record.withDefault? at hread
  split at hread
  · rename_i part hlookup
    exact hpart part (h.field hr _ (mem_of_lookup hlookup)) hread
  · exact Option.some.inj hread ▸ hmissing

/-- The values of a map are read from parts one level deeper. -/
theorem Scanned.mem_map? {m : KeyMap α} (h : Scanned depth d) (hread : d.map? read = some m) :
    ∀ e ∈ m, ∃ part, Scanned (depth + 1) part ∧ read part = some e.2 := by
  unfold Document.map? at hread
  -- a JSON text has no tags, so only a map is read
  rw [h.untagged] at hread
  cases h with
  | map hdepth h =>
    intro e he
    obtain ⟨pairs, hpairs, hm⟩ := Option.bind_eq_some_iff.1 hread
    obtain rfl := Option.some.inj hm
    obtain ⟨entry, hentry, hpair⟩ := exists_of_mem_mapM hpairs (KeyMap.mem_ofEntries he)
    obtain ⟨key, -, hpair⟩ := Option.bind_eq_some_iff.1 hpair
    obtain ⟨value, hvalue, hpair⟩ := Option.bind_eq_some_iff.1 hpair
    obtain rfl := Option.some.inj hpair
    exact ⟨entry.2, h entry hentry, hvalue⟩
  | null => cases hread
  | bool b => cases hread
  | number h => cases hread
  | text s => cases hread
  | unreadable => cases hread
  | list hdepth h => cases hread

theorem le_of_nat? {greatest n : Nat} (h : d.nat? greatest = some n) : n ≤ greatest := by
  have hwithin {i : Int} (hi : (if 0 ≤ i ∧ i ≤ greatest then some i.toNat else none) = some n) :
      n ≤ greatest := by
    obtain ⟨hrange, hn⟩ := Option.ite_none_right_eq_some.1 hi
    obtain rfl := Option.some.inj hn
    omega
  unfold nat? at h
  dsimp only at h
  split at h
  · exact hwithin h
  · obtain ⟨i, -, hi⟩ := Option.bind_eq_some_iff.1 h
    exact hwithin hi
  · cases h

theorem exists_of_mem_list? {xs : List α} (h : d.list? read = some xs) :
    ∀ x ∈ xs, ∃ part, read part = some x := by
  intro x hx
  unfold list? at h
  split at h
  · obtain ⟨part, -, hpart⟩ := exists_of_mem_mapM h hx
    exact ⟨part, hpart⟩
  · obtain ⟨part, -, hpart⟩ := exists_of_mem_mapM h hx
    exact ⟨part, hpart⟩
  · obtain rfl := Option.some.inj h
    cases hx
  · cases h

end Document

end Syndication
