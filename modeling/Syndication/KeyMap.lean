/-!
# Maps with texts as keys

A map from texts is the list of its entries in the order of their keys, by code
points. `insert` puts an entry in its place and replaces the one with the same
key, so a map built by insertions has every key once.

Main statements:

* `find?_insert_self`, `find?_insert_ne`: what a look-up finds after an insertion.
* `find?_erase_self`, `find?_erase_ne`: what it finds after a removal.
* `sorted_insert`, `sorted_erase`, `sorted_ofEntries`: the keys are in strictly increasing order.
-/

namespace Syndication

/-- A map from texts, its entries in the order of their keys. -/
abbrev KeyMap (α : Type) := List (String × α)

namespace KeyMap

variable {α β : Type}

/-- The value under a key. -/
def find? (key : String) : KeyMap α → Option α
  | [] => none
  | (k, v) :: rest => if k = key then some v else find? key rest

/-- The map with one more entry; it replaces one with the same key. -/
def insert (key : String) (value : α) : KeyMap α → KeyMap α
  | [] => [(key, value)]
  | (k, v) :: rest =>
    if k = key then (key, value) :: rest
    else if key < k then (key, value) :: (k, v) :: rest
    else (k, v) :: insert key value rest

/-- The map without the entry of a key. -/
def erase (key : String) (m : KeyMap α) : KeyMap α :=
  m.filter (·.1 ≠ key)

/-- The map of some entries, the last of those with the same key. -/
def ofEntries (entries : List (String × α)) : KeyMap α :=
  entries.foldl (fun m e => insert e.1 e.2 m) []

/-- The keys, in order. -/
def keys (m : KeyMap α) : List String :=
  m.map (·.1)

/-- The map with its values replaced. -/
def mapValues (f : α → β) (m : KeyMap α) : KeyMap β :=
  m.map fun (k, v) => (k, f v)

/-- What is found stands in the map under its key. -/
theorem mem_of_find? {key : String} {value : α} {m : KeyMap α} (h : find? key m = some value) :
    (key, value) ∈ m := by
  induction m with
  | nil => cases h
  | cons e rest ih =>
    obtain ⟨k, v⟩ := e
    unfold find? at h
    split at h
    · rename_i hk
      cases h
      rw [hk]
      exact List.mem_cons_self
    · exact List.mem_cons_of_mem _ (ih h)

/-- The keys are those under which something is found. -/
theorem mem_keys_iff {key : String} {m : KeyMap α} :
    key ∈ m.keys ↔ (find? key m).isSome = true := by
  induction m with
  | nil => simp [keys, find?]
  | cons e rest ih =>
    obtain ⟨k, v⟩ := e
    unfold keys at ih ⊢
    by_cases hk : k = key
    · simp [find?, hk]
    · rw [List.map_cons, List.mem_cons, find?, if_neg hk, ih]
      simp [Ne.symm hk]

/-- The inserted value is found under its key. -/
@[simp] theorem find?_insert_self (key : String) (value : α) (m : KeyMap α) :
    find? key (insert key value m) = some value := by
  induction m with
  | nil => simp [insert, find?]
  | cons e rest ih =>
    obtain ⟨k, v⟩ := e
    unfold insert
    split
    · simp [find?]
    · split
      · simp [find?]
      · rename_i hne _
        simp [find?, hne, ih]

/-- An insertion changes what is found under no other key. -/
theorem find?_insert_ne {key other : String} (h : other ≠ key) (value : α) (m : KeyMap α) :
    find? other (insert key value m) = find? other m := by
  induction m with
  | nil => simp [insert, find?, h.symm]
  | cons e rest ih =>
    obtain ⟨k, v⟩ := e
    unfold insert
    split
    · rename_i hk
      subst hk
      simp [find?, h.symm]
    · split
      · simp [find?, h.symm]
      · simp [find?, ih]

/-- Nothing is found under a removed key. -/
@[simp] theorem find?_erase_self (key : String) (m : KeyMap α) :
    find? key (erase key m) = none := by
  induction m with
  | nil => rfl
  | cons e rest ih =>
    obtain ⟨k, v⟩ := e
    unfold erase at ih ⊢
    by_cases hk : k = key
    · simpa [hk] using ih
    · simpa [hk, find?] using ih

/-- A removal changes what is found under no other key. -/
theorem find?_erase_ne {key other : String} (h : other ≠ key) (m : KeyMap α) :
    find? other (erase key m) = find? other m := by
  induction m with
  | nil => rfl
  | cons e rest ih =>
    obtain ⟨k, v⟩ := e
    unfold erase at ih ⊢
    by_cases hk : k = key
    · subst hk
      simpa [find?, h.symm] using ih
    · simpa [hk, find?] using congrArg (fun r => if k = other then some v else r) ih

/-- The keys are in strictly increasing order. -/
def Sorted (m : KeyMap α) : Prop :=
  m.Pairwise fun a b => a.1 < b.1

theorem sorted_nil : Sorted ([] : KeyMap α) :=
  List.Pairwise.nil

theorem sorted_erase {key : String} {m : KeyMap α} (h : Sorted m) : Sorted (erase key m) :=
  List.Pairwise.filter _ h

theorem sorted_mapValues {m : KeyMap α} (f : α → β) (h : Sorted m) : Sorted (mapValues f m) :=
  List.pairwise_map.2 h

/-- The entries after an insertion are the inserted one and earlier ones. -/
theorem mem_insert {key : String} {value : α} {m : KeyMap α} {e : String × α}
    (h : e ∈ insert key value m) : e = (key, value) ∨ e ∈ m := by
  induction m with
  | nil => simpa [insert] using h
  | cons a rest ih =>
    obtain ⟨k, v⟩ := a
    unfold insert at h
    split at h
    · rcases List.mem_cons.1 h with h | h
      · exact Or.inl h
      · exact Or.inr (List.mem_cons_of_mem _ h)
    · split at h
      · rcases List.mem_cons.1 h with h | h
        · exact Or.inl h
        · exact Or.inr h
      · rcases List.mem_cons.1 h with h | h
        · exact Or.inr (h ▸ List.mem_cons_self)
        · rcases ih h with h | h
          · exact Or.inl h
          · exact Or.inr (List.mem_cons_of_mem _ h)

/-- The inserted entry stands in the map. -/
theorem mem_insert_self (key : String) (value : α) (m : KeyMap α) :
    (key, value) ∈ insert key value m :=
  mem_of_find? (find?_insert_self key value m)

/-- The entries of other keys stay. -/
theorem mem_insert_of_ne {key : String} {value : α} {m : KeyMap α} {e : String × α} (h : e ∈ m)
    (hne : e.1 ≠ key) : e ∈ insert key value m := by
  induction m with
  | nil => exact absurd h List.not_mem_nil
  | cons a rest ih =>
    obtain ⟨k, v⟩ := a
    unfold insert
    split
    · rename_i hk
      rcases List.mem_cons.1 h with rfl | h
      · exact absurd hk hne
      · exact List.mem_cons_of_mem _ h
    · split
      · exact List.mem_cons_of_mem _ h
      · rcases List.mem_cons.1 h with rfl | h
        · exact List.mem_cons_self
        · exact List.mem_cons_of_mem _ (ih h)

/-- The keys after an insertion are the inserted one and the earlier ones. -/
theorem mem_keys_insert {key other : String} {value : α} {m : KeyMap α} :
    other ∈ (insert key value m).keys ↔ other = key ∨ other ∈ m.keys := by
  by_cases h : other = key
  · simp [mem_keys_iff, h]
  · simp [mem_keys_iff, h, find?_insert_ne h]

/-- A map of entries has the keys of the entries. -/
theorem mem_keys_ofEntries {key : String} {entries : List (String × α)} :
    key ∈ (ofEntries entries).keys ↔ key ∈ entries.map (·.1) := by
  have hfold : ∀ m : KeyMap α, key ∈ (entries.foldl (fun m e => insert e.1 e.2 m) m).keys ↔
      key ∈ m.keys ∨ key ∈ entries.map (·.1) := by
    induction entries with
    | nil => simp
    | cons e rest ih =>
      intro m
      rw [List.foldl_cons, ih, mem_keys_insert, List.map_cons, List.mem_cons, or_assoc,
        or_left_comm]
  rw [ofEntries, hfold]
  simp [keys]

/-- Nothing stands in a map of entries but the entries. -/
theorem mem_ofEntries {e : String × α} {entries : List (String × α)} (h : e ∈ ofEntries entries) :
    e ∈ entries := by
  have hfold : ∀ m : KeyMap α, e ∈ entries.foldl (fun m e => insert e.1 e.2 m) m →
      e ∈ m ∨ e ∈ entries := by
    clear h
    induction entries with
    | nil => exact fun m h => .inl h
    | cons first rest ih =>
      intro m h
      rcases ih _ h with h | h
      · rcases mem_insert h with rfl | h
        · exact .inr List.mem_cons_self
        · exact .inl h
      · exact .inr (List.mem_cons_of_mem _ h)
  exact (hfold [] h).resolve_left List.not_mem_nil

/-- The keys stay in strictly increasing order. -/
theorem sorted_insert {key : String} {value : α} {m : KeyMap α} (h : Sorted m) :
    Sorted (insert key value m) := by
  induction m with
  | nil => simp [insert, Sorted]
  | cons a rest ih =>
    obtain ⟨k, v⟩ := a
    unfold Sorted at h ih
    rw [List.pairwise_cons] at h
    unfold insert
    split
    · rename_i hk
      subst hk
      exact List.Pairwise.cons h.1 h.2
    · rename_i hne
      split
      · rename_i hlt
        refine List.Pairwise.cons ?_ (List.Pairwise.cons h.1 h.2)
        intro e he
        rcases List.mem_cons.1 he with he | he
        · rw [he]
          exact hlt
        · exact String.lt_trans hlt (h.1 e he)
      · rename_i hnlt
        have hgt : k < key := by
          rcases Std.lt_trichotomy k key with hlt | heq | hlt
          · exact hlt
          · exact absurd heq hne
          · exact absurd hlt hnlt
        refine List.Pairwise.cons ?_ (ih h.2)
        intro e he
        rcases mem_insert he with he | he
        · rw [he]
          exact hgt
        · exact h.1 e he

/-- A map of entries has its keys in strictly increasing order. -/
theorem sorted_ofEntries (entries : List (String × α)) : Sorted (ofEntries entries) := by
  have hfold : ∀ m : KeyMap α, Sorted m →
      Sorted (entries.foldl (fun m e => insert e.1 e.2 m) m) := by
    induction entries with
    | nil => exact fun m hm => hm
    | cons e rest ih => exact fun m hm => ih _ (sorted_insert hm)
  exact hfold [] sorted_nil

end KeyMap

end Syndication
