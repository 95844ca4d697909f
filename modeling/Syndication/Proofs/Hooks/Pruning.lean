import Syndication.Hooks.Basic
import Syndication.Proofs.Program.Course

/-!
# What dropping empty collections leaves of a body

A member of an object is dropped when it is an empty collection once its own members have been
dropped, so a member may go because of what is dropped inside it. Items of arrays are never dropped.
A place in a value is therefore still there afterwards when no member on the way to it is dropped,
and then it holds what dropping leaves of what it held (`reaches_prune_iff`).

Everything else follows from that. A leaf that is no collection keeps every member on the way to it
from becoming empty (`survives_of_at`), so no such leaf is lost. And where no member is an empty
collection there is nothing to drop (`prune_of_tidy`), so a second time changes nothing.

Main statement:

* `dropEmpty_prunes`: what the hook makes of a body of each kind.
-/

namespace Syndication

namespace Json

/-! ### Places in a value -/

/-- One step down into a value. -/
inductive Branch where
  /-- To the member of an object with a key. -/
  | member (key : String)
  /-- To the item of an array at an index. -/
  | item (index : Nat)
deriving DecidableEq, Repr

/-- **A path leads to a part of a value** when it can be followed from the outside in, past members
of which `passes` holds. -/
inductive Reaches (passes : Json → Prop) : Json → List Branch → Json → Prop
  /-- The empty path leads to the whole value. -/
  | here {v : Json} : Reaches passes v [] v
  /-- A path goes on in a member. -/
  | member {members : List (String × Json)} {key : String} {child part : Json}
    {path : List Branch} (mem : (key, child) ∈ members) (pass : passes child)
    (inside : Reaches passes child path part) :
    Reaches passes (.object members) (.member key :: path) part
  /-- A path goes on in an item. -/
  | item {items : List Json} {index : Nat} {child part : Json} {path : List Branch}
    (get : items[index]? = some child) (inside : Reaches passes child path part) :
    Reaches passes (.array items) (.item index :: path) part

/-- **What stands at a path** in a value. -/
abbrev At : Json → List Branch → Json → Prop :=
  Reaches fun _ => True

/-- Whether the value is no collection. -/
def IsLeaf (v : Json) : Prop :=
  (∀ items, v ≠ .array items) ∧ ∀ members, v ≠ .object members

section Reaches

variable {passes : Json → Prop} {v part : Json} {path : List Branch}

theorem reaches_nil : Reaches passes v [] part ↔ part = v := by
  constructor
  · intro h
    cases h
    rfl
  · rintro rfl
    exact .here

theorem reaches_object {members : List (String × Json)} {key : String} :
    Reaches passes (.object members) (.member key :: path) part ↔
      ∃ child, (key, child) ∈ members ∧ passes child ∧ Reaches passes child path part := by
  constructor
  · intro h
    cases h with
    | member mem pass inside => exact ⟨_, mem, pass, inside⟩
  · rintro ⟨child, mem, pass, inside⟩
    exact .member mem pass inside

theorem reaches_array {items : List Json} {index : Nat} :
    Reaches passes (.array items) (.item index :: path) part ↔
      ∃ child, items[index]? = some child ∧ Reaches passes child path part := by
  constructor
  · intro h
    cases h with
    | item get inside => exact ⟨_, get, inside⟩
  · rintro ⟨child, get, inside⟩
    exact .item get inside

/-- What is found past some members is found when all of them may be passed. -/
theorem Reaches.at (h : Reaches passes v path part) : v.At path part := by
  induction h with
  | here => exact .here
  | member mem _ _ ih => exact .member mem trivial ih
  | item get _ ih => exact .item get ih

end Reaches

end Json

namespace DropEmpty

open Json (Branch Reaches)

variable {v part : Json} {path : List Branch} {members : List (String × Json)} {key : String}

/-! ### One value -/

/-- **An empty collection.** -/
def IsEmpty (v : Json) : Prop :=
  v = .array [] ∨ v = .object []

instance (v : Json) : Decidable (IsEmpty v) :=
  inferInstanceAs (Decidable (v = .array [] ∨ v = .object []))

theorem isEmptyCollection_iff : isEmptyCollection v = true ↔ IsEmpty v := by
  unfold isEmptyCollection IsEmpty
  split <;> simp_all

theorem pruneItems_eq (items : List Json) : pruneItems items = items.map prune := by
  induction items with
  | nil => rfl
  | cons v rest ih => rw [pruneItems, ih, List.map_cons]

/-- **Of an object those members stay**, in their order, that are no empty collections once they
are pruned. -/
theorem pruneMembers_eq (members : List (String × Json)) :
    pruneMembers members =
      (members.filter fun m => ¬ IsEmpty (prune m.2)).map fun m => (m.1, prune m.2) := by
  induction members with
  | nil => rfl
  | cons m rest ih =>
    obtain ⟨key, child⟩ := m
    rw [pruneMembers, ih]
    by_cases hempty : IsEmpty (prune child)
    · have hcollection := isEmptyCollection_iff.2 hempty
      simp [hempty, hcollection]
    · have hcollection : isEmptyCollection (prune child) = false := by
        rw [← Bool.not_eq_true, isEmptyCollection_iff]
        exact hempty
      simp [hempty, hcollection]

theorem mem_pruneMembers_iff : (key, part) ∈ pruneMembers members ↔
    ∃ child, (key, child) ∈ members ∧ ¬ IsEmpty (prune child) ∧ prune child = part := by
  rw [pruneMembers_eq, List.mem_map]
  constructor
  · rintro ⟨⟨key', child⟩, hmem, hpair⟩
    obtain ⟨hmem, hkept⟩ := List.mem_filter.1 hmem
    cases hpair
    exact ⟨child, hmem, of_decide_eq_true hkept, rfl⟩
  · rintro ⟨child, hmem, hkept, rfl⟩
    exact ⟨(key, child), List.mem_filter.2 ⟨hmem, decide_eq_true hkept⟩, rfl⟩

/-! ### Places that stay -/

/-- **A place stays** when no member on the way to it is dropped. -/
abbrev Survives : Json → List Branch → Json → Prop :=
  Reaches fun child => ¬ IsEmpty (prune child)

/-- **What stands somewhere in a pruned value** is what pruning leaves of what stood there. -/
theorem reaches_prune_iff :
    (prune v).At path part ↔ ∃ whole, Survives v path whole ∧ prune whole = part := by
  induction path generalizing v with
  | nil =>
    simp only [Json.reaches_nil, exists_eq_left]
    exact eq_comm
  | cons branch path ih =>
    cases v with
    | object members =>
      cases branch with
      | member key =>
        rw [prune]
        constructor
        · intro h
          obtain ⟨child', hmem', -, hinside⟩ := Json.reaches_object.1 h
          obtain ⟨child, hmem, hkept, rfl⟩ := mem_pruneMembers_iff.1 hmem'
          obtain ⟨whole, hsurvives, hpart⟩ := ih.1 hinside
          exact ⟨whole, .member hmem hkept hsurvives, hpart⟩
        · rintro ⟨whole, hsurvives, hpart⟩
          obtain ⟨child, hmem, hkept, hinside⟩ := Json.reaches_object.1 hsurvives
          exact .member (mem_pruneMembers_iff.2 ⟨child, hmem, hkept, rfl⟩) trivial
            (ih.2 ⟨whole, hinside, hpart⟩)
      | item index => exact ⟨nofun, nofun⟩
    | array items =>
      cases branch with
      | member key => exact ⟨nofun, nofun⟩
      | item index =>
        rw [prune, pruneItems_eq]
        constructor
        · intro h
          obtain ⟨child', hget', hinside⟩ := Json.reaches_array.1 h
          rw [List.getElem?_map] at hget'
          obtain ⟨child, hget, rfl⟩ := Option.map_eq_some_iff.1 hget'
          obtain ⟨whole, hsurvives, hpart⟩ := ih.1 hinside
          exact ⟨whole, .item hget hsurvives, hpart⟩
        · rintro ⟨whole, hsurvives, hpart⟩
          obtain ⟨child, hget, hinside⟩ := Json.reaches_array.1 hsurvives
          refine .item ?_ (ih.2 ⟨whole, hinside, hpart⟩)
          rw [List.getElem?_map, hget, Option.map_some]
    | null | bool | number | string => exact ⟨nofun, nofun⟩

/-! ### Leaves -/

theorem prune_of_isLeaf (h : v.IsLeaf) : prune v = v := by
  cases v with
  | array items => exact absurd rfl (h.1 items)
  | object members => exact absurd rfl (h.2 members)
  | null | bool | number | string => rfl

theorem not_isEmpty_of_isLeaf (h : v.IsLeaf) : ¬ IsEmpty v := by
  rintro (rfl | rfl)
  · exact h.1 [] rfl
  · exact h.2 [] rfl

/-- **A leaf keeps its place**: whatever holds it stays in turn, from the inside out. -/
theorem survives_of_at {leaf : Json} (hleaf : leaf.IsLeaf) (h : v.At path leaf) :
    Survives v path leaf ∧ ¬ IsEmpty (prune v) := by
  induction h with
  | here =>
    rw [prune_of_isLeaf hleaf]
    exact ⟨.here, not_isEmpty_of_isLeaf hleaf⟩
  | @member members key child part path mem _ _ ih =>
    obtain ⟨hsurvives, hchild⟩ := ih hleaf
    refine ⟨.member mem hchild hsurvives, ?_⟩
    -- the member is still there, so the object has one
    have hkept : (key, prune child) ∈ pruneMembers members :=
      mem_pruneMembers_iff.2 ⟨child, mem, hchild, rfl⟩
    rw [prune]
    rintro (hnone | hnone)
    · cases hnone
    · rw [Json.object.inj hnone] at hkept
      exact List.not_mem_nil hkept
  | @item items index child part path get _ ih =>
    refine ⟨.item get (ih hleaf).1, ?_⟩
    -- an array has as many items as before
    rw [prune, pruneItems_eq]
    rintro (hnone | hnone)
    · rw [List.map_eq_nil_iff.1 (Json.array.inj hnone)] at get
      cases get
    · cases hnone

theorem leaf_at_prune_iff {leaf : Json} (hleaf : leaf.IsLeaf) :
    (prune v).At path leaf ↔ v.At path leaf := by
  rw [reaches_prune_iff]
  constructor
  · rintro ⟨whole, hsurvives, rfl⟩
    -- pruning makes no leaf of a collection
    have hwhole : prune whole = whole := by
      cases whole with
      | array items => exact absurd rfl (hleaf.1 _)
      | object members => exact absurd rfl (hleaf.2 _)
      | null | bool | number | string => rfl
    rw [hwhole]
    exact hsurvives.at
  · intro h
    exact ⟨leaf, (survives_of_at hleaf h).1, prune_of_isLeaf hleaf⟩

/-! ### Pruned values -/

/-- **No member is an empty collection**, at any depth. -/
def Tidy (v : Json) : Prop :=
  ∀ path members, v.At path (.object members) → ∀ m ∈ members, ¬ IsEmpty m.2

theorem Tidy.member (h : Tidy (.object members)) {child : Json} (hmem : (key, child) ∈ members) :
    Tidy child :=
  fun path members hinside => h (.member key :: path) members (.member hmem trivial hinside)

theorem Tidy.item {items : List Json} (h : Tidy (.array items)) {child : Json}
    (hmem : child ∈ items) : Tidy child := by
  intro path members hinside
  obtain ⟨index, hget⟩ := List.mem_iff_getElem?.1 hmem
  exact h (.item index :: path) members (.item hget hinside)

theorem tidy_prune (v : Json) : Tidy (prune v) := by
  intro path members h
  obtain ⟨whole, -, hwhole⟩ := reaches_prune_iff.1 h
  cases whole with
  | object members' =>
    rintro ⟨key, part⟩ hm
    rw [prune] at hwhole
    rw [← Json.object.inj hwhole] at hm
    obtain ⟨child, -, hkept, rfl⟩ := mem_pruneMembers_iff.1 hm
    exact hkept
  | array | null | bool | number | string => cases hwhole

/-- Where no member is an empty collection there is nothing to drop. -/
theorem prune_of_tidy (h : Tidy v) : prune v = v := by
  induction v using Json.nested_induction with
  | null | bool | number | string => rfl
  | array items ih =>
    have hitems : items.map prune = items.map id :=
      List.map_congr_left fun child hmem => ih child hmem (h.item hmem)
    rw [prune, pruneItems_eq, hitems, List.map_id]
  | object members ih =>
    have hsame : ∀ m ∈ members, prune m.2 = m.2 := fun m hmem => ih m hmem (h.member hmem)
    have hkept : (members.filter fun m => ¬ IsEmpty (prune m.2)) = members := by
      rw [List.filter_eq_self]
      intro m hmem
      rw [hsame m hmem]
      exact decide_eq_true (h [] members .here m hmem)
    have hmembers : (members.map fun m => (m.1, prune m.2)) = members.map id :=
      List.map_congr_left fun m hmem => by rw [hsame m hmem, id]
    rw [prune, pruneMembers_eq, hkept, hmembers, List.map_id]

theorem prune_prune (v : Json) : prune (prune v) = prune v :=
  prune_of_tidy (tidy_prune v)

/-- **What pruning makes of a value.** -/
structure Prunes (v pruned : Json) : Prop where
  /-- No member of an object is an empty collection, at any depth. -/
  tidy : Tidy pruned
  /-- Of the members of an object just those are dropped that are empty collections once they are
  pruned. -/
  dropped_iff : ∀ path members, v.At path (.object members) → ∀ m ∈ members,
    (m.1, prune m.2) ∉ (prune (.object members)).members ↔ IsEmpty (prune m.2)
  /-- The members that stay keep their order. -/
  keys_sublist : ∀ path members, v.At path (.object members) →
    (prune (.object members)).members.keys.Sublist (KeyMap.keys members)
  /-- What stands somewhere afterwards is what pruning leaves of what stood there. -/
  at_iff : ∀ path part, pruned.At path part ↔ ∃ whole, Survives v path whole ∧ prune whole = part
  /-- All leaves that are no collections stay where they are, and there are no others. -/
  leaf_iff : ∀ path leaf, leaf.IsLeaf → (pruned.At path leaf ↔ v.At path leaf)
  /-- An array that stays keeps its length. -/
  length_eq : ∀ path items, Survives v path (.array items) →
    ∃ items', pruned.At path (.array items') ∧ items'.length = items.length
  /-- Every array had its length before. -/
  exists_array : ∀ path items', pruned.At path (.array items') →
    ∃ items, Survives v path (.array items) ∧ items.length = items'.length
  /-- A second time changes nothing. -/
  again : prune pruned = pruned

theorem prunes_prune (v : Json) : Prunes v (prune v) where
  tidy := tidy_prune v
  dropped_iff path members _ m hm := by
    rw [prune, Json.members, mem_pruneMembers_iff]
    constructor
    · intro hdropped
      by_contra hkept
      exact hdropped ⟨m.2, hm, hkept, rfl⟩
    · rintro hempty ⟨child, -, hkept, hsame⟩
      rw [hsame] at hkept
      exact hkept hempty
  keys_sublist path members _ := by
    rw [prune, Json.members, pruneMembers_eq, KeyMap.keys, KeyMap.keys, List.map_map]
    exact List.filter_sublist.map Prod.fst
  at_iff path part := reaches_prune_iff
  leaf_iff path leaf hleaf := leaf_at_prune_iff hleaf
  length_eq path items h := by
    refine ⟨items.map prune, reaches_prune_iff.2 ⟨_, h, ?_⟩, List.length_map prune⟩
    rw [prune, pruneItems_eq]
  exists_array path items' h := by
    obtain ⟨whole, hsurvives, hwhole⟩ := reaches_prune_iff.1 h
    cases whole with
    | array items =>
      rw [prune, pruneItems_eq] at hwhole
      have hitems := Json.array.inj hwhole
      exact ⟨items, hsurvives, by rw [← hitems, List.length_map]⟩
    | object | null | bool | number | string => cases hwhole
  again := prune_prune v

/-! ### Bodies -/

/-- **A text writes an empty collection** when it is a pair of brackets or braces, blanks around it
apart. -/
def WritesEmpty (s : String) : Prop :=
  Text.trim s = "[]" ∨ Text.trim s = "\x7b\x7d"

instance (s : String) : Decidable (WritesEmpty s) :=
  inferInstanceAs (Decidable (_ ∨ _))

theorem isEmptyText_iff {s : String} : isEmptyText s = true ↔ WritesEmpty s := by
  simp [isEmptyText, WritesEmpty]

/-- A part that is a text and writes an empty collection. -/
def IsEmptyPart : Part → Prop
  | .text s => WritesEmpty s
  | .blob _ => False

instance : (p : Part) → Decidable (IsEmptyPart p)
  | .text s => inferInstanceAs (Decidable (WritesEmpty s))
  | .blob _ => inferInstanceAs (Decidable False)

theorem pruneBody_form (fields : List (String × String)) :
    pruneBody (.form fields) = .form (fields.filter fun f => ¬ WritesEmpty f.2) := by
  have hsame : ∀ f ∈ fields, (!isEmptyText f.2) = decide (¬ WritesEmpty f.2) := by
    intro f _
    rw [Bool.eq_iff_iff, Bool.not_eq_true', ← Bool.not_eq_true, isEmptyText_iff, decide_eq_true_iff]
  rw [pruneBody, List.filter_congr hsame]

theorem pruneBody_multipart (parts : List (String × Part)) :
    pruneBody (.multipart parts) = .multipart (parts.filter fun p => ¬ IsEmptyPart p.2) := by
  have hsame : ∀ p ∈ parts, pruneBody.keeps p = decide (¬ IsEmptyPart p.2) := by
    rintro ⟨name, part⟩ _
    rw [Bool.eq_iff_iff, decide_eq_true_iff]
    cases part with
    | text s => simp [pruneBody.keeps, IsEmptyPart, ← isEmptyText_iff]
    | blob b => simp [pruneBody.keeps, IsEmptyPart]
  rw [pruneBody, List.filter_congr hsame]

/-- **A second time changes nothing**, in a body of any kind. -/
theorem pruneBody_pruneBody (body : Body) : pruneBody (pruneBody body) = pruneBody body := by
  cases body with
  | empty => rfl
  | json v => exact congrArg Body.json (prune_prune v)
  | form fields => simp only [pruneBody_form, List.filter_filter, Bool.and_self]
  | multipart parts => simp only [pruneBody_multipart, List.filter_filter, Bool.and_self]

end DropEmpty

open DropEmpty

/-- **What the hook that drops empty collections makes of a body.** It answers at once and never
fails. Of a JSON value it drops the members that are, or become, empty collections and nothing else;
of a form or a body in parts it drops the texts that write an empty collection and nothing else, and
the rest keeps its order. No file is dropped, and a second time changes nothing. -/
theorem dropEmpty_prunes :
    (∀ url body c b log b' y, (Hooks.dropEmpty.prepareBody url body c).Course b log b' y ↔
      log = [] ∧ b' = b ∧ y = .value (.ok (pruneBody body))) ∧
    pruneBody .empty = .empty ∧
    (∀ v, ∃ pruned, pruneBody (.json v) = .json pruned ∧ Prunes v pruned) ∧
    (∀ fields, pruneBody (.form fields) = .form (fields.filter fun f => ¬ WritesEmpty f.2)) ∧
    (∀ parts, ∃ kept, pruneBody (.multipart parts) = .multipart kept ∧
      kept = parts.filter (fun p => ¬ IsEmptyPart p.2) ∧
      ∀ name blob, (name, .blob blob) ∈ kept ↔ (name, .blob blob) ∈ parts) ∧
    ∀ body, pruneBody (pruneBody body) = pruneBody body := by
  refine ⟨fun url body c b log b' y => Program.course_pure, rfl,
    fun v => ⟨prune v, rfl, prunes_prune v⟩, pruneBody_form, fun parts => ?_, pruneBody_pruneBody⟩
  refine ⟨_, pruneBody_multipart parts, rfl, fun name blob => ?_⟩
  rw [List.mem_filter, and_iff_left_iff_imp]
  intro _
  -- only a text can write an empty collection
  have hfile : ¬ IsEmptyPart (.blob blob) := not_false
  exact decide_eq_true hfile

-- the inner object becomes empty, and so it goes too; the item stays
example : prune (.object [("list", .array [.object [("inner", .array [])]]),
    ("meta", .object [("extra", .object [])]), ("title", .string "t")]) =
      .object [("list", .array [.object []]), ("title", .string "t")] := by
  decide

end Syndication
