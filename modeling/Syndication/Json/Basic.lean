import Syndication.Decimal.Shortest
import Syndication.KeyMap

/-!
# JSON values

A JSON value, with two kinds of numbers: integers, and finite numbers of double
precision for everything with a fraction or an exponent. The members of an
object are a `KeyMap`: in the order of their keys, and no key twice when the
object was built by insertions. Only a document that is written and never asked
for a member may list its members in an order of its own.

Main statements:

* `get?_set_self`: a member that was set is found in an object.
* equality of values is decidable (`eq_of_equal`, `equal_refl`).
-/

namespace Syndication

/-- A JSON number. -/
inductive Json.Number where
  | integer (value : Int)
  /-- A number with a fraction or an exponent, or an integer beyond 64 bits. -/
  | double (value : Binary64)
deriving DecidableEq, Repr

/-- A JSON value. -/
inductive Json where
  /-- The null value. -/
  | null
  /-- A truth value. -/
  | bool (value : Bool)
  | number (value : Json.Number)
  /-- A text. -/
  | string (value : String)
  | array (items : List Json)
  /-- An object, its members usually in the order of their keys. -/
  | object (members : List (String × Json))
deriving Repr

namespace Json

instance : Inhabited Json := ⟨.null⟩

/-! ### Equality -/

mutual

/-- Whether two values are equal. -/
def equal : Json → Json → Bool
  | .null, .null => true
  | .bool a, .bool b => a == b
  | .number a, .number b => a == b
  | .string a, .string b => a == b
  | .array as, .array bs => equalItems as bs
  | .object as, .object bs => equalMembers as bs
  | _, _ => false

/-- Whether two lists of values are equal. -/
def equalItems : List Json → List Json → Bool
  | [], [] => true
  | a :: as, b :: bs => equal a b && equalItems as bs
  | _, _ => false

/-- Whether two lists of members are equal. -/
def equalMembers : List (String × Json) → List (String × Json) → Bool
  | [], [] => true
  | (k, a) :: as, (l, b) :: bs => k == l && equal a b && equalMembers as bs
  | _, _ => false

end

mutual

theorem eq_of_equal : ∀ {a b : Json}, equal a b = true → a = b
  | .null, b, h => by cases b <;> simp_all [equal]
  | .bool _, b, h => by cases b <;> simp_all [equal]
  | .number _, b, h => by cases b <;> simp_all [equal]
  | .string _, b, h => by cases b <;> simp_all [equal]
  | .array as, b, h => by
    cases b <;> simp only [equal, Bool.false_eq_true] at h
    rw [eq_of_equalItems h]
  | .object as, b, h => by
    cases b <;> simp only [equal, Bool.false_eq_true] at h
    rw [eq_of_equalMembers h]

theorem eq_of_equalItems : ∀ {as bs : List Json}, equalItems as bs = true → as = bs
  | [], bs, h => by cases bs <;> simp_all [equalItems]
  | a :: as, bs, h => by
    cases bs with
    | nil => simp [equalItems] at h
    | cons b bs =>
      simp only [equalItems, Bool.and_eq_true] at h
      rw [eq_of_equal h.1, eq_of_equalItems h.2]

theorem eq_of_equalMembers : ∀ {as bs : List (String × Json)}, equalMembers as bs = true → as = bs
  | [], bs, h => by cases bs <;> simp_all [equalMembers]
  | (k, a) :: as, bs, h => by
    cases bs with
    | nil => simp [equalMembers] at h
    | cons b bs =>
      obtain ⟨l, b⟩ := b
      simp only [equalMembers, Bool.and_eq_true, beq_iff_eq] at h
      rw [h.1.1, eq_of_equal h.1.2, eq_of_equalMembers h.2]

end

mutual

theorem equal_refl : ∀ a : Json, equal a a = true
  | .null => rfl
  | .bool _ => by simp [equal]
  | .number _ => by simp [equal]
  | .string _ => by simp [equal]
  | .array as => by simp [equal, equalItems_refl as]
  | .object as => by simp [equal, equalMembers_refl as]

theorem equalItems_refl : ∀ as : List Json, equalItems as as = true
  | [] => rfl
  | a :: as => by simp [equalItems, equal_refl a, equalItems_refl as]

theorem equalMembers_refl : ∀ as : List (String × Json), equalMembers as as = true
  | [] => rfl
  | (_, a) :: as => by simp [equalMembers, equal_refl a, equalMembers_refl as]

end

instance : DecidableEq Json := fun a b =>
  decidable_of_iff (equal a b = true) ⟨eq_of_equal, fun h => h ▸ equal_refl a⟩

/-! ### Induction -/

/-- What holds of the leaves, and of arrays and objects when it holds of what is in them, holds of
every value. -/
@[elab_as_elim]
theorem nested_induction {P : Json → Prop} (value : Json) (null : P .null)
    (bool : ∀ b, P (.bool b)) (number : ∀ n, P (.number n)) (string : ∀ s, P (.string s))
    (array : ∀ items, (∀ v ∈ items, P v) → P (.array items))
    (object : ∀ members, (∀ m ∈ members, P m.2) → P (.object members)) : P value :=
  Json.rec (motive_1 := P) (motive_2 := fun items => ∀ v ∈ items, P v)
    (motive_3 := fun members => ∀ m ∈ members, P m.2) (motive_4 := fun m => P m.2)
    null bool number string array object
    (by simp) (fun _ _ h hs => List.forall_mem_cons.2 ⟨h, hs⟩)
    (by simp) (fun _ _ h hs => List.forall_mem_cons.2 ⟨h, hs⟩)
    (fun _ _ h => h) value

/-! ### Members -/

/-- The object with the given members, the last of those with the same key. -/
def ofMembers (members : List (String × Json)) : Json :=
  .object (KeyMap.ofEntries members)

/-- The value of a key, if the value is an object that has it. -/
def get? (key : String) : Json → Option Json
  | .object members => KeyMap.find? key members
  | _ => none

/-- The object with one more member; other values are left alone. -/
def set (whole : Json) (key : String) (value : Json) : Json :=
  match whole with
  | .object members => .object (KeyMap.insert key value members)
  | other => other

/-- A member that was set is found in an object. -/
theorem get?_set_self (key : String) (value : Json) (members : KeyMap Json) :
    ((Json.object members).set key value).get? key = some value := by
  simp [set, get?]

/-- The members of an object; other values have none. -/
def members : Json → KeyMap Json
  | .object members => members
  | _ => []

/-- Whether the value is an object. -/
def isObject : Json → Bool
  | .object _ => true
  | _ => false

/-- The text, if the value is one. -/
def string? : Json → Option String
  | .string s => some s
  | _ => none

/-- The value of an optional text. -/
def ofOption (s : Option String) : Json :=
  s.elim .null .string

/-- The array of texts. -/
def ofStrings (ss : List String) : Json :=
  .array (ss.map .string)

/-- The integer as a value. -/
def ofInt (i : Int) : Json :=
  .number (.integer i)

/-- The natural number as a value. -/
def ofNat (n : Nat) : Json :=
  .number (.integer n)

/-! ### Numbers -/

namespace Number

/-- The number as an integer of 64 bits with a sign, if it is one. -/
def int64? : Number → Option Int
  | .integer i => if -9223372036854775808 ≤ i ∧ i ≤ 9223372036854775807 then some i else none
  | .double _ => none

/-- The nearest number of double precision. -/
def binary64? : Number → Option Binary64
  | .integer i => Binary64.ofInt i
  | .double x => some x

/-- Whether the number is zero. -/
def isZero : Number → Bool
  | .integer i => i == 0
  | .double x => x.isZero

end Number

end Json

end Syndication
