import Mathlib.Algebra.Group.Int.Defs
import Mathlib.Algebra.Group.Nat.Defs
import Mathlib.Data.List.TakeWhile
import Mathlib.Tactic.SplitIfs
import Syndication.Decimal.Reading

/-!
# Numerals

What is written for an integer is read back as that integer, and a text is read as a number only
when it is made of the characters of numbers.

Main statements:

* `int?_toString`, `int64?_toString`: an integer is read back.
* `written?_of_int?`, `binary64?_of_int?`: an integer is a decimal number, too.
* `isNumeralChar_of_int64?`, `isNumeralChar_of_binary64?`: the characters of a number.
-/

namespace Syndication.Decimal

variable {c : Char} {cs : List Char}

/-! ### Reading an integer back -/

theorem natOfDigits_eq_ofDigitChars (cs : List Char) : natOfDigits cs = Nat.ofDigitChars 10 cs 0 := by
  unfold natOfDigits Nat.ofDigitChars
  congr 1
  funext m c
  rw [Nat.mul_comm, digitValue]

theorem natOfDigits_toDigits (n : Nat) : natOfDigits (Nat.toDigits 10 n) = n := by
  rw [natOfDigits_eq_ofDigitChars, Nat.ofDigitChars_ten_toDigits]

/-- Digits that stand before others count for their power of ten. -/
theorem natOfDigits_append (cs ds : List Char) :
    natOfDigits (cs ++ ds) = natOfDigits cs * 10 ^ ds.length + natOfDigits ds := by
  simp only [natOfDigits_eq_ofDigitChars]
  rw [Nat.ofDigitChars_append, Nat.ofDigitChars_eq_ofDigitChars_zero, Nat.mul_comm]

theorem natOfDigits_zeros (n : Nat) : natOfDigits (List.replicate n '0') = 0 := by
  rw [natOfDigits_eq_ofDigitChars, Nat.ofDigitChars_replicate_zero, Nat.mul_zero]

theorem natOfDigits?_toDigits (n : Nat) : natOfDigits? (Nat.toDigits 10 n) = some n := by
  have hdigits : (Nat.toDigits 10 n).all Char.isDigit = true :=
    List.all_eq_true.2 fun c hc => Nat.isDigit_of_mem_toDigits (by decide) (by decide) hc
  have hne : Nat.toDigits 10 n ≠ [] := Nat.toDigits_ne_nil
  simp [natOfDigits?, hdigits, hne, natOfDigits_toDigits]

theorem exists_cons_toDigits (n : Nat) :
    ∃ c cs, Nat.toDigits 10 n = c :: cs ∧ c.isDigit = true := by
  obtain ⟨c, cs, hcs⟩ := List.exists_cons_of_ne_nil (Nat.toDigits_ne_nil (n := n) (b := 10))
  refine ⟨c, cs, hcs, Nat.isDigit_of_mem_toDigits (b := 10) (n := n) (by decide) (by decide) ?_⟩
  rw [hcs]
  exact List.mem_cons_self

/-- Digits without a sign are a natural number. -/
theorem int?_of_isDigit (hc : c.isDigit = true) :
    int? (c :: cs) = (natOfDigits? (c :: cs)).map Int.ofNat := by
  rw [int?]
  · rintro ds heq
    obtain rfl := (List.cons.inj heq).1
    cases hc
  · rintro ds heq
    obtain rfl := (List.cons.inj heq).1
    cases hc

/-- **An integer is read back.** -/
theorem int?_toString (i : Int) : int? (toString i).toList = some i := by
  rw [Int.toString_eq_repr]
  cases i with
  | ofNat n =>
    obtain ⟨c, cs, hcs, hc⟩ := exists_cons_toDigits n
    rw [Int.repr, Nat.toList_repr, hcs, int?_of_isDigit hc, ← hcs, natOfDigits?_toDigits]
    rfl
  | negSucc n =>
    rw [Int.repr, String.toList_append, Nat.toList_repr]
    change int? ('-' :: Nat.toDigits 10 (n + 1)) = _
    rw [int?, natOfDigits?_toDigits]
    rfl

theorem int64?_toString (i : Int64) : int64? (toString i.toInt).toList = some i.toInt := by
  have hleast := i.le_toInt
  have hgreatest := i.toInt_lt
  rw [int64?, intWithin?, int?_toString, Option.filter_some, if_pos]
  rw [leastInt64, greatestInt64, Bool.and_eq_true, decide_eq_true_eq, decide_eq_true_eq]
  omega

/-! ### Integers as decimal numbers -/

/-- What is read as a natural number is nothing but digits. -/
theorem digits_of_natOfDigits? {n : Nat} (h : natOfDigits? cs = some n) :
    cs.takeWhile Char.isDigit = cs ∧ cs.dropWhile Char.isDigit = [] ∧ cs.isEmpty = false ∧
      natOfDigits cs = n := by
  obtain ⟨hne, hdigits⟩ := natOfDigits?_isSome_iff.1 (Option.isSome_of_eq_some h)
  have hall : ∀ c ∈ cs, c.isDigit = true := List.all_eq_true.1 hdigits
  refine ⟨List.takeWhile_eq_self_iff.2 hall, List.dropWhile_eq_nil_iff.2 hall,
    List.isEmpty_eq_false_iff.2 hne, ?_⟩
  rw [natOfDigits?, if_neg (by simp [hne, hdigits])] at h
  exact Option.some.inj h

/-- An integer is a decimal number without a fraction and without an exponent. -/
theorem written?_of_int? {i : Int} (h : int? cs = some i) :
    ∃ negative, written? cs = some ⟨negative, i.natAbs, 0⟩ ∧ (negative = true → i ≤ 0) := by
  unfold int? at h
  split at h
  · rename_i ds
    obtain ⟨k, hk, rfl⟩ := Option.map_eq_some_iff.1 h
    obtain ⟨n, hn, hk⟩ := Option.bind_eq_some_iff.1 hk
    obtain rfl := Option.some.inj hk
    obtain ⟨htake, hdrop, hne, hvalue⟩ := digits_of_natOfDigits? hn
    refine ⟨true, ?_, fun _ => by omega⟩
    simp [written?, htake, hdrop, hne, hvalue, exponent?]
  · rename_i ds
    obtain ⟨n, hn, rfl⟩ := Option.map_eq_some_iff.1 h
    obtain ⟨htake, hdrop, hne, hvalue⟩ := digits_of_natOfDigits? hn
    refine ⟨false, ?_, nofun⟩
    simp [written?, htake, hdrop, hne, hvalue, exponent?]
  · rename_i ds hminus hplus
    obtain ⟨n, hn, rfl⟩ := Option.map_eq_some_iff.1 h
    obtain ⟨htake, hdrop, hne, hvalue⟩ := digits_of_natOfDigits? hn
    refine ⟨false, ?_, nofun⟩
    unfold written?
    split
    rename_i negative unsigned hsign
    -- there is no sign to cut off
    split at hsign
    · exact (hminus _ rfl).elim
    · exact (hplus _ rfl).elim
    · cases hsign
      simp [htake, hdrop, hne, hvalue, exponent?]

/-- A positive integer that 64 bits hold is rounded when it is read as a decimal number. -/
theorem binary64?_of_int? {i : Int} (h : int? cs = some i) (hlow : 0 < i) (hhigh : i < 2 ^ 64) :
    binary64? cs = Binary64.ofInt i := by
  obtain ⟨negative, hwritten, hnegative⟩ := written?_of_int? h
  have hsign : negative = false := by
    rw [← Bool.not_eq_true]
    intro htrue
    have hle := hnegative htrue
    omega
  have hsize : (Nat.toDigits 10 i.natAbs).length ≤ 20 := by
    rw [Nat.length_toDigits_le_iff (by decide) (by decide)]
    omega
  -- the exponent is zero and the digits are few, so nothing is out of range
  rw [binary64?, hwritten, Option.bind_some, Binary64.ofDecimal]
  dsimp only
  rw [if_neg (by omega), if_neg (by omega), if_neg (by omega), if_pos (by omega), hsign,
    Binary64.ofInt, decide_eq_false (by omega)]
  exact congrArg (Binary64.nearest false · 1) (Nat.mul_one _)

/-! ### The characters of a number -/

/-- The characters of numbers: digits, signs, the point and the mark of the exponent. -/
def isNumeralChar (c : Char) : Bool :=
  c.isDigit || ['+', '-', '.', 'e', 'E'].contains c

theorem isNumeralChar_of_isDigit (h : c.isDigit = true) : isNumeralChar c = true := by
  rw [isNumeralChar, h, Bool.true_or]

theorem isNumeralChar_of_natOfDigits? {n : Nat} (h : natOfDigits? cs = some n) :
    ∀ c ∈ cs, isNumeralChar c = true := by
  have hdigits := (natOfDigits?_isSome_iff.1 (Option.isSome_of_eq_some h)).2
  exact fun c hc => isNumeralChar_of_isDigit (List.all_eq_true.1 hdigits c hc)

theorem isNumeralChar_of_int? {i : Int} (h : int? cs = some i) :
    ∀ c ∈ cs, isNumeralChar c = true := by
  unfold int? at h
  split at h
  · obtain ⟨i, hi, -⟩ := Option.map_eq_some_iff.1 h
    obtain ⟨n, hn, -⟩ := Option.bind_eq_some_iff.1 hi
    exact List.forall_mem_cons.2 ⟨rfl, isNumeralChar_of_natOfDigits? hn⟩
  · obtain ⟨n, hn, -⟩ := Option.map_eq_some_iff.1 h
    exact List.forall_mem_cons.2 ⟨rfl, isNumeralChar_of_natOfDigits? hn⟩
  · obtain ⟨n, hn, -⟩ := Option.map_eq_some_iff.1 h
    exact isNumeralChar_of_natOfDigits? hn

theorem isNumeralChar_of_int64? {i : Int} (h : int64? cs = some i) :
    ∀ c ∈ cs, isNumeralChar c = true :=
  isNumeralChar_of_int? (Option.filter_eq_some_iff.1 h).1

theorem isNumeralChar_of_exponent? {e : Int} (h : exponent? cs = some e) :
    ∀ c ∈ cs, isNumeralChar c = true := by
  cases cs with
  | nil => simp
  | cons c ds =>
    obtain ⟨hc, hds⟩ := Option.ite_none_right_eq_some.1 h
    refine List.forall_mem_cons.2 ⟨?_, isNumeralChar_of_int? hds⟩
    rcases hc with rfl | rfl <;> rfl

theorem forall_of_dropWhile (h : ∀ c ∈ cs.dropWhile Char.isDigit, isNumeralChar c = true) :
    ∀ c ∈ cs, isNumeralChar c = true := by
  rw [← List.takeWhile_append_dropWhile (p := Char.isDigit) (l := cs)]
  refine List.forall_mem_append.2 ⟨fun c hc => ?_, h⟩
  exact isNumeralChar_of_isDigit (List.all_eq_true.1 List.all_takeWhile c hc)

theorem isNumeralChar_of_written? {w : Written} (h : written? cs = some w) :
    ∀ c ∈ cs, isNumeralChar c = true := by
  unfold written? at h
  split at h
  rename_i negative unsigned hsign
  -- behind the digits there are a point, digits and the exponent, or the exponent alone
  have hrest : ∀ c ∈ unsigned.dropWhile Char.isDigit, isNumeralChar c = true := by
    dsimp only at h
    split at h
    · rename_i rest hpoint
      obtain ⟨e, he, -⟩ := Option.map_eq_some_iff.1 (Option.ite_none_left_eq_some.1 h).2
      rw [hpoint]
      exact List.forall_mem_cons.2 ⟨rfl, forall_of_dropWhile (isNumeralChar_of_exponent? he)⟩
    · obtain ⟨e, he, -⟩ := Option.map_eq_some_iff.1 (Option.ite_none_left_eq_some.1 h).2
      exact isNumeralChar_of_exponent? he
  have hunsigned := forall_of_dropWhile hrest
  split at hsign <;> cases hsign
  · exact List.forall_mem_cons.2 ⟨rfl, hunsigned⟩
  · exact List.forall_mem_cons.2 ⟨rfl, hunsigned⟩
  · exact hunsigned

theorem isNumeralChar_of_binary64? {x : Binary64} (h : binary64? cs = some x) :
    ∀ c ∈ cs, isNumeralChar c = true := by
  obtain ⟨w, hw, -⟩ := Option.bind_eq_some_iff.1 h
  exact isNumeralChar_of_written? hw

end Syndication.Decimal
