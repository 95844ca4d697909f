import Mathlib.Data.List.Basic
import Mathlib.Data.List.TakeWhile
import Syndication.Json.Parser
import Syndication.Json.Printer
import Syndication.Proofs.Decimal.Numerals

/-!
# Numbers in a JSON text

The text of a number consists of a sign, digits, a fraction and an exponent. What is scanned where a
number is written are the same parts, whatever follows it that does not go on with the number.

* `NumberText.chars`, `NumberText.WellFormed`: the text of a number from its parts.
* `scanNumber_chars`: the parts are found again.
-/

namespace Syndication.Json

variable {cs ds rest : List Char}

/-! ### Runs of digits -/

/-- A run of what has a property ends where something follows that has it not. -/
theorem takeWhile_append_of_stops {p : Char → Bool} {ds rest : List Char} (hds : ∀ c ∈ ds, p c = true)
    (hrest : ∀ c ∈ rest.head?, p c = false) :
    (ds ++ rest).takeWhile p = ds ∧ (ds ++ rest).dropWhile p = rest := by
  rw [List.takeWhile_append_of_pos hds, List.dropWhile_append_of_pos hds]
  cases rest with
  | nil => exact ⟨List.append_nil ds, rfl⟩
  | cons c rest =>
    have hc : p c = false := hrest c rfl
    rw [List.takeWhile_cons_of_neg (by simp [hc]), List.dropWhile_cons_of_neg (by simp [hc])]
    exact ⟨List.append_nil ds, rfl⟩

/-- **A run of digits**, at least one. -/
structure Digits (ds : List Char) : Prop where
  ne_nil : ds ≠ []
  digit : ∀ c ∈ ds, c.isDigit = true

theorem digits_toDigits (n : Nat) : Digits (Nat.toDigits 10 n) where
  ne_nil := Nat.toDigits_ne_nil
  digit _ := Nat.isDigit_of_mem_toDigits (by decide) (by decide)

theorem Digits.isEmpty (h : Digits ds) : ds.isEmpty = false :=
  List.isEmpty_eq_false_iff.2 h.ne_nil

/-- Only zero is written with a zero in front. -/
theorem head?_toDigits {n : Nat} (hn : n ≠ 0) : (Nat.toDigits 10 n).head? ≠ some '0' := by
  induction n using Nat.strongRecOn with
  | ind n ih =>
    rw [Nat.toDigits_eq_if (by decide)]
    split
    · rename_i hlt
      have hall : ∀ n < 10, n ≠ 0 → Nat.digitChar n ≠ '0' := by decide
      simpa using hall n hlt hn
    · have hquotient : n / 10 ≠ 0 := by omega
      rw [List.head?_append_of_ne_nil _ Nat.toDigits_ne_nil]
      exact ih _ (by omega) hquotient

/-! ### The parts of a number -/

namespace NumberText

/-- The text of an exponent, with its sign. -/
def exponentChars (e : Int) : List Char :=
  'e' :: (if e < 0 then '-' else '+') :: Nat.toDigits 10 e.natAbs

/-- The text of a number without its sign. -/
def unsignedChars (t : NumberText) : List Char :=
  t.whole ++ (t.fraction.elim [] ('.' :: ·) ++ t.exponent.elim [] exponentChars)

/-- **The text of a number from its parts.** -/
def chars (t : NumberText) : List Char :=
  if t.negative then '-' :: t.unsignedChars else t.unsignedChars

/-- **The parts of a number as JSON wants them**: no zero in front but a single one, and no point
without digits behind it. -/
structure WellFormed (t : NumberText) : Prop where
  whole : Digits t.whole
  zero : t.whole.head? = some '0' → t.whole.length = 1
  fraction : ∀ f ∈ t.fraction, Digits f

end NumberText

/-- Nothing goes on with a number here. -/
def EndsNumber (rest : List Char) : Prop :=
  ∀ c ∈ rest.head?, c.isDigit = false ∧ c ≠ '.' ∧ c ≠ 'e' ∧ c ≠ 'E'

theorem endsNumber_nil : EndsNumber [] := nofun

/-- An exponent is found again, with its sign. -/
theorem scanExponent_exponentChars (hrest : EndsNumber rest) (e : Int) :
    scanExponent ((if e < 0 then '-' else '+') :: (Nat.toDigits 10 e.natAbs ++ rest)) =
      some (e, rest) := by
  have hdigits := digits_toDigits e.natAbs
  obtain ⟨htake, hdrop⟩ := takeWhile_append_of_stops hdigits.digit
    fun c hc => (hrest c hc).1
  have hread := Decimal.natOfDigits_toDigits e.natAbs
  unfold scanExponent
  by_cases hneg : e < 0
  · have hvalue : -((e.natAbs : Nat) : Int) = e := by omega
    generalize e.natAbs = n at htake hdrop hdigits hvalue hread ⊢
    simp [hneg, htake, hdrop, hdigits.isEmpty, hread, hvalue]
  · have hvalue : ((e.natAbs : Nat) : Int) = e := by omega
    generalize e.natAbs = n at htake hdrop hdigits hvalue hread ⊢
    simp [hneg, htake, hdrop, hdigits.isEmpty, hread, hvalue]

/-- Neither digits nor a fraction go on here. -/
def EndsFraction (rest : List Char) : Prop :=
  ∀ c ∈ rest.head?, c.isDigit = false ∧ c ≠ '.'

theorem EndsNumber.endsFraction (h : EndsNumber rest) : EndsFraction rest :=
  fun c hc => ⟨(h c hc).1, (h c hc).2.1⟩

/-- A fraction is found again, and where there is none, none is found. -/
theorem scanFraction_append {fraction : Option (List Char)} (h : ∀ f ∈ fraction, Digits f)
    (hrest : EndsFraction rest) :
    scanFraction (fraction.elim [] ('.' :: ·) ++ rest) = some (fraction, rest) := by
  cases fraction with
  | none =>
    rw [Option.elim_none, List.nil_append, scanFraction.eq_def]
    split
    · exact absurd rfl (hrest _ rfl).2
    · rfl
  | some f =>
    have hf : Digits f := h f rfl
    obtain ⟨htake, hdrop⟩ := takeWhile_append_of_stops hf.digit fun c hc => (hrest c hc).1
    rw [Option.elim_some, List.cons_append, scanFraction]
    simp [htake, hdrop, hf.isEmpty]

/-- The parts behind the sign are found again. -/
theorem scanUnsigned_append {t : NumberText} (h : t.WellFormed) (hrest : EndsNumber rest) :
    scanUnsigned t.negative (t.unsignedChars ++ rest) = some (t, rest) := by
  obtain ⟨negative, whole, fraction, exponent⟩ := t
  obtain ⟨hwhole, hzero, hfraction⟩ := h
  dsimp only at hwhole hzero hfraction
  -- behind the fraction stands the exponent, or what follows the number
  have htail : EndsFraction (exponent.elim [] NumberText.exponentChars ++ rest) := by
    cases exponent with
    | none => exact hrest.endsFraction
    | some e =>
      intro c hc
      obtain rfl : 'e' = c := Option.some.inj hc
      exact ⟨rfl, by decide⟩
  have hbehind : ∀ c ∈ (fraction.elim [] ('.' :: ·) ++
      (exponent.elim [] NumberText.exponentChars ++ rest)).head?, c.isDigit = false := by
    cases fraction with
    | none => exact fun c hc => (htail c hc).1
    | some f =>
      intro c hc
      obtain rfl : '.' = c := Option.some.inj hc
      rfl
  obtain ⟨htake, hdrop⟩ := takeWhile_append_of_stops hwhole.digit hbehind
  have halone : (whole.head? == some '0' && decide (whole.length ≠ 1)) = false := by
    by_cases hhead : whole.head? = some '0'
    · rw [decide_eq_false (not_not_intro (hzero hhead)), Bool.and_false]
    · rw [beq_eq_false_iff_ne.2 hhead, Bool.false_and]
  rw [scanUnsigned, NumberText.unsignedChars, List.append_assoc, List.append_assoc, htake, hdrop,
    hwhole.isEmpty, halone, scanFraction_append hfraction htail]
  simp only [Bool.or_self, Bool.false_eq_true, if_false, Option.bind_some]
  cases exponent with
  | none =>
    rw [Option.elim_none, List.nil_append]
    split
    · exact absurd rfl (hrest _ rfl).2.2.1
    · exact absurd rfl (hrest _ rfl).2.2.2
    · rfl
  | some e =>
    show (scanExponent ((if e < 0 then '-' else '+') :: (Nat.toDigits 10 e.natAbs ++ rest))).map _ = _
    rw [scanExponent_exponentChars hrest]
    rfl

/-- **A number is found again**, whatever follows that does not go on with it. -/
theorem scanNumber_chars {t : NumberText} (h : t.WellFormed) (hrest : EndsNumber rest) :
    scanNumber (t.chars ++ rest) = some (t, rest) := by
  have hunsigned := scanUnsigned_append h hrest
  unfold NumberText.chars
  cases hnegative : t.negative with
  | true => rwa [hnegative] at hunsigned
  | false =>
    rw [hnegative] at hunsigned
    rw [if_neg Bool.false_ne_true, scanNumber.eq_def]
    split
    · -- the first character is a digit
      rename_i r heq
      obtain ⟨c, whole, hwhole⟩ := List.exists_cons_of_ne_nil h.whole.ne_nil
      rw [NumberText.unsignedChars, hwhole] at heq
      have hdigit := h.whole.digit c (by simp [hwhole])
      obtain rfl := (List.cons.inj heq).1
      cases hdigit
    · exact hunsigned

end Syndication.Json
