import Syndication.Proofs.Decimal.Shortest
import Syndication.Proofs.Json.Numerals

/-!
# Numbers of double precision in a JSON text

A number of double precision is written with a fraction or an exponent, so that it is not taken for
an integer. When it is read, the digits and the power of ten are each rounded and then multiplied or
divided. This may give a neighbour of the number, but it does not overflow: what is written is at
most half a unit too large, each of the two roundings adds one part in `2 ^ 53`, and that is too much for
the two greatest numbers only, which are read by themselves.

* `exists_writes_doubleChars`: the parts of what is written.
* `scaled_isSome`: when a significand and a power of ten do not overflow.
* `double?_isSome`: what is written for a number of double precision is read as one.
-/

namespace Syndication.Json

open Decimal (natOfDigits natOfDigits_append natOfDigits_toDigits natOfDigits_zeros)

/-! ### What is written -/

/-- **The parts that write a decimal number**, with a fraction or an exponent. -/
structure NumberText.Writes (t : NumberText) (d : Decimal) : Prop where
  wellFormed : t.WellFormed
  noInteger : (t.fraction.isSome || t.exponent.isSome) = true
  /-- The whole part fits 64 bits. -/
  few : t.whole.length ≤ 16
  value : (natOfDigits (t.whole ++ t.fraction.getD []) : ℚ) *
    10 ^ (t.exponent.getD 0 - (t.fraction.getD []).length) = d.toRat

variable {d : Decimal}

theorem Digits.append {cs ds : List Char} (h : Digits cs) (hds : ∀ c ∈ ds, c.isDigit = true) :
    Digits (cs ++ ds) where
  ne_nil := List.append_ne_nil_of_left_ne_nil h.ne_nil ds
  digit := List.forall_mem_append.2 ⟨h.digit, hds⟩

/-- Digits with zeros behind them. -/
theorem exists_writes_of_nonneg (hd : d = ⟨0, 0⟩ ∨ d.digits ≠ 0) (he : 0 ≤ d.exponent)
    (hfew : d.leadingExponent ≤ 15) (negative : Bool) :
    ∃ t : NumberText, t.Writes d ∧ t.negative = negative ∧
      t.unsignedChars = d.positional ++ ['.', '0'] := by
  have hdigits : Digits d.digitChars := digits_toDigits d.digits
  have hzeros : ∀ c ∈ List.replicate d.exponent.toNat '0', c.isDigit = true := by
    intro c hc
    rw [List.eq_of_mem_replicate hc]
    rfl
  -- digits that are not zero have no zero ahead, and zero itself has one digit
  have hzero : (d.digitChars ++ List.replicate d.exponent.toNat '0').head? = some '0' →
      (d.digitChars ++ List.replicate d.exponent.toNat '0').length = 1 := by
    intro hhead
    rw [List.head?_append_of_ne_nil _ hdigits.ne_nil] at hhead
    rcases hd with rfl | hne
    · rfl
    · exact absurd hhead (head?_toDigits hne)
  have hlength : (d.digitChars ++ List.replicate d.exponent.toNat '0').length ≤ 16 := by
    rw [Decimal.leadingExponent] at hfew
    rw [List.length_append, List.length_replicate]
    omega
  have hvalue : (natOfDigits (d.digitChars ++ List.replicate d.exponent.toNat '0' ++ ['0']) : ℚ) *
      10 ^ (0 - ((['0'] : List Char).length : Int)) = d.toRat := by
    obtain ⟨n, hn⟩ := Int.eq_ofNat_of_zero_le he
    have hnat : natOfDigits (d.digitChars ++ List.replicate d.exponent.toNat '0' ++ ['0']) =
        d.digits * 10 ^ n * 10 := by
      rw [natOfDigits_append, natOfDigits_append, Decimal.digitChars, natOfDigits_toDigits,
        natOfDigits_zeros, List.length_replicate, hn]
      rfl
    rw [hnat, Decimal.toRat, hn]
    push_cast
    norm_num
    ring
  refine ⟨⟨negative, d.digitChars ++ List.replicate d.exponent.toNat '0', some ['0'], none⟩,
    ⟨⟨hdigits.append hzeros, hzero, ?_⟩, rfl, hlength, hvalue⟩, rfl, ?_⟩
  · rintro f ⟨⟩
    exact ⟨List.cons_ne_nil _ _, List.forall_mem_singleton.2 rfl⟩
  · rw [Decimal.positional, if_pos he]
    rfl

theorem Digits.take {ds : List Char} (h : Digits ds) {n : Nat} (hn : n ≠ 0) :
    Digits (ds.take n) where
  ne_nil := by simp [hn, h.ne_nil]
  digit c hc := h.digit c (List.mem_of_mem_take hc)

theorem Digits.drop {ds : List Char} (h : Digits ds) {n : Nat} (hn : n < ds.length) :
    Digits (ds.drop n) where
  ne_nil := by simpa using hn
  digit c hc := h.digit c (List.mem_of_mem_drop hc)

/-- Digits that are fewer than the places have zeros before them. -/
theorem positional_of_few {places : Nat} (he : -d.exponent = places) (hpos : 0 < places)
    (hfew : d.digitChars.length ≤ places) :
    d.positional =
      ['0'] ++ '.' :: (List.replicate (places - d.digitChars.length) '0' ++ d.digitChars) := by
  have hzeros : places + 1 - d.digitChars.length = places - d.digitChars.length + 1 := by omega
  have hlength : (List.replicate (places - d.digitChars.length + 1) '0' ++ d.digitChars).length -
      places = 1 := by
    rw [List.length_append, List.length_replicate]
    omega
  rw [Decimal.positional, if_neg (by omega), he, Int.toNat_natCast]
  dsimp only
  rw [hzeros, hlength, List.replicate_succ, List.cons_append]
  rfl

/-- The point stands among digits that are more than the places. -/
theorem positional_of_many {places : Nat} (he : -d.exponent = places) (hpos : 0 < places)
    (hmany : places < d.digitChars.length) :
    d.positional = d.digitChars.take (d.digitChars.length - places) ++
      '.' :: d.digitChars.drop (d.digitChars.length - places) := by
  have hzeros : places + 1 - d.digitChars.length = 0 := by omega
  rw [Decimal.positional, if_neg (by omega), he, Int.toNat_natCast]
  dsimp only
  rw [hzeros]
  rfl

/-- A point with as many digits behind it as there are places. -/
theorem exists_positional (hne : d.digits ≠ 0) (he : d.exponent < 0) :
    ∃ whole fraction, d.positional = whole ++ '.' :: fraction ∧ Digits whole ∧ Digits fraction ∧
      (whole.head? = some '0' → whole.length = 1) ∧ (fraction.length : Int) = -d.exponent ∧
      (whole.length = 1 ∨ (whole.length : Int) = d.leadingExponent + 1) ∧
      natOfDigits (whole ++ fraction) = d.digits := by
  have hdigits : Digits d.digitChars := digits_toDigits d.digits
  have hnat : natOfDigits d.digitChars = d.digits := natOfDigits_toDigits d.digits
  obtain ⟨places, hplaces⟩ := Int.eq_ofNat_of_zero_le (show 0 ≤ -d.exponent by omega)
  have hpos : 0 < places := by omega
  by_cases hfew : d.digitChars.length ≤ places
  · -- `0.00…` and the digits
    have hzeros : ∀ c ∈ List.replicate (places - d.digitChars.length) '0', c.isDigit = true := by
      intro c hc
      rw [List.eq_of_mem_replicate hc]
      rfl
    refine ⟨_, _, positional_of_few hplaces hpos hfew,
      ⟨List.cons_ne_nil _ _, List.forall_mem_singleton.2 rfl⟩,
      ⟨List.append_ne_nil_of_right_ne_nil _ hdigits.ne_nil,
        List.forall_mem_append.2 ⟨hzeros, hdigits.digit⟩⟩, fun _ => rfl, ?_, .inl rfl, ?_⟩
    · rw [List.length_append, List.length_replicate]
      omega
    · rw [natOfDigits_append, natOfDigits_append, natOfDigits_zeros, hnat]
      simp [natOfDigits, Decimal.digitValue]
  · -- the digits are cut in two
    have hwhole : d.digitChars.length - places ≠ 0 := by omega
    refine ⟨_, _, positional_of_many hplaces hpos (by omega), hdigits.take hwhole,
      hdigits.drop (by omega), ?_, ?_, .inr ?_, ?_⟩
    · rw [List.head?_take, if_neg hwhole]
      exact fun hhead => absurd hhead (head?_toDigits hne)
    · rw [List.length_drop]
      omega
    · rw [List.length_take, Decimal.leadingExponent]
      omega
    · rw [List.take_append_drop, hnat]

/-- Digits with a point among them, or before them and then with zeros. -/
theorem exists_writes_of_neg (hne : d.digits ≠ 0) (he : d.exponent < 0)
    (hfew : d.leadingExponent ≤ 15) (negative : Bool) :
    ∃ t : NumberText, t.Writes d ∧ t.negative = negative ∧ t.unsignedChars = d.positional := by
  obtain ⟨whole, fraction, hpositional, hwhole, hfraction, hzero, hplaces, hlength, hnat⟩ :=
    exists_positional hne he
  refine ⟨⟨negative, whole, some fraction, none⟩, ⟨⟨hwhole, hzero, ?_⟩, rfl, ?_, ?_⟩, rfl, ?_⟩
  · rintro f ⟨⟩
    exact hfraction
  · show whole.length ≤ 16
    omega
  · show (natOfDigits (whole ++ fraction) : ℚ) * 10 ^ (0 - (fraction.length : Int)) = d.toRat
    rw [hnat, hplaces, Decimal.toRat, zero_sub, neg_neg]
  · rw [hpositional, NumberText.unsignedChars]
    simp

/-- One digit before the point, and an exponent. -/
theorem exists_writes_scientific (d : Decimal) (negative : Bool) :
    ∃ t : NumberText, t.Writes d ∧ t.negative = negative ∧ t.unsignedChars = d.scientific := by
  have hdigits : Digits d.digitChars := digits_toDigits d.digits
  obtain ⟨c, tail, hchars⟩ := List.exists_cons_of_ne_nil hdigits.ne_nil
  have hc : c.isDigit = true := hdigits.digit c (by rw [hchars]; exact List.mem_cons_self)
  have htail : ∀ c ∈ tail, c.isDigit = true := fun c hc =>
    hdigits.digit c (by rw [hchars]; exact List.mem_cons_of_mem _ hc)
  have hnat : natOfDigits (c :: tail) = d.digits := by
    rw [← hchars, Decimal.digitChars, natOfDigits_toDigits]
  have hlead : d.leadingExponent - (tail.length : Int) = d.exponent := by
    rw [Decimal.leadingExponent, hchars, List.length_cons]
    push_cast
    omega
  have hscientific : d.scientific = c :: ((if tail.isEmpty then [] else '.' :: tail) ++
      NumberText.exponentChars d.leadingExponent) := by
    rw [Decimal.scientific, hchars]
    rfl
  refine ⟨⟨negative, [c], if tail.isEmpty then none else some tail, some d.leadingExponent⟩,
    ⟨⟨⟨List.cons_ne_nil _ _, ?_⟩, fun _ => rfl, ?_⟩, ?_, ?_, ?_⟩, rfl, ?_⟩
  · exact List.forall_mem_singleton.2 hc
  · intro f hf
    cases tail with
    | nil => cases hf
    | cons c' tail =>
      cases hf
      exact ⟨List.cons_ne_nil _ _, htail⟩
  · exact Bool.or_true _
  · show 1 ≤ 16
    decide
  · have hgetD : (if tail.isEmpty = true then none else some tail).getD [] = tail := by
      cases tail <;> rfl
    show (natOfDigits ([c] ++ (if tail.isEmpty = true then none else some tail).getD []) : ℚ) *
      10 ^ (d.leadingExponent -
        (((if tail.isEmpty = true then none else some tail).getD []).length : Int)) = d.toRat
    rw [hgetD, hlead, List.singleton_append, hnat, Decimal.toRat]
  · rw [hscientific]
    cases tail <;> rfl

/-- **What is written for a number of double precision** has parts that write its shortest decimal
number. -/
theorem exists_writes_doubleChars (x : Binary64) :
    ∃ t : NumberText, t.Writes x.shortest ∧ t.negative = x.negative ∧ t.chars = doubleChars x := by
  have hparts : ∃ t : NumberText, t.Writes x.shortest ∧ t.negative = x.negative ∧
      t.unsignedChars = if writtenPositionally x.shortest.leadingExponent then
        x.shortest.positional ++ if 0 ≤ x.shortest.exponent then ['.', '0'] else []
        else x.shortest.scientific := by
    have hdigits : x.shortest = ⟨0, 0⟩ ∨ x.shortest.digits ≠ 0 :=
      x.shortest_bounds.imp_right And.left
    by_cases hwritten : writtenPositionally x.shortest.leadingExponent = true
    · have hfew : x.shortest.leadingExponent ≤ 15 :=
        of_decide_eq_true (Bool.and_eq_true_iff.1 hwritten).2
      rw [if_pos hwritten]
      by_cases he : 0 ≤ x.shortest.exponent
      · rw [if_pos he]
        exact exists_writes_of_nonneg hdigits he hfew x.negative
      · -- zero has the exponent zero, so it is not written in this way
        have hne : x.shortest.digits ≠ 0 := by
          refine hdigits.resolve_left fun hzero => he ?_
          rw [hzero]
        rw [if_neg he, List.append_nil]
        exact exists_writes_of_neg hne (Int.not_le.1 he) hfew x.negative
    · rw [if_neg hwritten]
      exact exists_writes_scientific x.shortest x.negative
  obtain ⟨t, ht, hnegative, hchars⟩ := hparts
  refine ⟨t, ht, hnegative, ?_⟩
  rw [NumberText.chars, hnegative, hchars]
  rfl

/-! ### Powers of ten -/

namespace NumberText

open Binary64 (overflow toRat)

/-- A power of ten of double precision. -/
def power (k : Nat) : Option Binary64 :=
  Binary64.ofDecimal false 1 k

theorem power_eq_nearest {k : Nat} (hk : k ≤ 308) :
    power k = Binary64.nearest false (10 ^ k) 1 := by
  have hsize : (Nat.toDigits 10 1).length = 1 := rfl
  rw [power, Binary64.ofDecimal, if_neg Nat.one_ne_zero, hsize, if_neg (by omega),
    if_neg (by omega), if_pos (by omega), Int.toNat_natCast, Nat.one_mul]
  rfl

theorem overflow_eq : overflow = (((2 ^ 54 - 1) * 2 ^ 970 : Nat) : ℚ) := by
  have hpow : (2 : ℚ) ^ Binary64.greatestExponent = 2 ^ 970 * 2 :=
    zpow_add_one₀ two_ne_zero 970
  have hcast : ((2 ^ 970 : Nat) : ℚ) = 2 ^ 970 := Nat.cast_pow 2 970
  rw [overflow, hpow, Nat.cast_mul, hcast]
  generalize (2 : ℚ) ^ 970 = p
  norm_num
  ring

theorem lt_overflow {n : Nat} (h : n < (2 ^ 54 - 1) * 2 ^ 970) : (n : ℚ) < overflow := by
  rw [overflow_eq]
  exact Nat.cast_lt.2 h

theorem overflow_le : overflow ≤ 10 ^ (309 : Int) := by
  have hnat : (2 ^ 54 - 1) * 2 ^ 970 ≤ 10 ^ 309 := by decide +kernel
  have hcast : ((10 ^ 309 : Nat) : ℚ) = 10 ^ (309 : Int) := Nat.cast_pow 10 309
  rw [overflow_eq, ← hcast]
  exact Nat.cast_le.2 hnat

/-- The powers of ten that are used do not overflow. -/
theorem exists_power {k : Nat} (hk : k ≤ 308) :
    ∃ p, power k = some p ∧ p.toRat ≤ 10 ^ k * (1 + 1 / 2 ^ 53) ∧ 10 ^ k / 2 ≤ p.toRat := by
  have hcast : ((10 ^ k : Nat) : ℚ) / ((1 : Nat) : ℚ) = 10 ^ k := by
    rw [Nat.cast_one, div_one, Nat.cast_pow]
    rfl
  have hless : 10 ^ k < (2 ^ 54 - 1) * 2 ^ 970 :=
    calc 10 ^ k
      _ ≤ 10 ^ 308 := Nat.pow_le_pow_right (by decide) hk
      _ < (2 ^ 54 - 1) * 2 ^ 970 := by decide +kernel
  have hsome : (power k).isSome = true := by
    rw [power_eq_nearest hk]
    refine Binary64.nearest_isSome false Nat.one_pos ?_
    rw [Nat.cast_one, div_one]
    exact lt_overflow hless
  obtain ⟨p, hp⟩ := Option.isSome_iff_exists.1 hsome
  have hnearest := hp
  rw [power_eq_nearest hk] at hnearest
  have hone : 1 ≤ ((10 ^ k : Nat) : ℚ) / ((1 : Nat) : ℚ) := by
    rw [hcast]
    exact one_le_pow₀ (by norm_num)
  have hbounds := Binary64.toRat_of_nearest Nat.one_pos hone hnearest
  rw [hcast] at hbounds
  exact ⟨p, hp, hbounds⟩

/-! ### Reading -/

variable {significand : Nat} {e : Int}

theorem ofNat_bounds {f : Binary64} (hf : Binary64.ofNat significand = some f)
    (hzero : f.isZero = false) :
    1 ≤ significand ∧ f.toRat ≤ significand * (1 + 1 / 2 ^ 53) := by
  have hone : 1 ≤ significand := by
    refine Nat.pos_of_ne_zero ?_
    rintro rfl
    obtain rfl := Option.some.inj hf
    cases hzero
  have hcast : ((significand : Nat) : ℚ) / ((1 : Nat) : ℚ) = significand := by
    rw [Nat.cast_one, div_one]
  have hone' : 1 ≤ ((significand : Nat) : ℚ) / ((1 : Nat) : ℚ) := by
    rw [hcast]
    exact_mod_cast hone
  obtain ⟨hle, -⟩ := Binary64.toRat_of_nearest Nat.one_pos hone' hf
  exact ⟨hone, hcast ▸ hle⟩

/-- A significand is multiplied by a power of ten. -/
theorem mul_power_isSome {f : Binary64} (hf : f.toRat ≤ significand * (1 + 1 / 2 ^ 53)) {k : Nat}
    (hk : k ≤ 308) (h : (significand : ℚ) * 10 ^ k * (1 + 1 / 2 ^ 53) ^ 2 < overflow) :
    ((power k).bind f.mul).isSome = true := by
  obtain ⟨p, hp, hle, -⟩ := exists_power hk
  rw [hp, Option.bind_some]
  refine Binary64.mul_isSome (lt_of_le_of_lt ?_ h)
  have hnonneg := Binary64.toRat_nonneg p
  calc f.toRat * p.toRat
    _ ≤ significand * (1 + 1 / 2 ^ 53) * (10 ^ k * (1 + 1 / 2 ^ 53)) := by gcongr
    _ = significand * 10 ^ k * (1 + 1 / 2 ^ 53) ^ 2 := by ring

/-- Division by a power of ten that is not one never overflows. -/
theorem exists_div_power {f : Binary64} (hf : f.Representable) {k : Nat} (hk : k ≤ 308)
    (hpos : 0 < k) : ∃ g, (power k).bind f.div = some g ∧ g.Representable := by
  obtain ⟨p, hp, -, hle⟩ := exists_power hk
  -- the rounded power of ten is at least half of the true one, hence at least two
  have hten : (10 : ℚ) ^ 1 ≤ 10 ^ k := pow_le_pow_right₀ (by norm_num) hpos
  have htwo : 2 ≤ p.toRat := by linarith
  obtain ⟨g, hg⟩ := Option.isSome_iff_exists.1 (Binary64.div_isSome hf htwo)
  exact ⟨g, by rw [hp, Option.bind_some, hg], Binary64.representable_of_div (by linarith) hg⟩

theorem scaled_eq (significand : Nat) (e : Int) :
    scaled significand e = (Binary64.ofNat significand).bind fun f =>
      if f.isZero then some f
      else if 308 < e then none
      else if 0 ≤ e then (power e.toNat).bind f.mul
      else if -308 ≤ e then (power (-e).toNat).bind f.div
      else if -616 ≤ e then
        (power 308).bind fun p => (f.div p).bind fun g => (power (-(e + 308)).toNat).bind g.div
      else some (Binary64.zero false) := rfl

/-- **A significand of 64 bits times a power of ten does not overflow** when it stays below half a
unit beyond the greatest number by what two roundings may add. -/
theorem scaled_isSome (hs : significand ≤ Decimal.greatestNat64)
    (h : (significand : ℚ) * 10 ^ e * (1 + 1 / 2 ^ 53) ^ 2 < overflow) :
    (scaled significand e).isSome = true := by
  have hsless : significand < (2 ^ 54 - 1) * 2 ^ 970 :=
    Nat.lt_of_le_of_lt hs (by decide +kernel)
  have hsome : (Binary64.ofNat significand).isSome = true := by
    refine Binary64.nearest_isSome false Nat.one_pos ?_
    rw [Nat.cast_one, div_one]
    exact lt_overflow hsless
  obtain ⟨f, hf⟩ := Option.isSome_iff_exists.1 hsome
  have hfrep : f.Representable := Binary64.representable_of_nearest Nat.one_pos hf
  rw [scaled_eq, hf, Option.bind_some]
  split_ifs with hzero hgreat hnonneg hone htwo
  · rfl
  · -- a power of ten beyond the greatest number
    exfalso
    obtain ⟨hpos, -⟩ := ofNat_bounds hf (Bool.not_eq_true _ ▸ hzero)
    have hpos' : (1 : ℚ) ≤ significand := Nat.one_le_cast.2 hpos
    have hten : (0 : ℚ) < 10 ^ e := zpow_pos (by norm_num) e
    have hfactor : (1 : ℚ) ≤ (1 + 1 / 2 ^ 53) ^ 2 := by norm_num
    refine absurd h (not_lt.2 ?_)
    calc overflow
      _ ≤ 10 ^ (309 : Int) := overflow_le
      _ ≤ 10 ^ e := zpow_le_zpow_right₀ (by norm_num) (by omega)
      _ ≤ significand * 10 ^ e := le_mul_of_one_le_left hten.le hpos'
      _ ≤ significand * 10 ^ e * (1 + 1 / 2 ^ 53) ^ 2 :=
        le_mul_of_one_le_right (mul_nonneg (zero_le_one.trans hpos') hten.le) hfactor
  · obtain ⟨-, hle⟩ := ofNat_bounds hf (Bool.not_eq_true _ ▸ hzero)
    obtain ⟨k, rfl⟩ := Int.eq_ofNat_of_zero_le hnonneg
    exact mul_power_isSome hle (by omega) h
  · obtain ⟨g, hg, -⟩ := exists_div_power hfrep (k := (-e).toNat) (by omega) (by omega)
    rw [hg]
    rfl
  · -- a power of ten below the least number is divided by twice
    obtain ⟨g, hg, hgrep⟩ := exists_div_power hfrep (k := 308) (by omega) (by omega)
    obtain ⟨g', hg', -⟩ := exists_div_power hgrep (k := (-(e + 308)).toNat) (by omega) (by omega)
    rw [← Option.bind_assoc, hg, Option.bind_some, hg']
    rfl
  · rfl

/-- What is scaled is within its bounds. -/
theorem representable_of_scaled {x : Binary64} (h : scaled significand e = some x) :
    x.Representable := by
  rw [scaled_eq] at h
  obtain ⟨f, hf, h⟩ := Option.bind_eq_some_iff.1 h
  have hfrep : f.Representable := Binary64.representable_of_nearest Nat.one_pos hf
  split_ifs at h with hzero hgreat hnonneg hone htwo
  · exact Option.some.inj h ▸ hfrep
  · obtain ⟨p, -, hmul⟩ := Option.bind_eq_some_iff.1 h
    exact Binary64.representable_of_mul hmul
  · obtain ⟨g, hg, hgrep⟩ := exists_div_power hfrep (k := (-e).toNat) (by omega) (by omega)
    exact Option.some.inj (h.symm.trans hg) ▸ hgrep
  · obtain ⟨g, hg, hgrep⟩ := exists_div_power hfrep (k := 308) (by omega) (by omega)
    obtain ⟨g', hg', hgrep'⟩ :=
      exists_div_power hgrep (k := (-(e + 308)).toNat) (by omega) (by omega)
    rw [← Option.bind_assoc, hg, Option.bind_some, hg'] at h
    exact Option.some.inj h ▸ hgrep'
  · exact Option.some.inj h ▸ Binary64.representable_zero false

/-! ### Taking digits -/

theorem natOfDigits_concat (cs : List Char) (c : Char) :
    natOfDigits (cs ++ [c]) = natOfDigits cs * 10 + Decimal.digitValue c := by
  rw [natOfDigits_append]
  simp [natOfDigits]

theorem natOfDigits_le_append (cs ds : List Char) : natOfDigits cs ≤ natOfDigits (cs ++ ds) := by
  rw [natOfDigits_append]
  exact Nat.le_trans (Nat.le_mul_of_pos_right _ (Nat.pow_pos (by decide))) (Nat.le_add_right _ _)

/-- **The digits that are taken** stand before the others, and they are all when they fit. -/
theorem exists_takeDigits {taken : List Char} (cs : List Char)
    (h : natOfDigits taken ≤ Decimal.greatestNat64) :
    ∃ front back, cs = front ++ back ∧
      takeDigits (natOfDigits taken) cs = (natOfDigits (taken ++ front), front.length, back) ∧
      natOfDigits (taken ++ front) ≤ Decimal.greatestNat64 ∧
      (natOfDigits (taken ++ cs) ≤ Decimal.greatestNat64 → back = []) := by
  induction cs generalizing taken with
  | nil =>
    refine ⟨[], [], rfl, ?_, ?_, fun _ => rfl⟩
    · rw [List.append_nil]
      rfl
    · rwa [List.append_nil]
  | cons c cs ih =>
    rw [takeDigits, ← natOfDigits_concat]
    dsimp only
    split
    · rename_i hfits
      obtain ⟨front, back, rfl, htake, hle, hall⟩ := ih hfits
      refine ⟨c :: front, back, rfl, ?_, ?_, ?_⟩
      · rw [htake, List.append_assoc]
        rfl
      · rwa [List.append_assoc] at hle
      · rw [List.append_assoc] at hall
        exact hall
    · -- the first digit that does not fit ends it
      rename_i hbeyond
      refine ⟨[], c :: cs, rfl, ?_, ?_, fun hfits => absurd ?_ hbeyond⟩
      · rw [List.append_nil]
        rfl
      · rwa [List.append_nil]
      · refine Nat.le_trans (natOfDigits_le_append _ cs) ?_
        rwa [List.append_assoc]

theorem natOfDigits_lt {cs : List Char} (h : ∀ c ∈ cs, c.isDigit = true) :
    natOfDigits cs < 10 ^ cs.length := by
  induction cs using List.reverseRecOn with
  | nil => exact Nat.one_pos
  | append_singleton cs c ih =>
    obtain ⟨hcs, hc⟩ := List.forall_mem_append.1 h
    have hdigit : Decimal.digitValue c ≤ 9 := by
      have hrange : 48 ≤ c.toNat ∧ c.toNat ≤ 57 :=
        Char.isDigit_iff_toNat.1 (hc c List.mem_cons_self)
      show c.toNat - 48 ≤ 9
      omega
    have hless := ih hcs
    rw [natOfDigits_concat, List.length_append, List.length_singleton, Nat.pow_succ]
    omega

/-! ### What is written is read -/

variable {t : NumberText} {d : Decimal}

/-- The digits of what is written are scaled, perhaps without the last ones. -/
theorem exists_double?_eq (h : t.Writes d) :
    ∃ significand e, significand ≤ Decimal.greatestNat64 ∧ (significand : ℚ) * 10 ^ e ≤ d.toRat ∧
      t.double? = (scaled significand e).map fun x => { x with negative := t.negative } := by
  have hwhole : natOfDigits t.whole ≤ Decimal.greatestNat64 := by
    have hless := natOfDigits_lt h.wellFormed.whole.digit
    have hpow : 10 ^ t.whole.length ≤ 10 ^ 16 := Nat.pow_le_pow_right (by decide) h.few
    have hgreatest : 10 ^ 16 ≤ Decimal.greatestNat64 := by decide
    omega
  have hstart : natOfDigits [] ≤ Decimal.greatestNat64 := Nat.zero_le _
  -- the whole part fits, so digits are left out of the fraction at most
  obtain ⟨front, back, hsplit, htake, -, hall⟩ := exists_takeDigits t.whole hstart
  obtain rfl := hall hwhole
  rw [List.append_nil] at hsplit
  subst hsplit
  obtain ⟨front, back, hfraction, htake', hle, -⟩ :=
    exists_takeDigits (t.fraction.getD []) hwhole
  refine ⟨natOfDigits (t.whole ++ front), t.exponent.getD 0 - front.length, hle, ?_, ?_⟩
  · rw [← h.value, hfraction, ← List.append_assoc, natOfDigits_append (t.whole ++ front) back,
      List.length_append]
    generalize natOfDigits (t.whole ++ front) = n
    generalize t.exponent.getD 0 = k
    have hexponent : k - (front.length : Int) =
        (back.length : Int) + (k - ((front.length + back.length : Nat) : Int)) := by
      push_cast
      ring
    calc (n : ℚ) * 10 ^ (k - (front.length : Int))
      _ = n * 10 ^ back.length * 10 ^ (k - ((front.length + back.length : Nat) : Int)) := by
        rw [hexponent, zpow_add₀ (by norm_num), zpow_natCast, mul_assoc]
      _ ≤ ((n * 10 ^ back.length + natOfDigits back : Nat) : ℚ) *
          10 ^ (k - ((front.length + back.length : Nat) : Int)) := by
        gcongr
        push_cast
        exact le_add_of_nonneg_right (Nat.cast_nonneg _)
  · rw [double?, show takeDigits 0 t.whole = _ from htake]
    dsimp only
    rw [List.nil_append, htake']
    dsimp only
    rw [List.length_nil, Nat.cast_zero, zero_sub, neg_add_eq_sub]

/-- The two greatest numbers are read. -/
theorem greatest_double?_isSome : ∀ negative : Bool, ∀ mantissa ∈ [2 ^ 53 - 2, 2 ^ 53 - 1],
    (scanNumber (doubleChars ⟨negative, mantissa, Binary64.greatestExponent⟩)).any
      (fun p => p.1.double?.isSome) = true := by
  decide +kernel

/-- Below the two greatest numbers there is room for two roundings. -/
theorem toRat_shortest_lt {x : Binary64} (hx : x.Representable)
    (hless : x.exponent = Binary64.greatestExponent → x.mantissa ≤ 2 ^ 53 - 3) :
    x.shortest.toRat * (1 + 1 / 2 ^ 53) ^ 2 < overflow := by
  have hpow : (0 : ℚ) < 2 ^ Binary64.greatestExponent := zpow_pos two_pos _
  have hbound : x.shortest.toRat ≤ (2 ^ 53 - 5 / 2) * 2 ^ Binary64.greatestExponent := by
    rcases x.shortest_bounds with hzero | ⟨-, hle⟩
    · have hzero' : x.shortest.toRat = 0 := by
        rw [hzero, Decimal.toRat, Nat.cast_zero, zero_mul]
      rw [hzero']
      refine mul_nonneg ?_ hpow.le
      norm_num
    · refine hle.trans ?_
      by_cases hgreatest : x.exponent = Binary64.greatestExponent
      · have hmantissa : (x.mantissa : ℚ) + 3 ≤ 2 ^ 53 := by
          have hnat : x.mantissa + 3 ≤ 2 ^ 53 := by
            have hfew := hless hgreatest
            omega
          exact_mod_cast hnat
        rw [hgreatest]
        gcongr
        linarith
      · -- with a smaller exponent the number is at most half as large
        have hmantissa : (x.mantissa : ℚ) + 1 ≤ 2 ^ 53 := by exact_mod_cast hx.mantissa
        have hexponent : x.exponent ≤ Binary64.greatestExponent - 1 := by
          have hle := hx.exponent
          omega
        calc ((x.mantissa : ℚ) + 1 / 2) * 2 ^ x.exponent
          _ ≤ 2 ^ 53 * 2 ^ (Binary64.greatestExponent - 1) :=
            mul_le_mul (by linarith) (zpow_le_zpow_right₀ one_le_two hexponent)
              (zpow_nonneg zero_le_two _) (by norm_num)
          _ = 2 ^ 52 * 2 ^ Binary64.greatestExponent := by
            rw [zpow_sub_one₀ two_ne_zero]
            ring
          _ ≤ (2 ^ 53 - 5 / 2) * 2 ^ Binary64.greatestExponent :=
            mul_le_mul_of_nonneg_right (by norm_num) hpow.le
  calc x.shortest.toRat * (1 + 1 / 2 ^ 53) ^ 2
    _ ≤ (2 ^ 53 - 5 / 2) * 2 ^ Binary64.greatestExponent * (1 + 1 / 2 ^ 53) ^ 2 := by gcongr
    _ = (2 ^ 53 - 5 / 2) * (1 + 1 / 2 ^ 53) ^ 2 * 2 ^ Binary64.greatestExponent := by ring
    _ < (2 ^ 53 - 1 / 2) * 2 ^ Binary64.greatestExponent :=
      mul_lt_mul_of_pos_right (by norm_num) hpow

/-- **What is written for a number of double precision is read as one.** -/
theorem double?_isSome {x : Binary64} (hx : x.Representable) (h : t.Writes x.shortest)
    (hchars : t.chars = doubleChars x) : t.double?.isSome = true := by
  by_cases hgreatest : x.exponent = Binary64.greatestExponent ∧ 2 ^ 53 - 2 ≤ x.mantissa
  · -- two roundings might overflow here, but they do not for these numbers
    obtain ⟨negative, mantissa, exponent⟩ := x
    obtain ⟨rfl, hlarge⟩ := hgreatest
    have hmantissa : mantissa ∈ [2 ^ 53 - 2, 2 ^ 53 - 1] := by
      have hless := hx.mantissa
      dsimp only at hless hlarge
      simp only [List.mem_cons, List.not_mem_nil, or_false]
      omega
    have hscan := scanNumber_chars h.wellFormed endsNumber_nil
    have hread := greatest_double?_isSome negative mantissa hmantissa
    rw [List.append_nil, hchars] at hscan
    rwa [hscan] at hread
  · obtain ⟨significand, e, hs, hle, hdouble⟩ := exists_double?_eq h
    rw [hdouble, Option.isSome_map]
    refine scaled_isSome hs (lt_of_le_of_lt ?_ (toRat_shortest_lt hx fun hexponent => ?_))
    · gcongr
    · have hless := hx.mantissa
      have hnot : ¬ 2 ^ 53 - 2 ≤ x.mantissa := fun hlarge => hgreatest ⟨hexponent, hlarge⟩
      omega

/-- What is read with a fraction or an exponent is within its bounds. -/
theorem representable_of_double? {x : Binary64} (h : t.double? = some x) : x.Representable := by
  unfold double? at h
  obtain ⟨y, hy, rfl⟩ := Option.map_eq_some_iff.1 h
  obtain ⟨hmantissa, hexponent⟩ := representable_of_scaled hy
  exact ⟨hmantissa, hexponent⟩

end NumberText

end Syndication.Json
