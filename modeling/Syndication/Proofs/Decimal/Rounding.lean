import Mathlib.Algebra.Order.Field.Power
import Mathlib.Algebra.Order.Field.Rat
import Mathlib.Data.Rat.Cast.Order
import Mathlib.Tactic.FieldSimp
import Mathlib.Tactic.Linarith
import Mathlib.Tactic.NormNum
import Mathlib.Tactic.Positivity
import Mathlib.Tactic.Ring
import Syndication.Proofs.Decimal.Nearest

/-!
# Rounding to double precision

A fraction is rounded at the exponent at which its integer part has 53 bits. The result is at most
half a unit of its last place too large, which is one part in `2 ^ 53` above the least exponent. So
no fraction overflows that stays below the greatest number by half a unit.

* `Representable`: the bounds of the mantissa and of the exponent.
* `exists_nearest_eq_normal`: how a fraction is rounded.
* `representable_of_nearest`: what comes of it has its bounds.
* `toRat_of_nearest`: how far it is from the fraction.
* `nearest_isSome`: which fractions do not overflow.
-/

namespace Syndication.Binary64

variable {negative : Bool} {num den : Nat} {x : Binary64}

/-- The absolute value of a number. -/
def toRat (x : Binary64) : ℚ :=
  x.mantissa * 2 ^ x.exponent

/-- **The mantissa and the exponent are within their bounds.** -/
structure Representable (x : Binary64) : Prop where
  mantissa : x.mantissa < 2 ^ 53
  exponent : x.exponent ≤ greatestExponent

theorem representable_zero (negative : Bool) : (zero negative).Representable := by
  cases negative <;> exact ⟨by decide, by decide⟩

theorem toRat_nonneg (x : Binary64) : 0 ≤ x.toRat := by
  unfold toRat
  positivity

/-! ### Fractions -/

theorem zpow_toNat {e : Int} (h : 0 ≤ e) : ((Nat.pow 2 e.toNat : Nat) : ℚ) = 2 ^ e := by
  obtain ⟨n, rfl⟩ := Int.eq_ofNat_of_zero_le h
  simp

/-- The magnitude is a fraction with the value of the number. -/
theorem magnitude_eq (x : Binary64) :
    0 < x.magnitude.2 ∧ (x.magnitude.1 : ℚ) / x.magnitude.2 = x.toRat := by
  unfold magnitude toRat
  split_ifs with h
  · refine ⟨Nat.one_pos, ?_⟩
    rw [Nat.cast_mul, zpow_toNat h, Nat.cast_one, div_one]
  · refine ⟨Nat.two_pow_pos _, ?_⟩
    have hneg : 0 ≤ -x.exponent := by omega
    show (x.mantissa : ℚ) / ((Nat.pow 2 (-x.exponent).toNat : Nat) : ℚ) = _
    rw [zpow_toNat hneg, zpow_neg, div_inv_eq_mul]

theorem scale_eq (num : Nat) (hden : 0 < den) (e : Int) :
    0 < (scale num den e).2 ∧
      ((scale num den e).1 : ℚ) / (scale num den e).2 = (num : ℚ) / den / 2 ^ e := by
  unfold scale
  split_ifs with h
  · refine ⟨Nat.mul_pos hden (Nat.two_pow_pos _), ?_⟩
    show (num : ℚ) / ((den * Nat.pow 2 e.toNat : Nat) : ℚ) = _
    rw [Nat.cast_mul, zpow_toNat h, div_div]
  · have hneg : 0 ≤ -e := by omega
    refine ⟨hden, ?_⟩
    show ((num * Nat.pow 2 (-e).toNat : Nat) : ℚ) / (den : ℚ) = _
    rw [Nat.cast_mul, zpow_toNat hneg, zpow_neg]
    ring

/-- The nearest integer is at most one half too large. -/
theorem divideNearest_le (num : Nat) (hden : 0 < den) :
    (divideNearest num den : ℚ) ≤ (num : ℚ) / den + 1 / 2 := by
  have hnat : 2 * (den * divideNearest num den) ≤ 2 * num + den := by
    have hdiv := Nat.div_add_mod num den
    have hnext : den * (num / den + 1) = den * (num / den) + den := Nat.mul_succ _ _
    unfold divideNearest
    dsimp only
    -- down, up, and a tie to either side
    split_ifs <;> first | rw [hnext] | skip
    all_goals omega
  have hcast : 2 * ((den : ℚ) * divideNearest num den) ≤ 2 * num + den := by exact_mod_cast hnat
  have hpos : (0 : ℚ) < den := by exact_mod_cast hden
  have hsum : (num : ℚ) / den + 1 / 2 = (2 * num + den) / (2 * den) := by
    field_simp
  rw [hsum, le_div_iff₀ (by positivity)]
  linarith

/-- The nearest integer is at least the integer part. -/
theorem le_divideNearest_of_le {k : Nat} (hden : 0 < den) (h : (k : ℚ) ≤ (num : ℚ) / den) :
    k ≤ divideNearest num den := by
  refine Nat.le_trans ?_ (le_divideNearest num den)
  rw [Nat.le_div_iff_mul_le hden]
  have hpos : (0 : ℚ) < den := by exact_mod_cast hden
  rw [le_div_iff₀ hpos] at h
  exact_mod_cast h

/-! ### Rounding a fraction -/

/-- The lengths in bits of numerator and denominator leave the quotient open by a factor of four. -/
theorem quotient_between (hnum : num ≠ 0) (hden : den ≠ 0) :
    (2 : ℚ) ^ ((num.log2 : Int) - den.log2 - 1) < (num : ℚ) / den ∧
      (num : ℚ) / den < 2 ^ ((num.log2 : Int) - den.log2 + 1) := by
  have hpos : (0 : ℚ) < den := by exact_mod_cast Nat.pos_of_ne_zero hden
  have hnumLow : (2 : ℚ) ^ num.log2 ≤ num := by exact_mod_cast Nat.log2_self_le hnum
  have hnumHigh : (num : ℚ) < 2 ^ (num.log2 + 1) := by exact_mod_cast Nat.lt_log2_self
  have hdenLow : (2 : ℚ) ^ den.log2 ≤ den := by exact_mod_cast Nat.log2_self_le hden
  have hdenHigh : (den : ℚ) < 2 ^ (den.log2 + 1) := by exact_mod_cast Nat.lt_log2_self
  constructor
  · rw [lt_div_iff₀ hpos]
    calc (2 : ℚ) ^ ((num.log2 : Int) - den.log2 - 1) * den
      _ < 2 ^ ((num.log2 : Int) - den.log2 - 1) * 2 ^ (den.log2 + 1) := by gcongr
      _ = 2 ^ num.log2 := by
        rw [← zpow_natCast, ← zpow_natCast, ← zpow_add₀ two_ne_zero]
        congr 1
        push_cast
        ring
      _ ≤ num := hnumLow
  · rw [div_lt_iff₀ hpos]
    calc (num : ℚ)
      _ < 2 ^ (num.log2 + 1) := hnumHigh
      _ = 2 ^ ((num.log2 : Int) - den.log2 + 1) * 2 ^ den.log2 := by
        rw [← zpow_natCast, ← zpow_natCast, ← zpow_add₀ two_ne_zero]
        congr 1
        push_cast
        ring
      _ ≤ 2 ^ ((num.log2 : Int) - den.log2 + 1) * den := by gcongr

/-- The exponent at which the integer part of a fraction has 53 bits. -/
def exactExponent (num den : Nat) : Int :=
  let guess : Int := (num.log2 : Int) - (den.log2 : Int) - 52
  if (scale num den guess).1 / (scale num den guess).2 < Nat.pow 2 52 then guess - 1 else guess

theorem exactExponent_between (hnum : num ≠ 0) (hden : 0 < den) :
    2 ^ 52 ≤ (num : ℚ) / den / 2 ^ exactExponent num den ∧
      (num : ℚ) / den / 2 ^ exactExponent num den < 2 ^ 53 := by
  obtain ⟨hlow, hhigh⟩ := quotient_between hnum (Nat.pos_iff_ne_zero.1 hden)
  unfold exactExponent
  generalize hguess : (num.log2 : Int) - (den.log2 : Int) - 52 = guess
  obtain ⟨hpos, hscale⟩ := scale_eq num hden guess
  have hpow : (0 : ℚ) < 2 ^ guess := by positivity
  -- the guess is right or too great by one
  have hguessLow : 2 ^ 51 < (num : ℚ) / den / 2 ^ guess := by
    rw [lt_div_iff₀ hpow]
    calc (2 : ℚ) ^ 51 * 2 ^ guess
      _ = 2 ^ ((num.log2 : Int) - den.log2 - 1) := by
        rw [← hguess, ← zpow_natCast, ← zpow_add₀ two_ne_zero]
        congr 1
        push_cast
        ring
      _ < (num : ℚ) / den := hlow
  have hguessHigh : (num : ℚ) / den / 2 ^ guess < 2 ^ 53 := by
    rw [div_lt_iff₀ hpow]
    calc (num : ℚ) / den
      _ < 2 ^ ((num.log2 : Int) - den.log2 + 1) := hhigh
      _ = 2 ^ 53 * 2 ^ guess := by
        rw [← hguess, ← zpow_natCast, ← zpow_add₀ two_ne_zero]
        congr 1
        push_cast
        ring
  have hposQ : (0 : ℚ) < (scale num den guess).2 := by exact_mod_cast hpos
  have hfloor : (scale num den guess).1 / (scale num den guess).2 < Nat.pow 2 52 ↔
      (num : ℚ) / den / 2 ^ guess < 2 ^ 52 := by
    rw [← hscale, Nat.div_lt_iff_lt_mul hpos, div_lt_iff₀ hposQ]
    exact_mod_cast Iff.rfl
  dsimp only
  by_cases hfew : (scale num den guess).1 / (scale num den guess).2 < Nat.pow 2 52
  · have hdouble : (num : ℚ) / den / 2 ^ (guess - 1) = 2 * ((num : ℚ) / den / 2 ^ guess) := by
      rw [zpow_sub_one₀ two_ne_zero]
      field_simp
    have hless := hfloor.1 hfew
    rw [if_pos hfew, hdouble]
    constructor <;> linarith
  · have hnotLess := not_lt.1 (mt hfloor.2 hfew)
    rw [if_neg hfew]
    exact ⟨hnotLess, hguessHigh⟩

/-- **How a fraction is rounded**: at an exponent at which its integer part has 53 bits, or at the
least one and then with fewer bits. -/
theorem exists_nearest_eq_normal (negative : Bool) (hnum : num ≠ 0) (hden : 0 < den) :
    ∃ (e : Int) (n d : Nat), 0 < d ∧ (n : ℚ) / d = (num : ℚ) / den / 2 ^ e ∧ leastExponent ≤ e ∧
      (n : ℚ) / d < 2 ^ 53 ∧ (e = leastExponent ∨ 2 ^ 52 ≤ (n : ℚ) / d) ∧
      nearest negative num den =
        if greatestExponent < (normal negative (divideNearest n d) e).exponent then none
        else some (normal negative (divideNearest n d) e) := by
  obtain ⟨hlow, hhigh⟩ := exactExponent_between hnum hden
  have hnearest : nearest negative num den =
      let e := max (exactExponent num den) leastExponent
      let mantissa := divideNearest (scale num den e).1 (scale num den e).2
      if greatestExponent < (normal negative mantissa e).exponent then none
      else some (normal negative mantissa e) := by
    unfold nearest normal exactExponent
    rw [if_neg hnum]
    dsimp only
    split_ifs <;> rfl
  obtain ⟨hpos, hscale⟩ := scale_eq num hden (max (exactExponent num den) leastExponent)
  refine ⟨_, _, _, hpos, hscale, le_max_right _ _, ?_, ?_, hnearest⟩
  · rw [hscale]
    refine lt_of_le_of_lt ?_ hhigh
    gcongr
    · exact one_le_two
    · exact le_max_left _ _
  · -- only where the least exponent takes over there are fewer bits
    rcases max_choice (exactExponent num den) leastExponent with hmax | hmax
    · right
      rwa [hscale, hmax]
    · exact .inl hmax

theorem toRat_normal (negative : Bool) (mantissa : Nat) (e : Int) :
    (normal negative mantissa e).toRat = mantissa * 2 ^ e := by
  unfold normal
  split_ifs with hfull
  · rw [hfull, toRat, zpow_add_one₀ two_ne_zero]
    norm_num
    ring
  · rfl

theorem mantissa_normal_lt {mantissa : Nat} (h : mantissa ≤ 2 ^ 53) (e : Int) :
    (normal negative mantissa e).mantissa < 2 ^ 53 := by
  unfold normal
  split_ifs with hfull
  · exact (by decide : Nat.pow 2 52 < 2 ^ 53)
  · exact Nat.lt_of_le_of_ne h hfull

/-- The exponent is that of rounding, or one more when the mantissa would have one bit more. -/
theorem exponent_normal {mantissa : Nat} {e : Int} (h : e < (normal negative mantissa e).exponent) :
    mantissa = 2 ^ 53 ∧ (normal negative mantissa e).exponent = e + 1 := by
  unfold normal at h ⊢
  split_ifs at h ⊢ with hfull
  · exact ⟨hfull, rfl⟩
  · exact absurd h (Int.lt_irrefl e)

/-- What a fraction is rounded to is within its bounds. -/
theorem representable_of_nearest (hden : 0 < den) (h : nearest negative num den = some x) :
    x.Representable := by
  by_cases hnum : num = 0
  · rw [hnum, nearest_zero] at h
    exact Option.some.inj h ▸ representable_zero negative
  · obtain ⟨e, n, d, hpos, -, -, hless, -, hnearest⟩ := exists_nearest_eq_normal negative hnum hden
    rw [hnearest, Option.ite_none_left_eq_some] at h
    obtain ⟨hexponent, hx⟩ := h
    -- the quotient is below `2 ^ 53`, so rounding gives that at most
    have hmantissa : divideNearest n d ≤ 2 ^ 53 := by
      have hle := divideNearest_le n hpos
      have hlt : (divideNearest n d : ℚ) < 2 ^ 53 + 1 := by linarith
      exact Nat.lt_succ_iff.1 (by exact_mod_cast hlt)
    rw [← Option.some.inj hx]
    exact ⟨mantissa_normal_lt hmantissa e, Int.not_lt.1 hexponent⟩

/-- The least value that is too large: half a unit beyond the greatest number. -/
def overflow : ℚ :=
  (2 ^ 53 - 1 / 2) * 2 ^ greatestExponent

/-- **What stays below half a unit beyond the greatest number is rounded to a number.** -/
theorem nearest_isSome (negative : Bool) (hden : 0 < den) (h : (num : ℚ) / den < overflow) :
    (nearest negative num den).isSome = true := by
  by_cases hnum : num = 0
  · rw [hnum, nearest_zero]
    rfl
  · obtain ⟨e, n, d, hpos, hscale, -, -, hlarge, hnearest⟩ :=
      exists_nearest_eq_normal negative hnum hden
    have hpow : (0 : ℚ) < 2 ^ e := by positivity
    have hquotient : (num : ℚ) / den = (n : ℚ) / d * 2 ^ e := by
      rw [hscale, div_mul_cancel₀ _ (ne_of_gt hpow)]
    rw [hquotient, overflow] at h
    have hexponent : ¬ greatestExponent < (normal negative (divideNearest n d) e).exponent := by
      intro hexceeds
      refine absurd h (not_lt.2 ?_)
      by_cases hbeyond : greatestExponent < e
      · -- the integer part alone has 53 bits
        have hbits : 2 ^ 52 ≤ (n : ℚ) / d := by
          refine hlarge.resolve_left ?_
          rintro rfl
          exact absurd hbeyond (by decide)
        calc ((2 : ℚ) ^ 53 - 1 / 2) * 2 ^ greatestExponent
          _ ≤ 2 ^ 53 * 2 ^ greatestExponent := by
            gcongr
            norm_num
          _ = 2 ^ 52 * 2 ^ (greatestExponent + 1) := by
            rw [zpow_add_one₀ two_ne_zero]
            ring
          _ ≤ (n : ℚ) / d * 2 ^ e := by
            gcongr
            · exact one_le_two
            · exact hbeyond
      · -- the mantissa is rounded up to one bit more
        obtain ⟨hfull, hnext⟩ := exponent_normal (lt_of_le_of_lt (not_lt.1 hbeyond) hexceeds)
        rw [hnext] at hexceeds
        obtain rfl : e = greatestExponent := by omega
        have hle := divideNearest_le n hpos
        rw [hfull] at hle
        gcongr
        push_cast at hle
        linarith
    rw [hnearest, if_neg hexponent]
    rfl

/-- **How far rounding goes**: up by one part in `2 ^ 53` at most, and down by less than one half. -/
theorem toRat_of_nearest (hden : 0 < den) (hone : 1 ≤ (num : ℚ) / den)
    (h : nearest negative num den = some x) :
    x.toRat ≤ (num : ℚ) / den * (1 + 1 / 2 ^ 53) ∧ (num : ℚ) / den / 2 ≤ x.toRat := by
  have hnum : num ≠ 0 := by
    rintro rfl
    norm_num at hone
  obtain ⟨e, n, d, hpos, hscale, -, hless, hlarge, hnearest⟩ :=
    exists_nearest_eq_normal negative hnum hden
  rw [hnearest, Option.ite_none_left_eq_some] at h
  rw [← Option.some.inj h.2, toRat_normal]
  have hpow : (0 : ℚ) < 2 ^ e := by positivity
  have hquotient : (num : ℚ) / den = (n : ℚ) / d * 2 ^ e := by
    rw [hscale, div_mul_cancel₀ _ (ne_of_gt hpow)]
  have hbits : 2 ^ 52 ≤ (n : ℚ) / d := by
    refine hlarge.resolve_left ?_
    rintro rfl
    -- at the least exponent the fraction would be tiny
    have htiny : (2 : ℚ) ^ 53 * 2 ^ leastExponent < 1 :=
      calc (2 : ℚ) ^ 53 * 2 ^ leastExponent
        _ = 2 ^ (53 + leastExponent) := by
          rw [zpow_add₀ two_ne_zero]
          norm_cast
        _ < 2 ^ (0 : Int) := zpow_lt_zpow_right₀ one_lt_two (by decide)
        _ = 1 := zpow_zero 2
    have hfew : (num : ℚ) / den < 2 ^ 53 * 2 ^ leastExponent := by
      rw [hquotient]
      gcongr
    linarith
  have hfloor : 2 ^ 52 ≤ divideNearest n d := le_divideNearest_of_le hpos (by exact_mod_cast hbits)
  have hle := divideNearest_le n hpos
  rw [hquotient]
  constructor
  · calc (divideNearest n d : ℚ) * 2 ^ e
      _ ≤ ((n : ℚ) / d + 1 / 2) * 2 ^ e := by gcongr
      _ ≤ ((n : ℚ) / d * (1 + 1 / 2 ^ 53)) * 2 ^ e := by
        gcongr
        linarith
      _ = (n : ℚ) / d * 2 ^ e * (1 + 1 / 2 ^ 53) := by ring
  · have hfloorQ : (2 : ℚ) ^ 52 ≤ divideNearest n d := by exact_mod_cast hfloor
    calc (n : ℚ) / d * 2 ^ e / 2
      _ ≤ 2 ^ 53 * 2 ^ e / 2 := by gcongr
      _ = 2 ^ 52 * 2 ^ e := by ring
      _ ≤ divideNearest n d * 2 ^ e := by gcongr

/-! ### Products and quotients -/

variable {y : Binary64}

theorem mul_eq_nearest (x y : Binary64) :
    x.mul y = nearest (x.negative != y.negative) (x.magnitude.1 * y.magnitude.1)
      (x.magnitude.2 * y.magnitude.2) := rfl

theorem div_eq_nearest (x y : Binary64) :
    x.div y = nearest (x.negative != y.negative) (x.magnitude.1 * y.magnitude.2)
      (x.magnitude.2 * y.magnitude.1) := rfl

theorem mul_isSome (h : x.toRat * y.toRat < overflow) : (x.mul y).isSome = true := by
  obtain ⟨hx, hxq⟩ := magnitude_eq x
  obtain ⟨hy, hyq⟩ := magnitude_eq y
  rw [mul_eq_nearest]
  refine nearest_isSome _ (Nat.mul_pos hx hy) ?_
  rw [Nat.cast_mul, Nat.cast_mul, mul_div_mul_comm, hxq, hyq]
  exact h

theorem numerator_pos (h : 0 < x.toRat) : 0 < x.magnitude.1 := by
  obtain ⟨-, hxq⟩ := magnitude_eq x
  refine Nat.pos_of_ne_zero fun hzero => ?_
  rw [← hxq, hzero, Nat.cast_zero, zero_div] at h
  exact lt_irrefl 0 h

theorem toRat_lt (h : x.Representable) : x.toRat < 2 ^ 53 * 2 ^ greatestExponent := by
  have hmantissa : (x.mantissa : ℚ) < 2 ^ 53 := by exact_mod_cast h.mantissa
  calc (x.mantissa : ℚ) * 2 ^ x.exponent
    _ < 2 ^ 53 * 2 ^ x.exponent := by gcongr
    _ ≤ 2 ^ 53 * 2 ^ greatestExponent := by
      gcongr
      · exact one_le_two
      · exact h.exponent

/-- A quotient by two or more does not overflow. -/
theorem div_isSome (hx : x.Representable) (hy : 2 ≤ y.toRat) : (x.div y).isSome = true := by
  obtain ⟨hxpos, hxq⟩ := magnitude_eq x
  obtain ⟨hypos, hyq⟩ := magnitude_eq y
  have hnumerator : 0 < y.magnitude.1 := numerator_pos (by linarith)
  rw [div_eq_nearest]
  refine nearest_isSome _ (Nat.mul_pos hxpos hnumerator) ?_
  rw [Nat.cast_mul, Nat.cast_mul, mul_div_mul_comm, ← inv_div (y.magnitude.1 : ℚ), hxq, hyq,
    ← div_eq_mul_inv]
  -- half of what a mantissa of 53 bits reaches at the greatest exponent
  have hpow : (0 : ℚ) < 2 ^ greatestExponent := by positivity
  calc x.toRat / y.toRat
    _ ≤ x.toRat / 2 := div_le_div_of_nonneg_left (toRat_nonneg x) two_pos hy
    _ < overflow := by
      have hlt := toRat_lt hx
      rw [overflow]
      linarith

theorem representable_of_div {z : Binary64} (hy : 0 < y.toRat) (h : x.div y = some z) :
    z.Representable :=
  representable_of_nearest (Nat.mul_pos (magnitude_eq x).1 (numerator_pos hy)) h

theorem representable_of_mul {z : Binary64} (h : x.mul y = some z) : z.Representable :=
  representable_of_nearest (Nat.mul_pos (magnitude_eq x).1 (magnitude_eq y).1) h

end Syndication.Binary64
