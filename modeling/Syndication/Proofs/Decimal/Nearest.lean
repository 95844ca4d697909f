import Mathlib.Algebra.Group.Int.Defs
import Mathlib.Algebra.Group.Nat.Defs
import Mathlib.Tactic.SplitIfs
import Syndication.Decimal.Binary64

/-!
# Integers in double precision

An integer whose first bit is worth `2 ^ (52 + e)` is rounded to the nearest multiple of `2 ^ e`,
because a mantissa has 53 bits. From `2 ^ 63` on the multiples are those of 2048, and the last 512
integers before it are rounded up to it, so above `2 ^ 63 - 512` it is the nearest multiple of 2048
that tells which integers become the same number. Below, no integer becomes a number that one from
`2 ^ 63` on does.

* `nearest_eq_normal`: what an integer is rounded to.
* `exponent_le_of_nearest`: a bound on the exponent of what comes of a small one.
* `sameValue_ofInt_iff`: when two integers become numbers of the same value.
-/

namespace Syndication.Binary64

variable {negative : Bool} {m e : Nat} {x : Binary64}

/-! ### Rounding a quotient -/

theorem le_divideNearest (num den : Nat) : num / den ≤ divideNearest num den := by
  unfold divideNearest
  dsimp only
  split_ifs <;> omega

/-! ### Rounding an integer -/

/-- The number with a mantissa of 53 bits; rounding up may have given it one bit more. -/
def normal (negative : Bool) (mantissa : Nat) (exponent : Int) : Binary64 :=
  if mantissa = Nat.pow 2 53 then ⟨negative, Nat.pow 2 52, exponent + 1⟩
  else ⟨negative, mantissa, exponent⟩

theorem normal_inj {mantissa mantissa' : Nat} {exponent : Int}
    (h : normal negative mantissa exponent = normal negative mantissa' exponent) :
    mantissa = mantissa' := by
  unfold normal at h
  split_ifs at h with hfull hfull' hfull'
  · rw [hfull, hfull']
  · -- the exponents differ
    have hexponent := congrArg Binary64.exponent h
    dsimp only at hexponent
    omega
  · have hexponent := congrArg Binary64.exponent h
    dsimp only at hexponent
    omega
  · exact congrArg Binary64.mantissa h

/-- **An integer is rounded to a multiple of a power of two**, which its first bit tells. -/
theorem nearest_eq_normal (hlow : 2 ^ (52 + e) ≤ m) (hhigh : m < 2 ^ (53 + e)) (he : e < 971) :
    nearest negative m 1 = some (normal negative (divideNearest m (2 ^ e)) e) := by
  have hpos : 0 < 2 ^ (52 + e) := Nat.two_pow_pos _
  have hm : m ≠ 0 := by omega
  have hlog : m.log2 = 52 + e := by
    rw [Nat.log2_eq_iff hm]
    exact ⟨hlow, by rwa [Nat.add_right_comm]⟩
  -- the guess is right, since the denominator has one bit
  have hguess : (m.log2 : Int) - (Nat.log2 1 : Int) - 52 = e := by
    rw [hlog, show Nat.log2 1 = 0 from rfl]
    omega
  have hscale : scale m 1 e = (m, 2 ^ e) := by
    rw [scale, if_pos (by omega), Int.toNat_natCast, Nat.one_mul]
    rfl
  have hquotient : ¬ m / 2 ^ e < Nat.pow 2 52 := by
    rw [Nat.not_lt, Nat.le_div_iff_mul_le (Nat.two_pow_pos e)]
    rw [Nat.pow_add] at hlow
    exact hlow
  have hexponent : max (e : Int) leastExponent = e := by
    unfold leastExponent
    omega
  have hfits : ∀ k : Int, k ≤ e + 1 → ¬ greatestExponent < k := by
    intro k hk
    unfold greatestExponent
    omega
  unfold nearest normal
  simp only [if_neg hm, hguess, hscale, if_neg hquotient, hexponent]
  by_cases hfull : divideNearest m (2 ^ e) = Nat.pow 2 53
  · simp only [hfull, if_true]
    exact if_neg (hfits _ (Int.le_refl _))
  · have hless : (e : Int) ≤ e + 1 := by omega
    simp only [if_neg hfull]
    exact if_neg (hfits e hless)

/-- The exponent is at most one more than the first bit tells. -/
theorem exponent_le_of_nearest (hm : m < 2 ^ (53 + e)) (h : nearest negative m 1 = some x) :
    x.exponent ≤ e + 1 := by
  unfold nearest at h
  split_ifs at h with hzero
  · rw [← Option.some.inj h]
    show leastExponent ≤ _
    unfold leastExponent
    omega
  · have hlog : m.log2 < 53 + e := (Nat.log2_lt hzero).2 hm
    have hguess : (m.log2 : Int) - (Nat.log2 1 : Int) - 52 ≤ e := by
      rw [show Nat.log2 1 = 0 from rfl]
      omega
    generalize (m.log2 : Int) - (Nat.log2 1 : Int) - 52 = guess at h hguess
    dsimp only at h
    -- whatever the quotients are, the exponent is the guess or one less, and perhaps one more
    generalize divideNearest _ _ = mantissa at h
    generalize (scale m 1 guess).1 / (scale m 1 guess).2 = quotient at h
    have hleast : leastExponent = -1074 := rfl
    split_ifs at h <;>
    · rw [← Option.some.inj h]
      dsimp only
      omega

/-! ### Integers around `2 ^ 63` -/

/-- Above `2 ^ 63 - 512` an integer is rounded to the nearest multiple of 2048. -/
theorem nearest_eq_of_large (hlow : 2 ^ 63 - 512 ≤ m) (hhigh : m < 2 ^ 64) :
    nearest negative m 1 = some (normal negative (divideNearest m 2048) 11) := by
  by_cases hm : 2 ^ 63 ≤ m
  · exact nearest_eq_normal (e := 11) hm hhigh (by decide)
  · -- the last integers before it are rounded up, whether to a multiple of 1024 or of 2048
    have hhalf : divideNearest m (2 ^ 10) = 2 ^ 53 := by
      unfold divideNearest
      dsimp only
      split_ifs <;> omega
    have hfull : divideNearest m 2048 = 2 ^ 52 := by
      unfold divideNearest
      dsimp only
      split_ifs <;> omega
    rw [nearest_eq_normal (e := 10) (by omega) (by omega) (by decide), hhalf, hfull]
    rfl

/-- An integer that is not as large becomes a smaller number. -/
theorem exponent_le_of_small (hm : m < 2 ^ 63 - 512) (h : nearest negative m 1 = some x) :
    x.exponent ≤ 10 := by
  by_cases hlow : m < 2 ^ 62
  · exact exponent_le_of_nearest (e := 9) hlow h
  · have hmantissa : divideNearest m (2 ^ 10) < 2 ^ 53 := by
      unfold divideNearest
      dsimp only
      split_ifs <;> omega
    rw [nearest_eq_normal (e := 10) (by omega) (by omega) (by decide)] at h
    have hfull : ¬ divideNearest m (2 ^ 10) = Nat.pow 2 53 := Nat.ne_of_lt hmantissa
    rw [← Option.some.inj h, normal, if_neg hfull]
    exact Int.le_refl _

/-- An integer from `2 ^ 63` on becomes a number with a large mantissa and a large exponent. -/
theorem normal_of_large (negative : Bool) (hlow : 2 ^ 63 ≤ m) :
    (normal negative (divideNearest m 2048) 11).isZero = false ∧
      (normal negative (divideNearest m 2048) 11).negative = negative ∧
      11 ≤ (normal negative (divideNearest m 2048) 11).exponent := by
  have hmantissa := le_divideNearest m 2048
  unfold normal isZero
  split_ifs with hfull
  · refine ⟨rfl, rfl, ?_⟩
    show (11 : Int) ≤ 12
    omega
  · refine ⟨?_, rfl, Int.le_refl _⟩
    rw [beq_eq_false_iff_ne]
    dsimp only
    omega

theorem negative_of_nearest (h : nearest negative m 1 = some x) : x.negative = negative := by
  unfold nearest at h
  dsimp only at h
  split_ifs at h <;> exact congrArg Binary64.negative (Option.some.inj h).symm

theorem sameValue_comm (x y : Binary64) : x.sameValue y = y.sameValue x := by
  rw [sameValue, sameValue, Bool.and_comm, BEq.comm]

theorem eq_of_sameValue {y : Binary64} (hx : x.isZero = false) (h : x.sameValue y = true) :
    x = y := by
  simpa [sameValue, hx] using h

theorem ofInt_of_nonneg {i : Int} (hi : 0 ≤ i) : ofInt i = nearest false i.toNat 1 := by
  have hnatAbs : i.natAbs = i.toNat := by omega
  rw [ofInt, decide_eq_false (by omega), hnatAbs]

/-- **When two integers become numbers of the same value**, one of them being beyond 64 bits with a
sign: the nearest multiples of 2048 are the same. -/
theorem sameValue_ofInt_iff {i j : Int} (hi : 2 ^ 63 ≤ i) (hi' : i < 2 ^ 64) (hj : j < 2 ^ 64) :
    (∃ x y, ofInt i = some x ∧ ofInt j = some y ∧ x.sameValue y = true) ↔
      2 ^ 63 - 512 ≤ j ∧ divideNearest i.toNat 2048 = divideNearest j.toNat 2048 := by
  have hlarge : ofInt i = some (normal false (divideNearest i.toNat 2048) 11) := by
    rw [ofInt_of_nonneg (by omega), nearest_eq_of_large (by omega) (by omega)]
  have hbeyond : 2 ^ 63 ≤ i.toNat := by omega
  obtain ⟨hzero, hnegative, hexponent⟩ := normal_of_large false hbeyond
  constructor
  · rintro ⟨x, y, hx, hy, hsame⟩
    obtain rfl := Option.some.inj (hlarge.symm.trans hx)
    obtain rfl := eq_of_sameValue hzero hsame
    have hnonneg : 0 ≤ j := by
      have hsign := negative_of_nearest hy
      rw [hnegative] at hsign
      simpa using hsign
    rw [ofInt_of_nonneg hnonneg] at hy
    by_cases hj' : 2 ^ 63 - 512 ≤ j
    · rw [nearest_eq_of_large (by omega) (by omega)] at hy
      exact ⟨hj', (normal_inj (Option.some.inj hy)).symm⟩
    · -- the exponents are too far apart
      have hsmall := exponent_le_of_small (by omega) hy
      omega
  · rintro ⟨hj', hmultiple⟩
    refine ⟨_, _, hlarge, ?_, sameValue_refl _⟩
    rw [ofInt_of_nonneg (by omega), nearest_eq_of_large (by omega) (by omega), hmultiple]

end Syndication.Binary64
