import Syndication.Decimal.Shortest
import Syndication.Proofs.Decimal.Rounding

/-!
# The shortest decimal number

The decimal number that is written for a number of double precision lies within the interval that is
read back, so it is at most half a unit of the last place too large.

* `Decimal.toRat`: the value of a decimal number.
* `toRat_shortest_le`: what is written is at most half a unit too large.
* `shortest_eq_zero_or`: no digits but `0` are written without an exponent.
-/

namespace Syndication

/-- The value of a decimal number. -/
def Decimal.toRat (d : Decimal) : ℚ :=
  d.digits * 10 ^ d.exponent

theorem Decimal.toRat_stripZeros (fuel : Nat) (d : Decimal) :
    (Decimal.stripZeros fuel d).toRat = d.toRat ∧
      (d.digits ≠ 0 → (Decimal.stripZeros fuel d).digits ≠ 0) := by
  induction fuel generalizing d with
  | zero => exact ⟨rfl, id⟩
  | succ fuel ih =>
    rw [Decimal.stripZeros]
    split
    · rename_i h
      obtain ⟨hne, hzero⟩ := h
      obtain ⟨hvalue, hdigits⟩ := ih ⟨d.digits / 10, d.exponent + 1⟩
      have htens : d.digits = 10 * (d.digits / 10) := by omega
      have hquotient : d.digits / 10 ≠ 0 := by omega
      refine ⟨hvalue.trans ?_, fun _ => hdigits hquotient⟩
      rw [Decimal.toRat, Decimal.toRat, zpow_add_one₀ (by norm_num)]
      conv_rhs => rw [htens]
      push_cast
      ring
    · exact ⟨rfl, id⟩

namespace Binary64

/-- The upper end of the interval of a number is half a unit above it. -/
theorem high_interval (x : Binary64) :
    0 < x.interval.den ∧
      (x.interval.high : ℚ) / x.interval.den = (x.mantissa + 1 / 2) * 2 ^ x.exponent := by
  unfold interval
  by_cases h : 2 ≤ x.exponent
  · have hsub : 0 ≤ x.exponent - 2 := by omega
    simp only [if_pos h]
    refine ⟨Nat.one_pos, ?_⟩
    rw [Nat.cast_mul, zpow_toNat hsub, zpow_sub₀ two_ne_zero]
    push_cast
    norm_num
    ring
  · have hsub : 0 ≤ 2 - x.exponent := by omega
    simp only [if_neg h]
    refine ⟨Nat.two_pow_pos _, ?_⟩
    rw [zpow_toNat hsub, zpow_sub₀ two_ne_zero]
    push_cast
    field_simp
    ring

/-- The factors of the ends of an interval and of the multiples on a grid over one denominator. -/
def gridFactors (e : Int) : Nat × Nat :=
  if 0 ≤ e then (1, Nat.pow 10 e.toNat) else (Nat.pow 10 (-e).toNat, 1)

theorem gridFactors_eq (e : Int) :
    0 < (gridFactors e).1 ∧ ((gridFactors e).2 : ℚ) = 10 ^ e * (gridFactors e).1 := by
  have hpow {k : Int} (h : 0 ≤ k) : ((Nat.pow 10 k.toNat : Nat) : ℚ) = 10 ^ k := by
    obtain ⟨n, rfl⟩ := Int.eq_ofNat_of_zero_le h
    simp
  unfold gridFactors
  split_ifs with h
  · refine ⟨Nat.one_pos, ?_⟩
    rw [hpow h, Nat.cast_one, mul_one]
  · have hneg : 0 ≤ -e := by omega
    refine ⟨Nat.pow_pos (by decide), ?_⟩
    rw [hpow hneg, ← zpow_add₀ (by norm_num), Int.add_right_neg, zpow_zero, Nat.cast_one]

/-- What is found on a grid is a multiple that is not beyond the interval. -/
theorem exists_of_onGrid? {i : Interval} {e : Int} {d : Decimal} (h : onGrid? i e = some d) :
    ∃ n, d = ⟨n, e⟩ ∧ n * (i.den * (gridFactors e).2) ≤ i.high * (gridFactors e).1 := by
  generalize hfactors : gridFactors e = factors
  unfold gridFactors at hfactors
  unfold onGrid? at h
  rw [hfactors] at h
  obtain ⟨up, down⟩ := factors
  dsimp only at h ⊢
  have hle {n : Nat} (hreads : (if i.closed = true
      then decide (i.low * up ≤ n * (i.den * down)) && decide (n * (i.den * down) ≤ i.high * up)
      else decide (i.low * up < n * (i.den * down)) && decide (n * (i.den * down) < i.high * up)) =
        true) : n * (i.den * down) ≤ i.high * up := by
    split at hreads
    · exact of_decide_eq_true (Bool.and_eq_true_iff.1 hreads).2
    · exact Nat.le_of_lt (of_decide_eq_true (Bool.and_eq_true_iff.1 hreads).2)
  split at h
  · rename_i hfloor hnext
    split at h
    · exact ⟨_, (Option.some.inj h).symm, hle hfloor⟩
    · exact ⟨_, (Option.some.inj h).symm, hle hnext⟩
  · rename_i hfloor _
    exact ⟨_, (Option.some.inj h).symm, hle hfloor⟩
  · rename_i _ hnext
    exact ⟨_, (Option.some.inj h).symm, hle hnext⟩
  · cases h

theorem toRat_le_of_onGrid? {i : Interval} {e : Int} {d : Decimal} (hden : 0 < i.den)
    (h : onGrid? i e = some d) : d.toRat ≤ (i.high : ℚ) / i.den := by
  obtain ⟨n, rfl, hle⟩ := exists_of_onGrid? h
  obtain ⟨hup, hdown⟩ := gridFactors_eq e
  have hden' : (0 : ℚ) < i.den := by exact_mod_cast hden
  have hup' : (0 : ℚ) < (gridFactors e).1 := by exact_mod_cast hup
  have hcast : (n : ℚ) * (i.den * (gridFactors e).2) ≤ i.high * (gridFactors e).1 := by
    exact_mod_cast hle
  rw [Decimal.toRat, le_div_iff₀ hden']
  refine le_of_mul_le_mul_right ?_ hup'
  calc (n : ℚ) * 10 ^ e * i.den * (gridFactors e).1
    _ = n * (i.den * (10 ^ e * (gridFactors e).1)) := by ring
    _ ≤ i.high * (gridFactors e).1 := by rwa [← hdown]

/-- The first grid that has a neighbour gives digits that are not zero and not too large. -/
theorem shortestFrom_bounds {i : Interval} (hden : 0 < i.den) (magnitude : Int) (count fuel : Nat) :
    shortestFrom i magnitude count fuel = ⟨0, 0⟩ ∨
      (shortestFrom i magnitude count fuel).digits ≠ 0 ∧
        (shortestFrom i magnitude count fuel).toRat ≤ (i.high : ℚ) / i.den := by
  induction fuel generalizing count with
  | zero => exact .inl rfl
  | succ fuel ih =>
    rw [shortestFrom]
    split
    · rename_i d hgrid
      split
      · exact ih _
      · rename_i hdigits
        exact .inr ⟨hdigits, toRat_le_of_onGrid? hden hgrid⟩
    · exact ih _

/-- **What is written for a number**: a zero, or digits that are not zero and whose value is at most
half a unit too large. -/
theorem shortest_bounds (x : Binary64) :
    x.shortest = ⟨0, 0⟩ ∨
      x.shortest.digits ≠ 0 ∧ x.shortest.toRat ≤ (x.mantissa + 1 / 2) * 2 ^ x.exponent := by
  unfold shortest
  split
  · exact .inl rfl
  · obtain ⟨hden, hhigh⟩ := high_interval x
    dsimp only
    rw [← hhigh]
    rcases shortestFrom_bounds hden (decimalMagnitude x.interval.value x.interval.den) 1 17 with
      hzero | ⟨hdigits, hle⟩
    · rw [hzero]
      exact .inl rfl
    · obtain ⟨hvalue, hkeeps⟩ := Decimal.toRat_stripZeros 20
        (shortestFrom x.interval (decimalMagnitude x.interval.value x.interval.den) 1 17)
      exact .inr ⟨hkeeps hdigits, hvalue ▸ hle⟩

end Binary64

end Syndication
