/-!
# Finite numbers of double precision

A finite number of double precision is a sign and a magnitude `mantissa · 2 ^
exponent`. The representation is canonical: the mantissa has 53 bits, or fewer
when the exponent is the least one, so two numbers that are not zero are equal
exactly when their representations are. Arithmetic is exact arithmetic followed
by one rounding to the nearest number, a tie going to the even mantissa; a
magnitude that rounds to `2 ^ 1024` or more has no finite number.

Main statements:

* `nearest_zero`: nothing is lost at zero.
* `sameValue_refl`: a number has the value of itself.
-/

namespace Syndication

/-- A finite number of double precision. -/
structure Binary64 where
  /-- Whether the sign is minus; zero has both signs. -/
  negative : Bool
  /-- The integer that the power of two multiplies. -/
  mantissa : Nat
  /-- The exponent of the power of two. -/
  exponent : Int
deriving DecidableEq, Repr

namespace Binary64

/-- The least exponent, that of zero and of the numbers below the normal
range. -/
def leastExponent : Int := -1074

/-- The greatest exponent. -/
def greatestExponent : Int := 971

/-- Zero with a sign. -/
def zero (negative : Bool) : Binary64 :=
  ⟨negative, 0, leastExponent⟩

instance : Inhabited Binary64 := ⟨zero false⟩

/-- Whether the number is zero, of either sign. -/
def isZero (x : Binary64) : Bool :=
  x.mantissa == 0

/-- Whether two numbers have the same value: the two zeros do. -/
def sameValue (x y : Binary64) : Bool :=
  (x.isZero && y.isZero) || x == y

@[simp] theorem sameValue_refl (x : Binary64) : x.sameValue x = true := by
  simp [sameValue]

/-- The integer nearest to `num / den`, a tie going to the even one. -/
def divideNearest (num den : Nat) : Nat :=
  let q := num / den
  let r := num % den
  if 2 * r < den then q
  else if den < 2 * r then q + 1
  else if q % 2 = 0 then q else q + 1

/-- The fraction `num / den` divided by `2 ^ exponent`, as a fraction. -/
def scale (num den : Nat) (exponent : Int) : Nat × Nat :=
  if 0 ≤ exponent then (num, den * Nat.pow 2 exponent.toNat)
  else (num * Nat.pow 2 (-exponent).toNat, den)

/-- **The number nearest to a fraction** `num / den`, with a sign; nothing when
the fraction is too large. The exponent is the one at which the integer part of
the mantissa has 53 bits, but not below the least one. -/
def nearest (negative : Bool) (num den : Nat) : Option Binary64 :=
  if num = 0 then some (zero negative)
  else
    -- too great by one at most: the lengths in bits leave a factor of two open
    let guess : Int := (Nat.log2 num : Int) - (Nat.log2 den : Int) - 52
    let (n, d) := scale num den guess
    let exact := if n / d < Nat.pow 2 52 then guess - 1 else guess
    -- below the normal range the mantissa has fewer bits
    let exponent := max exact leastExponent
    let (n, d) := scale num den exponent
    let mantissa := divideNearest n d
    -- rounding up may have given one bit more
    let (mantissa, exponent) :=
      if mantissa = Nat.pow 2 53 then (Nat.pow 2 52, exponent + 1) else (mantissa, exponent)
    if greatestExponent < exponent then none else some ⟨negative, mantissa, exponent⟩

@[simp] theorem nearest_zero (negative : Bool) (den : Nat) :
    nearest negative 0 den = some (zero negative) := rfl

/-- The number nearest to an integer. -/
def ofInt (i : Int) : Option Binary64 :=
  nearest (i < 0) i.natAbs 1

/-- The number nearest to a natural number. -/
def ofNat (n : Nat) : Option Binary64 :=
  nearest false n 1

/-- The magnitude as a fraction. -/
def magnitude (x : Binary64) : Nat × Nat :=
  if 0 ≤ x.exponent then (x.mantissa * Nat.pow 2 x.exponent.toNat, 1)
  else (x.mantissa, Nat.pow 2 (-x.exponent).toNat)

/-- The product of two numbers. -/
def mul (x y : Binary64) : Option Binary64 :=
  let (xn, xd) := x.magnitude
  let (yn, yd) := y.magnitude
  nearest (x.negative != y.negative) (xn * yn) (xd * yd)

/-- The quotient of two numbers, the second of which is not zero. -/
def div (x y : Binary64) : Option Binary64 :=
  let (xn, xd) := x.magnitude
  let (yn, yd) := y.magnitude
  nearest (x.negative != y.negative) (xn * yd) (xd * yn)

/-- **The number nearest to a decimal number** `digits · 10 ^ exponent`. Far
beyond the range the answer is known without computing the power. -/
def ofDecimal (negative : Bool) (digits : Nat) (exponent : Int) : Option Binary64 :=
  let size := (Nat.toDigits 10 digits).length
  if digits = 0 then some (zero negative)
  else if 310 < exponent + size then none
  else if exponent + size < -330 then some (zero negative)
  else if 0 ≤ exponent then nearest negative (digits * Nat.pow 10 exponent.toNat) 1
  else nearest negative digits (Nat.pow 10 (-exponent).toNat)

/-- Whether the number is an integer. -/
def isInteger (x : Binary64) : Bool :=
  let (n, d) := x.magnitude
  n % d == 0

/-- The integer nearest to the number, a half going away from zero. -/
def round (x : Binary64) : Int :=
  let (n, d) := x.magnitude
  let magnitude := (2 * n + d) / (2 * d)
  if x.negative then -(magnitude : Int) else magnitude

end Binary64

end Syndication
