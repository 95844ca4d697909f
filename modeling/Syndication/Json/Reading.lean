import Syndication.Json.Basic
import Syndication.Decimal.Reading

/-!
# Reading a JSON number

The digits, the fraction and the exponent of a number that has already been
found in a text become an integer or a number of double precision.

A number without fraction and exponent is an integer if it fits 64 bits, with a
sign only below zero. Every other number has a significand of 64 bits: digits
are taken while it fits, further digits before the point each count for a power
of ten, and further digits of the fraction are dropped. The significand is
rounded to double precision and then multiplied or divided by a power of ten of
double precision, so the result may differ from the nearest number in the last
place. A number too large for double precision has no value.

Main statement:

* `integer?_eq_some`: what is read as an integer is the number that the digits
  write.
-/

namespace Syndication.Json

/-- A number as it stands in a text. -/
structure NumberText where
  /-- Whether a minus sign stands before it. -/
  negative : Bool
  /-- The digits before the point. -/
  whole : List Char
  /-- The digits after the point, if there is one. -/
  fraction : Option (List Char)
  exponent : Option Int
deriving DecidableEq, Repr

namespace NumberText

/-- The integer that the digits write, when there is neither fraction nor
exponent and it fits 64 bits: below `2 ^ 64` without a sign, from `-2 ^ 63` to
`-1` with one. -/
def integer? (t : NumberText) : Option Int :=
  let n := Decimal.natOfDigits t.whole
  if t.fraction.isSome || t.exponent.isSome then none
  else if t.negative then if 0 < n ∧ Decimal.leastInt64 ≤ -(n : Int) then some (-(n : Int))
    else none
  else if n ≤ Decimal.greatestNat64 then some n else none

/-- What is read as an integer is the number that the digits write. -/
theorem integer?_eq_some {t : NumberText} {i : Int} (h : t.integer? = some i) :
    i = if t.negative then -(Decimal.natOfDigits t.whole : Int)
      else Decimal.natOfDigits t.whole := by
  unfold integer? at h
  cases hneg : t.negative <;> simp only [hneg] at h <;> simp_all

/-- Takes digits into a significand while it fits 64 bits; gives the
significand, how many digits were taken and the digits that were not. -/
def takeDigits : Nat → List Char → Nat × Nat × List Char
  | significand, [] => (significand, 0, [])
  | significand, c :: cs =>
    let next := significand * 10 + Decimal.digitValue c
    if next ≤ Decimal.greatestNat64 then
      let (s, taken, rest) := takeDigits next cs
      (s, taken + 1, rest)
    else (significand, 0, c :: cs)

/-- The significand times a power of ten, both of double precision. The powers
of ten end at 308; below the range of one division two are made. -/
def scaled (significand : Nat) (exponent : Int) : Option Binary64 :=
  (Binary64.ofNat significand).bind fun f =>
    let power (k : Nat) : Option Binary64 := Binary64.ofDecimal false 1 k
    if f.isZero then some f
    else if 308 < exponent then none
    else if 0 ≤ exponent then (power exponent.toNat).bind f.mul
    else if -308 ≤ exponent then (power (-exponent).toNat).bind f.div
    else if -616 ≤ exponent then
      (power 308).bind fun p => (f.div p).bind fun g => (power (-(exponent + 308)).toNat).bind g.div
    else some (Binary64.zero false)

/-- The number of double precision that a text with fraction or exponent, or
with too many digits, stands for. -/
def double? (t : NumberText) : Option Binary64 :=
  let (significand, _, beyond) := takeDigits 0 t.whole
  -- every digit of the fraction that was taken lowers the exponent
  let (significand, taken, _) := takeDigits significand (t.fraction.getD [])
  let exponent := (beyond.length : Int) - taken + t.exponent.getD 0
  (scaled significand exponent).map fun x => { x with negative := t.negative }

/-- The number that a text stands for, unless it is too large. -/
def number? (t : NumberText) : Option Number :=
  match t.integer? with
  | some i => some (.integer i)
  | none => t.double?.map .double

end NumberText

end Syndication.Json
