import Syndication.Decimal.Binary64

/-!
# The shortest decimal text of a number of double precision

Of all decimal numbers that are read back as the given number, the ones with the
fewest digits are taken, and of those the nearest. The digits are found on
decimal grids: on a grid with one, two, … digits the two neighbours of the
number are tried, and the first grid with a neighbour that reads back wins.

How the digits are laid out is up to the format that writes them: `positional`
and `scientific` are the two layouts.

Main statement:

* `digits_stripZeros_le`: dropping trailing zeros lengthens nothing.
-/

namespace Syndication

/-- A positive decimal number `digits · 10 ^ exponent`. -/
structure Decimal where
  /-- The digits, as one number. -/
  digits : Nat
  /-- The exponent of the power of ten. -/
  exponent : Int
deriving DecidableEq, Repr

namespace Decimal

/-- The digits of the number, the most significant first. -/
def digitChars (d : Decimal) : List Char :=
  Nat.toDigits 10 d.digits

/-- The exponent of the first digit. -/
def leadingExponent (d : Decimal) : Int :=
  d.exponent + d.digitChars.length - 1

/-- The same number without trailing zeros; `fuel` bounds their count. -/
def stripZeros : Nat → Decimal → Decimal
  | 0, d => d
  | fuel + 1, d =>
    if d.digits ≠ 0 ∧ d.digits % 10 = 0 then stripZeros fuel ⟨d.digits / 10, d.exponent + 1⟩ else d

theorem digits_stripZeros_le (fuel : Nat) (d : Decimal) :
    (stripZeros fuel d).digits ≤ d.digits := by
  induction fuel generalizing d with
  | zero => simp [stripZeros]
  | succ fuel ih =>
    simp only [stripZeros]
    split
    · exact Nat.le_trans (ih _) (Nat.div_le_self _ _)
    · exact Nat.le_refl _

end Decimal

namespace Binary64

/-- The number and the interval that is read back as it, all over one
denominator. -/
structure Interval where
  /-- The lower end. -/
  low : Nat
  /-- The number itself. -/
  value : Nat
  /-- The upper end. -/
  high : Nat
  /-- The common denominator. -/
  den : Nat
  /-- Whether the ends themselves are read back as the number. -/
  closed : Bool

/-- The interval of a number that is not zero. Below a power of two the next
number is half as far away. -/
def interval (x : Binary64) : Interval :=
  let below := if x.mantissa = Nat.pow 2 52 ∧ leastExponent < x.exponent then 1 else 2
  -- quarters of the last place make all three integers
  let (factor, den) :=
    if 2 ≤ x.exponent then (Nat.pow 2 (x.exponent - 2).toNat, 1)
    else (1, Nat.pow 2 (2 - x.exponent).toNat)
  ⟨(4 * x.mantissa - below) * factor, 4 * x.mantissa * factor, (4 * x.mantissa + 2) * factor, den,
    x.mantissa % 2 == 0⟩

/-- The least `p` with `num / den < 10 ^ p`, for a fraction that is not zero. -/
def decimalMagnitude (num den : Nat) : Int :=
  if den ≤ num then (Nat.toDigits 10 (num / den)).length
  else 1 - ((Nat.toDigits 10 ((den - 1) / num)).length : Int)

/-- The neighbour of the number on the grid of multiples of `10 ^ exponent` that
is read back as the number, the nearer if both are. -/
def onGrid? (i : Interval) (exponent : Int) : Option Decimal :=
  let (up, down) :=
    if 0 ≤ exponent then (1, Nat.pow 10 exponent.toNat) else (Nat.pow 10 (-exponent).toNat, 1)
  -- everything over the denominator `i.den * down`
  let den := i.den * down
  let value := i.value * up
  let reads (n : Nat) : Bool :=
    let v := n * den
    if i.closed then i.low * up ≤ v && v ≤ i.high * up else i.low * up < v && v < i.high * up
  let floor := value / den
  -- the neighbours are the multiples below and above
  match reads floor, reads (floor + 1) with
  | true, true =>
    let twice := 2 * (value % den)
    if twice < den || (twice == den && floor % 2 == 0) then some ⟨floor, exponent⟩
    else some ⟨floor + 1, exponent⟩
  | true, false => some ⟨floor, exponent⟩
  | false, true => some ⟨floor + 1, exponent⟩
  | false, false => none

/-- The first of the grids with `count`, `count + 1`, … digits that has a
neighbour that reads back. -/
def shortestFrom (i : Interval) (magnitude : Int) : Nat → Nat → Decimal
  | _, 0 => ⟨0, 0⟩
  | count, fuel + 1 =>
    match onGrid? i (magnitude - count) with
    | some d => if d.digits = 0 then shortestFrom i magnitude (count + 1) fuel else d
    | none => shortestFrom i magnitude (count + 1) fuel

/-- **The shortest decimal number that reads back.** Zero has no digits but
`0`. Seventeen digits always suffice. -/
def shortest (x : Binary64) : Decimal :=
  if x.isZero then ⟨0, 0⟩
  else
    let i := x.interval
    Decimal.stripZeros 20 (shortestFrom i (decimalMagnitude i.value i.den) 1 17)

end Binary64

namespace Decimal

/-- The layout without an exponent, with at least one digit before the point and
a fraction only if there is one. -/
def positional (d : Decimal) : List Char :=
  let digits := d.digitChars
  if 0 ≤ d.exponent then digits ++ List.replicate d.exponent.toNat '0'
  else
    let places := (-d.exponent).toNat
    let padded := List.replicate (places + 1 - digits.length) '0' ++ digits
    let whole := padded.length - places
    padded.take whole ++ '.' :: padded.drop whole

/-- The layout with one digit before the point and an exponent that always has
its sign. -/
def scientific (d : Decimal) : List Char :=
  let e := d.leadingExponent
  let tail := d.digitChars.drop 1
  d.digitChars.take 1 ++ (if tail.isEmpty then [] else '.' :: tail) ++ 'e' ::
    (if e < 0 then '-' else '+') :: Nat.toDigits 10 e.natAbs

end Decimal

end Syndication
