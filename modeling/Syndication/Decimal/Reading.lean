import Syndication.Decimal.Binary64

/-!
# Reading decimal numbers

Integers in decimal with an optional sign, and decimal numbers with an optional
sign, fraction and exponent, as a person would type them.

Main statements:

* `natOfDigits?_isSome_iff`: exactly the nonempty runs of ASCII digits are
  natural numbers.
-/

namespace Syndication.Decimal

/-- The value of an ASCII digit. -/
def digitValue (c : Char) : Nat :=
  c.toNat - '0'.toNat

/-- The number that a run of digits writes. -/
def natOfDigits (cs : List Char) : Nat :=
  cs.foldl (fun n c => n * 10 + digitValue c) 0

/-- The natural number that a text writes in decimal, without a sign. -/
def natOfDigits? (cs : List Char) : Option Nat :=
  if cs.isEmpty || !cs.all Char.isDigit then none else some (natOfDigits cs)

theorem natOfDigits?_isSome_iff {cs : List Char} :
    (natOfDigits? cs).isSome = true ↔ cs ≠ [] ∧ cs.all Char.isDigit = true := by
  unfold natOfDigits?
  cases cs with
  | nil => simp
  | cons c cs =>
    cases h : (c :: cs).all Char.isDigit <;> simp

/-- The integer that a text writes in decimal, with an optional sign. -/
def int? (cs : List Char) : Option Int :=
  match cs with
  | '-' :: ds => (natOfDigits? ds).map fun n => -(n : Int)
  | '+' :: ds => (natOfDigits? ds).map Int.ofNat
  | ds => (natOfDigits? ds).map Int.ofNat

/-- The integer that a text writes, if it lies between two bounds. -/
def intWithin? (low high : Int) (cs : List Char) : Option Int :=
  (int? cs).filter fun i => low ≤ i && i ≤ high

/-- The least and the greatest integer of 64 bits with a sign. -/
def leastInt64 : Int := -9223372036854775808

@[inherit_doc leastInt64] def greatestInt64 : Int := 9223372036854775807

/-- The greatest integer of 64 bits without a sign. -/
def greatestNat64 : Nat := 18446744073709551615

/-- The integer of 64 bits with a sign that a text writes. -/
def int64? (cs : List Char) : Option Int :=
  intWithin? leastInt64 greatestInt64 cs

/-- A decimal number before rounding. -/
structure Written where
  /-- Whether the sign is minus. -/
  negative : Bool
  /-- The digits, as one number. -/
  digits : Nat
  /-- The exponent of the power of ten. -/
  exponent : Int
deriving DecidableEq, Repr

/-- The exponent that ends a number: nothing for an empty text, no answer when
the text is not an exponent. -/
def exponent? : List Char → Option Int
  | [] => some 0
  | c :: ds => if c = 'e' ∨ c = 'E' then int? ds else none

/-- The decimal number that a text writes: digits with at most one point among
or at either end of them, at least one digit, then an optional exponent. -/
def written? (cs : List Char) : Option Written :=
  let (negative, cs) := match cs with
    | '-' :: r => (true, r)
    | '+' :: r => (false, r)
    | r => (false, r)
  let whole := cs.takeWhile Char.isDigit
  let rest := cs.dropWhile Char.isDigit
  let (fraction, rest) := match rest with
    | '.' :: r => (r.takeWhile Char.isDigit, r.dropWhile Char.isDigit)
    | r => ([], r)
  if whole.isEmpty && fraction.isEmpty then none
  else (exponent? rest).map fun e =>
    ⟨negative, natOfDigits (whole ++ fraction), e - fraction.length⟩

/-- The finite number of double precision nearest to what a text writes. -/
def binary64? (cs : List Char) : Option Binary64 :=
  (written? cs).bind fun w => Binary64.ofDecimal w.negative w.digits w.exponent

end Syndication.Decimal
