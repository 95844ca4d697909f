import Syndication.Decimal.Reading
import Syndication.Decimal.Shortest

/-!
# Numbers of double precision with infinities

A number of double precision, one of the two infinities, or the mark for no number:
what a decimal text without bounds is rounded to, and how it is turned into a text
or a natural number.

Main statements:

* `toNat_le`: turning into a natural number up to a bound never exceeds it.
-/

namespace Syndication

/-- A number of double precision, an infinity, or no number. -/
inductive Extended where
  /-- A finite number. -/
  | finite (value : Binary64)
  | infinite (negative : Bool)
  /-- No number. -/
  | notANumber
deriving DecidableEq, Repr

namespace Extended

/-- What a decimal number is rounded to. -/
def ofWritten (w : Decimal.Written) : Extended :=
  match Binary64.ofDecimal w.negative w.digits w.exponent with
  | some x => .finite x
  | none => .infinite w.negative

/-- What a name stands for, in any case. -/
def named? (negative : Bool) (name : List Char) : Option Extended :=
  let name := name.map Char.toLower
  if name = "inf".toList ∨ name = "infinity".toList then some (.infinite negative)
  else if name = "nan".toList then some .notANumber
  else none

/-- What a text writes: a decimal number or a name, with an optional sign. -/
def read? (cs : List Char) : Option Extended :=
  match Decimal.written? cs with
  | some w => some (ofWritten w)
  | none =>
    match cs with
    | '-' :: name => named? true name
    | '+' :: name => named? false name
    | name => named? false name

/-- The text: all digits and no exponent. -/
def text : Extended → String
  | .finite x => (if x.negative then "-" else "") ++ String.ofList x.shortest.positional
  | .infinite negative => if negative then "-inf" else "inf"
  | .notANumber => "NaN"

/-- Whether it is zero. -/
def isZero : Extended → Bool
  | .finite x => x.isZero
  | _ => false

/-- The nearest natural number up to a bound; no number is zero. -/
def toNat (greatest : Nat) : Extended → Nat
  | .finite x => min x.round.toNat greatest
  | .infinite negative => if negative then 0 else greatest
  | .notANumber => 0

/-- Turning into a natural number never exceeds the bound. -/
theorem toNat_le (greatest : Nat) (x : Extended) : x.toNat greatest ≤ greatest := by
  cases x with
  | finite x => exact Nat.min_le_right _ _
  | infinite negative => cases negative <;> simp [toNat]
  | notANumber => exact Nat.zero_le _

end Extended

end Syndication
