import Syndication.Decimal.Reading
import Syndication.Json.Basic

/-!
# Plain scalars

A scalar that a document writes without quotes has no type of its own: it is a
text where a text is wanted and a null, a truth value or a number where any
value is wanted and it is spelled like one. These are the spellings.
-/

namespace Syndication.Plain

/-- The spellings of null; an empty scalar is null too. -/
def isNull (raw : String) : Bool :=
  raw == "" || raw == "null" || raw == "Null" || raw == "NULL" || raw == "~"

/-- The truth value that a scalar spells. -/
def bool? (raw : String) : Option Bool :=
  if raw == "true" || raw == "True" || raw == "TRUE" then some true
  else if raw == "false" || raw == "False" || raw == "FALSE" then some false
  else none

/-- The value of a hexadecimal digit. -/
def hexValue? (c : Char) : Option Nat :=
  if c.isDigit then some (c.toNat - '0'.toNat)
  else if 'a' ≤ c ∧ c ≤ 'f' then some (c.toNat - 'a'.toNat + 10)
  else if 'A' ≤ c ∧ c ≤ 'F' then some (c.toNat - 'A'.toNat + 10)
  else none

/-- The number that a nonempty run of digits writes in a base up to sixteen. -/
def natInBase? (base : Nat) (cs : List Char) : Option Nat :=
  if cs.isEmpty then none
  else cs.foldl
    (fun acc c => acc.bind fun n => (hexValue? c).bind fun d =>
      if d < base then some (n * base + d) else none)
    (some 0)

/-- Whether digits are written with a zero in front, which makes them no
number. -/
def hasLeadingZero : List Char → Bool
  | '0' :: c :: cs => (c :: cs).all Char.isDigit
  | _ => false

/-- The natural number that digits write: decimal, or in base sixteen, eight or
two behind `0x`, `0o` or `0b`. -/
def unsigned? (cs : List Char) : Option Nat :=
  match cs with
  | '0' :: 'x' :: ds => natInBase? 16 ds
  | '0' :: 'o' :: ds => natInBase? 8 ds
  | '0' :: 'b' :: ds => natInBase? 2 ds
  | ds => if hasLeadingZero ds then none else Decimal.natOfDigits? ds

/-- The integer that a scalar spells, of any size. -/
def spelledInteger? (raw : String) : Option Int :=
  match raw.toList with
  | '+' :: ds => (unsigned? ds).map Int.ofNat
  | '-' :: ds => (unsigned? ds).map fun n => -(n : Int)
  | ds => (unsigned? ds).map Int.ofNat

/-- The integer that a scalar spells, if it is one of 64 bits. -/
def integer? (raw : String) : Option Int :=
  (spelledInteger? raw).filter fun i =>
    Decimal.leastInt64 ≤ i && i ≤ Decimal.greatestNat64

/-- The least integer of 128 bits with a sign. -/
def leastInt128 : Int := -0x80000000000000000000000000000000

/-- The greatest integer of 128 bits without a sign. -/
def greatestNat128 : Nat := 0xffffffffffffffffffffffffffffffff

/-- Whether a scalar spells an integer of more than 64 bits and up to 128: no
value can hold it. -/
def isWideInteger (raw : String) : Bool :=
  (spelledInteger? raw).any fun i =>
    (leastInt128 ≤ i && i < Decimal.leastInt64) || (Decimal.greatestNat64 < i && i ≤ greatestNat128)

/-- What a scalar spelled like a number beyond the integers stands for. -/
inductive Float where
  /-- A finite number. -/
  | finite (value : Binary64)
  /-- Infinity or no number. -/
  | special
deriving DecidableEq, Repr

/-- Whether a scalar spells infinity or no number. -/
def isSpecialFloat (raw : String) : Bool :=
  [".inf", ".Inf", ".INF"].any (fun name =>
      raw == name || raw == "+" ++ name || raw == "-" ++ name) ||
    [".nan", ".NaN", ".NAN"].contains raw

/-- The number of double precision that a scalar spells. -/
def float? (raw : String) : Option Float :=
  if isSpecialFloat raw then some .special
  else match raw.toList with
    | '+' :: '+' :: _ | '+' :: '-' :: _ => none
    | '+' :: cs | cs => (Decimal.binary64? cs).map .finite

/-- The value of a scalar that is a number if it is spelled like one. -/
def numberOrText (raw : String) : Json :=
  match integer? raw, float? raw with
  | some i, _ => Json.ofInt i
  | none, some (.finite x) => .number (.double x)
  | none, some .special => .null
  | none, none => .string raw

/-- Whether the digits of a scalar make it no number. -/
def isZeroPadded (raw : String) : Bool :=
  match raw.toList with
  | '+' :: cs | '-' :: cs | cs => hasLeadingZero cs

/-- The value of a scalar where any value is wanted. -/
def value? (raw : String) : Option Json :=
  if isNull raw then some .null
  else match bool? raw with
    | some b => some (.bool b)
    | none =>
      if isWideInteger raw then none
      else if isZeroPadded raw then some (.string raw)
      else some (numberOrText raw)

end Syndication.Plain
