import Syndication.Text.Search
import Syndication.Decimal.Reading
import Syndication.Url.Percent

/-!
# Numeric host addresses

An address of version four is one to four numbers between full stops, each
decimal, octal behind `0` or hexadecimal behind `0x`; the last one fills the
bytes that are left. A domain name whose last label is a number has to be such an
address. An address of version six is eight groups of up to four hexadecimal
digits, of which one run of zeros may be left out and the last two may be written
as an address of version four.
-/

namespace Syndication.Url

/-! ### Version four -/

/-- A part of an address of version four as it is read. -/
inductive AddressPart where
  /-- A number of 32 bits. -/
  | number (n : Nat)
  /-- A number beyond 32 bits. -/
  | tooLarge
  /-- No number. -/
  | notANumber
deriving DecidableEq, Repr

/-- The number that digits write in a base, if they are digits of it. -/
def natOfBase? (base : Nat) (cs : List Char) : Option Nat :=
  cs.foldl
    (fun acc c => acc.bind fun n => (hexDigit? c).bind fun d =>
      if d < base then some (n * base + d) else none)
    (some 0)

/-- Reads a part of an address of version four. -/
def addressPart (cs : List Char) : AddressPart :=
  let value : Option Nat := match cs with
    | [] => none
    | '0' :: 'x' :: ds | '0' :: 'X' :: ds => natOfBase? 16 ds
    -- a zero alone is decimal
    | '0' :: d :: ds => natOfBase? 8 (d :: ds)
    | ds => natOfBase? 10 ds
  match value with
  | none => .notANumber
  | some n => if n < 0x100000000 then .number n else .tooLarge

/-- Whether the last label of a domain name, a trailing full stop apart, is a
number. -/
def endsInNumber (domain : List Char) : Bool :=
  let labels := (Chars.splitOn '.' domain).reverse
  let last := match labels with
    | [] :: l :: _ => some l
    | [[]] => none
    | l :: _ => some l
    | [] => none
  match last with
  | none => false
  | some l => (!l.isEmpty && l.all Char.isDigit) || addressPart l != .notANumber

/-- The address of version four that a domain name ending in a number is. -/
def address4? (domain : List Char) : Option Nat := do
  let parts := Chars.splitOn '.' domain
  let parts := if parts.getLast? = some [] then parts.dropLast else parts
  if 4 < parts.length then none
  else
    let numbers ← parts.mapM fun p => match addressPart p with
      | .number n => some n
      | _ => none
    let last ← numbers.getLast?
    let leading := numbers.dropLast
    -- the last part fills the bytes that the others leave
    if last < Nat.pow 256 (4 - leading.length) ∧ leading.all (· < 256) then
      some (leading.foldr (fun n (acc : Nat × Nat) => (acc.1 + n * acc.2, acc.2 * 256))
        (last, Nat.pow 256 (4 - leading.length))).1
    else none

/-- The text of an address of version four. -/
def address4Text (n : Nat) : List Char :=
  let byte (i : Nat) : List Char := Nat.toDigits 10 (n / Nat.pow 256 i % 256)
  byte 3 ++ '.' :: byte 2 ++ '.' :: byte 1 ++ '.' :: byte 0

/-! ### Version six -/

/-- Up to four hexadecimal digits that begin a text, and the rest. -/
def hexGroup (cs : List Char) : List Char × List Char :=
  let digits := (cs.take 4).takeWhile fun c => (hexDigit? c).isSome
  (digits, cs.drop digits.length)

/-- The two groups that an address of version four at the end stands for. -/
def trailing4? (cs : List Char) : Option (List Nat) := do
  let parts := Chars.splitOn '.' cs
  if parts.length ≠ 4 then none
  else
    let numbers ← parts.mapM fun p =>
      if 3 < p.length || (p.length != 1 && p.head? == some '0') then none
      else (Decimal.natOfDigits? p).filter (· < 256)
    match numbers with
    | [a, b, c, d] => some [a * 256 + b, c * 256 + d]
    | _ => none

/-- Reads groups: those before the gap, and those after it if there is one.
`fuel` bounds the groups. -/
def readGroups : Nat → List Nat → Option (List Nat) → List Char →
    Option (List Nat × Option (List Nat))
  | _, groups, gap, [] => some (groups, gap)
  | 0, _, _, _ => none
  | fuel + 1, groups, gap, cs =>
    let (digits, rest) := hexGroup cs
    match digits, rest with
    -- two colons: only one run of zeros may be left out
    | [], ':' :: r => if gap.isSome then none else readGroups fuel [] (some groups) r
    | [], _ => none
    | ds, '.' :: _ =>
      if ds.isEmpty then none else (trailing4? cs).map fun tail => (groups ++ tail, gap)
    | ds, ':' :: r =>
      if r.isEmpty then none
      else (natOfBase? 16 ds).bind fun n => readGroups fuel (groups ++ [n]) gap r
    | ds, [] => (natOfBase? 16 ds).map fun n => (groups ++ [n], gap)
    | _, _ => none

/-- The eight groups of an address of version six. -/
def address6? (cs : List Char) : Option (List Nat) := do
  let start ← match cs with
    | ':' :: ':' :: r => some (r, some ([] : List Nat))
    | ':' :: _ => none
    | r => some (r, none)
  let (groups, gap) ← readGroups 17 [] start.2 start.1
  match gap with
  | none => if groups.length = 8 then some groups else none
  | some before =>
    let count := before.length + groups.length
    -- the gap stands for one group at least
    if count ≤ 7 then some (before ++ List.replicate (8 - count) 0 ++ groups) else none

/-- The beginning and the length of the longest run of two or more zero groups,
the first of those of equal length. -/
def longestZeroRun (groups : List Nat) : Nat × Nat :=
  let lengths := (List.range 8).map fun i => (i, ((groups.drop i).takeWhile (· == 0)).length)
  lengths.foldl (fun best run => if best.2 < run.2 ∧ 1 < run.2 then run else best) (8, 0)

/-- The text of a group. -/
def groupText (n : Nat) : List Char :=
  Nat.toDigits 16 n

/-- The text of an address of version six. -/
def address6Text (groups : List Nat) : List Char :=
  let (start, length) := longestZeroRun groups
  if length = 0 then Chars.join [':'] (groups.map groupText)
  else
    Chars.join [':'] ((groups.take start).map groupText) ++ [':', ':'] ++
      Chars.join [':'] ((groups.drop (start + length)).map groupText)

end Syndication.Url
