import Syndication.Text.Search

/-!
# Universally unique identifiers

An identifier is a number of 128 bits, written as 32 hexadecimal digits in groups.

Main statement:

* `Uuid.text`, `Uuid.parse?`: writing an identifier, and reading one that is
  written with or without hyphens, in braces or as a name.
-/

namespace Syndication

/-- An identifier. -/
structure Uuid where
  /-- The number. -/
  value : Nat
deriving DecidableEq, Repr

namespace Uuid

/-- The value of a hexadecimal digit. -/
def hexValue? (c : Char) : Option Nat :=
  if c.isDigit then some (c.toNat - '0'.toNat)
  else if 'a' ≤ c ∧ c ≤ 'f' then some (c.toNat - 'a'.toNat + 10)
  else if 'A' ≤ c ∧ c ≤ 'F' then some (c.toNat - 'A'.toNat + 10)
  else none

/-- The number that hexadecimal digits write, in front of which `value` was
read. -/
def natOfHex? (value : Nat) : List Char → Option Nat
  | [] => some value
  | c :: rest => do natOfHex? (value * 16 + (← hexValue? c)) rest

/-- The lengths of the groups of digits. -/
def groups : List Nat := [8, 4, 4, 4, 12]

/-- Cuts digits into groups with a separator between them. -/
def grouped : List Nat → List Char → List Char
  | [], _ | [_], [] => []
  | [n], cs => cs.take n
  | n :: rest, cs => cs.take n ++ '-' :: grouped rest (cs.drop n)

/-- The digits of groups with a hyphen between them. -/
def ungrouped? : List Nat → List Char → Option (List Char)
  | [], cs => if cs.isEmpty then some [] else none
  | [n], cs => if cs.length = n then some cs else none
  | n :: rest, cs =>
    match cs.drop n with
    | '-' :: others => (ungrouped? rest others).map (cs.take n ++ ·)
    | _ => none

/-- The text: small letters, in groups. -/
def text (u : Uuid) : String :=
  let digits := Nat.toDigits 16 u.value
  String.ofList (grouped groups (List.replicate (32 - digits.length) '0' ++ digits))

/-- The identifier that digits in groups write. -/
def parseGrouped? (cs : List Char) : Option Uuid := do
  return ⟨← natOfHex? 0 (← ungrouped? groups cs)⟩

/-- Reads an identifier: digits alone or in groups, and the latter also in braces
or behind `urn:uuid:`. -/
def parse? (s : String) : Option Uuid :=
  let cs := s.toList
  if cs.length = 32 then (natOfHex? 0 cs).map (⟨·⟩)
  else match Chars.stripPrefix? "urn:uuid:".toList cs, cs with
    | some rest, _ => parseGrouped? rest
    | none, '{' :: rest => if rest.getLast? = some '}' then parseGrouped? rest.dropLast else none
    | none, cs => parseGrouped? cs

/-- The identifier made of random bits: all but those that say that it is one. -/
def ofRandom (bits : Nat) : Uuid :=
  let high := bits / Nat.pow 2 80 % Nat.pow 2 48
  let middle := bits / Nat.pow 2 64 % Nat.pow 2 12
  let low := bits % Nat.pow 2 62
  ⟨high * Nat.pow 2 80 + 4 * Nat.pow 2 76 + middle * Nat.pow 2 64 + 2 * Nat.pow 2 62 + low⟩

end Uuid

end Syndication
