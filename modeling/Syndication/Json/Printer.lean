import Syndication.Json.Basic

/-!
# Writing JSON

The compact text of a value has no blanks; the indented one puts every item and
member on a line of its own. Both write the members of an object in the order of
their keys. Only the quotation mark, the backslash and the control characters
below U+0020 are escaped.

A number of double precision is written with the fewest digits that read back:
without an exponent, and with at least one digit after the point, when its first
digit stands for a power of ten from -5 to 15, and in scientific notation
otherwise.
-/

namespace Syndication.Json

/-- The characters of a control character's escape, of an escaped quotation mark
or backslash, or of a character as it is. -/
def escapeChar (c : Char) : List Char :=
  if c = '"' then ['\\', '"']
  else if c = '\\' then ['\\', '\\']
  else if c.toNat < 0x20 then
    match c with
    | '\n' => ['\\', 'n']
    | '\r' => ['\\', 'r']
    | '\t' => ['\\', 't']
    | c =>
      if c.toNat = 8 then ['\\', 'b']
      else if c.toNat = 12 then ['\\', 'f']
      else ['\\', 'u', '0', '0', Nat.digitChar (c.toNat / 16), Nat.digitChar (c.toNat % 16)]
  else [c]

/-- A text between quotation marks. -/
def quote (s : String) : List Char :=
  '"' :: s.toList.flatMap escapeChar ++ ['"']

/-- The exponents of the first digit for which a number is written without an
exponent. -/
def writtenPositionally (leadingExponent : Int) : Bool :=
  -5 ≤ leadingExponent && leadingExponent ≤ 15

/-- The text of a number of double precision. -/
def doubleChars (x : Binary64) : List Char :=
  let d := x.shortest
  let body :=
    if writtenPositionally d.leadingExponent then
      d.positional ++ if 0 ≤ d.exponent then ['.', '0'] else []
    else d.scientific
  if x.negative then '-' :: body else body

/-- The text of an integer. -/
def intChars (i : Int) : List Char :=
  if i < 0 then '-' :: Nat.toDigits 10 i.natAbs else Nat.toDigits 10 i.natAbs

/-- The text of a number. -/
def Number.chars : Number → List Char
  | .integer i => intChars i
  | .double x => doubleChars x

/-- The text of a number. -/
def Number.text (n : Number) : String :=
  String.ofList n.chars

mutual

/-- The compact text of a value. -/
def compactChars : Json → List Char
  | .null => ['n', 'u', 'l', 'l']
  | .bool true => ['t', 'r', 'u', 'e']
  | .bool false => ['f', 'a', 'l', 's', 'e']
  | .number n => n.chars
  | .string s => quote s
  | .array items => '[' :: compactItems items ++ [']']
  | .object members => '{' :: compactMembers members ++ ['}']

/-- The compact texts of items, with commas between them. -/
def compactItems : List Json → List Char
  | [] => []
  | [v] => compactChars v
  | v :: w :: rest => compactChars v ++ ',' :: compactItems (w :: rest)

/-- The compact texts of members, with commas between them. -/
def compactMembers : List (String × Json) → List Char
  | [] => []
  | [(k, v)] => quote k ++ ':' :: compactChars v
  | (k, v) :: m :: rest => quote k ++ ':' :: compactChars v ++ ',' :: compactMembers (m :: rest)

end

/-- The compact text of a value. -/
def compact (v : Json) : String :=
  String.ofList v.compactChars

/-- A line break and the blanks before an item that is `depth` levels deep. -/
def newLine (depth : Nat) : List Char :=
  '\n' :: List.replicate (2 * depth) ' '

mutual

/-- The indented text of a value that stands `depth` levels deep. -/
def indentedChars (depth : Nat) : Json → List Char
  | .array [] => ['[', ']']
  | .array (v :: rest) =>
    '[' :: newLine (depth + 1) ++ indentedItems (depth + 1) (v :: rest) ++ newLine depth ++ [']']
  | .object [] => ['{', '}']
  | .object (m :: rest) =>
    '{' :: newLine (depth + 1) ++ indentedMembers (depth + 1) (m :: rest) ++ newLine depth ++ ['}']
  | v => v.compactChars

/-- The indented texts of items, one on each line. -/
def indentedItems (depth : Nat) : List Json → List Char
  | [] => []
  | [v] => indentedChars depth v
  | v :: w :: rest =>
    indentedChars depth v ++ ',' :: newLine depth ++ indentedItems depth (w :: rest)

/-- The indented texts of members, one on each line. -/
def indentedMembers (depth : Nat) : List (String × Json) → List Char
  | [] => []
  | [(k, v)] => quote k ++ ':' :: ' ' :: indentedChars depth v
  | (k, v) :: m :: rest =>
    quote k ++ ':' :: ' ' :: indentedChars depth v ++ ',' :: newLine depth ++
      indentedMembers depth (m :: rest)

end

/-- The indented text of a value. -/
def indented (v : Json) : String :=
  String.ofList (v.indentedChars 0)

end Syndication.Json
