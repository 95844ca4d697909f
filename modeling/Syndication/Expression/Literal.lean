import Syndication.Text.Blank
import Syndication.Decimal.Reading
import Syndication.Json.Basic
import Syndication.Expression.Error

/-!
# Literals

The right-hand side of a comparison: null, undefined, a truth value, a number or
a quoted text.

Main statements:

* `holdsFor_none`: only null and undefined hold for an absent value.
-/

namespace Syndication

/-- The right-hand side of a comparison. -/
inductive Literal where
  | null
  /-- Undefined; it holds for the same values as null. -/
  | undefined
  /-- A truth value. -/
  | bool (value : Bool)
  /-- An integer of 64 bits. -/
  | integer (value : Int)
  /-- Any other number. -/
  | double (value : Binary64)
  /-- A text. -/
  | string (value : String)
deriving DecidableEq, Repr

namespace Literal

/-- The text between two equal quotes at the ends of a text. -/
def unquote? (quote : Char) (cs : List Char) : Option (List Char) :=
  match cs with
  | first :: rest =>
    if first = quote ∧ rest.getLast? = some quote then some rest.dropLast else none
  | [] => none

/-- The literal that a text writes. -/
def parseChars (raw : List Char) : Except ExpressionError Literal :=
  let cs := Chars.trim raw
  let text := String.ofList cs
  if text = "null" then .ok .null
  else if text = "undefined" then .ok .undefined
  else if text = "true" then .ok (.bool true)
  else if text = "false" then .ok (.bool false)
  else match unquote? '"' cs with
  | some inner => .ok (.string (String.ofList inner))
  | none =>
    match unquote? '\'' cs with
    | some inner => .ok (.string (String.ofList inner))
    | none =>
      match Decimal.int64? cs with
      | some i => .ok (.integer i)
      | none =>
        match Decimal.binary64? cs with
        | some x => .ok (.double x)
        | none => .error (.invalidLiteral text)

/-- The literal that a text writes. -/
def parse (raw : String) : Except ExpressionError Literal :=
  parseChars raw.toList

/-- Whether a number is equal to an integer. Beyond 64 bits with a sign the two
are compared in double precision. -/
def integerHolds (expected : Int) (actual : Json.Number) : Bool :=
  match actual.int64? with
  | some actual => actual == expected
  | none => doublesAgree actual.binary64? (Binary64.ofInt expected)
where
  /-- Whether two numbers of double precision are there and equal. -/
  doublesAgree : Option Binary64 → Option Binary64 → Bool
    | some x, some y => x.sameValue y
    | _, _ => false

/-- Whether the literal is equal to a value that may be absent. -/
def holdsFor : Literal → Option Json → Bool
  | .null, none | .null, some .null => true
  | .undefined, none | .undefined, some .null => true
  | .bool expected, some (.bool actual) => expected == actual
  | .integer expected, some (.number actual) => integerHolds expected actual
  | .double expected, some (.number actual) =>
    match actual.binary64? with
    | some x => x.sameValue expected
    | none => false
  | .string expected, some (.string actual) => expected == actual
  | _, _ => false

/-- Only null and undefined hold for an absent value. -/
theorem holdsFor_none {l : Literal} : l.holdsFor none = true ↔ l = .null ∨ l = .undefined := by
  cases l <;> simp [holdsFor]

end Literal

end Syndication
