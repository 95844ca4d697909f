import Syndication.Expression.Path
import Syndication.Expression.Literal
import Syndication.Json.Printer
import Syndication.Text.Pattern

/-!
# Expressions

An expression is a field path or one comparison of a field path with a literal.
It is read once; evaluating it never fails, and a value that is not there is
`none`.

Main statements:

* `test_equal`, `test_notEqual`: a comparison holds exactly when its literal
  does, or does not.
-/

namespace Syndication

/-- An expression over a JSON value. -/
inductive Expression where
  /-- The value at a path. -/
  | field (path : FieldPath)
  /-- Whether the value at a path equals a literal. -/
  | equal (path : FieldPath) (literal : Literal)
  /-- Whether the value at a path differs from a literal. -/
  | notEqual (path : FieldPath) (literal : Literal)
deriving DecidableEq, Repr

namespace Expression

/-! ### Reading -/

/-- The characters that end the left-hand side of a comparison. -/
def endsOperand (c : Char) : Bool :=
  Text.isBlank c || c == '=' || c == '!'

/-- The operators of a comparison. -/
inductive Operator where
  | equal
  | notEqual
deriving DecidableEq, Repr

namespace Operator

/-- The operator as it is written. -/
def text : Operator → String
  | .equal => "=="
  | .notEqual => "!="

/-- The operator that a text writes, which is one of the two. -/
def ofChars (cs : List Char) : Operator :=
  if cs = ['=', '='] then .equal else .notEqual

/-- The comparison with the operator. -/
def compare : Operator → FieldPath → Literal → Expression
  | .equal => .equal
  | .notEqual => .notEqual

end Operator

/-- A comparison: its left side (the first group), an operator (the second), and
its right side (the third), which lies on one line. Blanks around the parts belong
to none of them, as far as that leaves something of the right side. -/
def comparison : Pattern :=
  .sequence [.textStart, .blanks, .group 1 (.many1 (!endsOperand ·)), .blanks,
    .group 2 (.choice [.literal "==", .literal "!="]), .blanks, .group 3 (.few1 (· != '\n')),
    .blanks, .textEnd]

/-- The two sides of a comparison and the operator between them. -/
def comparison? (cs : List Char) : Option (List Char × Operator × List Char) :=
  (comparison.first? cs).map fun m => (m.group 1, .ofChars (m.group 2), m.group 3)

/-- The characters that only a comparison may have. -/
def isOperatorChar (c : Char) : Bool :=
  ['=', '!', '<', '>', '&', '|', '(', ')'].contains c

/-- The expression that a text writes. -/
def parseChars (raw : List Char) : Except ExpressionError Expression :=
  let cs := Chars.trim raw
  if cs.isEmpty then .error .empty
  else match comparison? cs with
  | some (left, operator, right) => do
    let path ← FieldPath.parseChars left
    let literal ← Literal.parseChars right
    return operator.compare path literal
  | none =>
    if cs.any Text.isBlank || cs.any isOperatorChar then
      .error (.unsupported (String.ofList cs))
    else do
      let path ← FieldPath.parseChars cs
      return .field path

/-- The expression that a text writes. -/
def parse (raw : String) : Except ExpressionError Expression :=
  parseChars raw.toList

/-! ### Evaluating -/

/-- The value of an expression; that of a comparison is a truth value. -/
def evaluate (value : Json) : Expression → Option Json
  | .field path => path.resolve value
  | .equal path literal => some (.bool (literal.holdsFor (path.resolve value)))
  | .notEqual path literal => some (.bool (!literal.holdsFor (path.resolve value)))

end Expression

/-- Whether a value counts as true: an absent value, null, false, zero and the
empty text do not. -/
def isTruthy : Option Json → Bool
  | none | some .null => false
  | some (.bool b) => b
  | some (.number n) => !n.isZero
  | some (.string s) => !s.isEmpty
  | some (.array _) | some (.object _) => true

/-- The text of a value where it becomes part of a text: nothing for an absent
value and null, a text as it is, and compact JSON for all else. -/
def renderValue : Option Json → String
  | none | some .null => ""
  | some (.string s) => s
  | some other => other.compact

namespace Expression

/-- Whether the value of an expression counts as true. -/
def test (value : Json) (e : Expression) : Bool :=
  isTruthy (e.evaluate value)

@[simp] theorem test_equal (value : Json) (path : FieldPath) (literal : Literal) :
    test value (.equal path literal) = literal.holdsFor (path.resolve value) := rfl

@[simp] theorem test_notEqual (value : Json) (path : FieldPath) (literal : Literal) :
    test value (.notEqual path literal) = !literal.holdsFor (path.resolve value) := rfl

end Expression

end Syndication
