import Syndication.Expression.Basic

/-!
# Spellings of expressions

How field paths, literals and comparisons are written. A path is written as an optional mark of the
whole value, a segment, and further segments behind a dot or in brackets; a literal as a word, an
integer in decimal, or a text between two quotation marks. There are blanks around the parts of an
expression or none. Several comparisons with something between them are a chain, which is no
expression.
-/

namespace Syndication

namespace FieldPath

/-- A segment: a nonempty run of ASCII letters, digits, underscores and hyphens. -/
structure Segment where
  chars : List Char
  isSegment : isSegment chars = true

/-- How a written path begins. -/
inductive Opening where
  /-- With its first segment. -/
  | bare
  /-- With the mark of the whole value. -/
  | root
  /-- With the mark of the whole value and a dot. -/
  | rootDot
deriving DecidableEq, Repr

/-- A further segment, with the way in which it is joined to the one before it. -/
inductive Joined where
  /-- Behind a dot. -/
  | dotted (segment : Segment)
  /-- In brackets. -/
  | bracketed (segment : Segment)

/-- What stands before the first segment. -/
def Opening.chars : Opening → List Char
  | .bare => []
  | .root => ['$']
  | .rootDot => ['$', '.']

namespace Joined

/-- The segment itself. -/
def segment : Joined → Segment
  | .dotted segment => segment
  | .bracketed segment => segment

/-- The segment as it is written. -/
def chars : Joined → List Char
  | .dotted segment => '.' :: segment.chars
  | .bracketed segment => '[' :: (segment.chars ++ [']'])

end Joined

/-- **A way to write a path** that has a segment. -/
structure Spelling where
  opening : Opening
  first : Segment
  later : List Joined

namespace Spelling

/-- What stands behind the mark of the whole value. -/
def body (s : Spelling) : List Char :=
  s.first.chars ++ s.later.flatMap Joined.chars

/-- The path as it is written. -/
def text (s : Spelling) : String :=
  String.ofList (s.opening.chars ++ s.body)

/-- The path that is written. -/
def path (s : Spelling) : FieldPath :=
  ⟨(s.first :: s.later.map Joined.segment).map fun segment => String.ofList segment.chars⟩

end Spelling

/-- **A text writes a path**: the mark of the whole value writes the path without segments, and a
spelling the path of its segments. -/
def Writes (text : String) (path : FieldPath) : Prop :=
  (text = "$" ∧ path = ⟨[]⟩) ∨ ∃ s : Spelling, text = s.text ∧ s.path = path

end FieldPath

namespace Literal

/-- What stands around a quoted text. -/
inductive QuotationMark where
  | single
  | double
deriving DecidableEq, Repr

def QuotationMark.char : QuotationMark → Char
  | .single => '\''
  | .double => '"'

/-- The text with the mark around it. -/
def QuotationMark.quote (mark : QuotationMark) (text : String) : String :=
  String.ofList (mark.char :: (text.toList ++ [mark.char]))

/-- **A way to write a literal.** A quoted text lies on one line. -/
inductive Spelling where
  | null
  | undefined
  | bool (value : Bool)
  | integer (value : Int64)
  /-- A text between quotation marks; it is taken as it is, quotation marks included. -/
  | quoted (mark : QuotationMark) (text : String) (oneLine : '\n' ∉ text.toList)

namespace Spelling

/-- The literal as it is written. -/
def text : Spelling → String
  | .null => "null"
  | .undefined => "undefined"
  | .bool true => "true"
  | .bool false => "false"
  | .integer value => toString value.toInt
  | .quoted mark text _ => mark.quote text

/-- The literal that is written. -/
def literal : Spelling → Literal
  | .null => .null
  | .undefined => .undefined
  | .bool value => .bool value
  | .integer value => .integer value.toInt
  | .quoted _ text _ => .string text

end Spelling

/-- **A way to write an integer in decimal**, with a sign or without one and with zeros before it or
without any. It is one of 64 bits, with a sign or without. -/
structure Numeral where
  text : String
  value : Int
  writes : Decimal.int? text.toList = some value
  atLeast : Decimal.leastInt64 ≤ value
  atMost : value ≤ Decimal.greatestNat64

end Literal

namespace Expression

/-- What may stand around the parts of an expression: blanks, or nothing. -/
structure Gap where
  text : String
  isBlank : ∀ c ∈ text.toList, Text.isBlank c = true

/-- **A way to write a comparison** of the value at a path with a text in quotation marks. The
text is any text. -/
structure QuotedComparison where
  left : String
  path : FieldPath
  writes : FieldPath.Writes left path
  gap : Gap
  operator : Operator
  gap' : Gap
  mark : Literal.QuotationMark
  quoted : String

/-- What stands before the literal. -/
def QuotedComparison.head (c : QuotedComparison) : String :=
  c.left ++ c.gap.text ++ c.operator.text ++ c.gap'.text

/-- The comparison as it is written. -/
def QuotedComparison.text (c : QuotedComparison) : String :=
  c.head ++ c.mark.quote c.quoted

/-- **A way to write a comparison** of the value at a path with an integer, as long as the operator
is left open. -/
structure IntegerComparison where
  before : Gap
  left : String
  path : FieldPath
  writes : FieldPath.Writes left path
  gap : Gap
  gap' : Gap
  numeral : Literal.Numeral
  after : Gap

/-- The comparison as it is written with an operator. -/
def IntegerComparison.text (c : IntegerComparison) (operator : Operator) : String :=
  c.before.text ++ c.left ++ c.gap.text ++ operator.text ++
    (c.gap'.text ++ c.numeral.text ++ c.after.text)

/-- **A chain of comparisons**, two of them or more. The connectives between them are any texts. -/
structure Chain where
  first : QuotedComparison
  /-- Those between the first and the last, each with the connective before it. -/
  middle : List (String × QuotedComparison)
  connective : String
  last : QuotedComparison

namespace Chain

/-- The chain as it is written. -/
def text (c : Chain) : String :=
  c.first.text ++ String.join (c.middle.map fun link => link.1 ++ link.2.text) ++ c.connective ++
    c.last.text

/-- What stands between the first literal and the last. -/
def between (c : Chain) : String :=
  String.join (c.middle.map fun link => link.1 ++ link.2.text) ++ c.connective ++ c.last.head

/-- Everything from the first literal on. -/
def tail (c : Chain) : String :=
  c.first.mark.quote c.first.quoted ++ c.between ++ c.last.mark.quote c.last.quoted

/-- Everything between the first quotation mark and the last. -/
def inner (c : Chain) : String :=
  c.first.quoted ++ String.singleton c.first.mark.char ++ c.between ++
    String.singleton c.last.mark.char ++ c.last.quoted

end Chain

end Expression

end Syndication
