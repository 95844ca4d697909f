import Syndication.Text.Pattern

/-!
# Cleaning HTML

Before anything else is done with HTML, scripts and styles, comments, and
attributes that hold event handlers are deleted, in this order, and the blanks at
the ends are trimmed.
-/

namespace Syndication.Markup

open Pattern

/-- A script or a style with everything in it. -/
def scriptOrStyle : Pattern :=
  let name := choice [literalIgnoringCase "script", literalIgnoringCase "style"]
  sequence [char '<', name, .wordEdge, .many (noneOf ['>']), char '>', .few anyChar, literal "</",
    name, blanks, char '>']

/-- A comment. -/
def comment : Pattern :=
  sequence [literal "<!--", .few anyChar, literal "-->"]

/-- Whether a character is a letter from A to Z when case is ignored. -/
def isLetterIgnoringCase (c : Char) : Bool :=
  c.isAlpha || c == '\u017F' || c == '\u212A'

/-- An attribute whose name begins with `on`, with the blanks before it. -/
def eventAttribute : Pattern :=
  let quotedBy (q : Char) : Pattern := sequence [char q, .many (noneOf [q]), char q]
  sequence [blanks1, literalIgnoringCase "on", many1 isLetterIgnoringCase, blanks, char '=', blanks,
    choice [quotedBy '"', quotedBy '\'', many1 fun c => !Text.isBlank c && c != '>']]

/-- HTML without scripts, styles, comments and event handlers. -/
def clean (html : List Char) : List Char :=
  Chars.trim (eventAttribute.delete (comment.delete (scriptOrStyle.delete html)))

end Syndication.Markup
