import Syndication.Markup.Clean
import Syndication.Markup.Entity
import Syndication.Text.Lines
import Syndication.Text.Search

/-!
# From HTML to Markdown

HTML becomes Markdown by a sequence of replacements over the whole text:
preformatted code, headings, images, links, strong and plain emphasis, code, list
items, line breaks and the ends of blocks become their Markdown; then all other
tags are dropped, character references are read, and blank lines are reduced.
-/

namespace Syndication.Markup.Html

open Pattern

/-- The rest of an opening tag behind its name. -/
def tagRest : Pattern :=
  .seq (.many (noneOf ['>'])) (char '>')

/-- Either kind of quotation mark. -/
def quoteMark : Pattern :=
  .one fun c => c == '"' || c == '\''

/-- The value of an attribute between quotation marks, which may not be empty. -/
def attr (name : String) : Pattern :=
  sequence [literalIgnoringCase name, blanks, char '=', blanks, quoteMark,
    .group 1 (many1 (noneOf ['"', '\''])), quoteMark]

/-- Everything, as little as possible. -/
def body (number : Nat) : Pattern :=
  .group number (.few anyChar)

/-- Preformatted text, perhaps with code inside. -/
def preformatted : Pattern :=
  sequence [literalIgnoringCase "<pre", tagRest, blanks,
    maybe (.seq (literalIgnoringCase "<code") tagRest), body 1,
    maybe (literalIgnoringCase "</code>"), blanks, literalIgnoringCase "</pre>"]

/-- The digit of a heading. -/
def headingDigit : Pattern :=
  .one fun c => '1' ≤ c && c ≤ '6'

/-- A heading. -/
def heading : Pattern :=
  sequence [literalIgnoringCase "<h", .group 1 headingDigit, tagRest, body 2,
    literalIgnoringCase "</h", headingDigit, char '>']

/-- An image: its source. -/
def image : Pattern :=
  sequence [literalIgnoringCase "<img", .wordEdge, .few (noneOf ['>']), attr "src", tagRest]

/-- The alternative text of an image. -/
def alternative : Pattern :=
  sequence [literalIgnoringCase "alt", blanks, char '=', blanks, quoteMark,
    .group 1 (.many (noneOf ['"', '\''])), quoteMark]

/-- A link: its address and its text. -/
def link : Pattern :=
  sequence [literalIgnoringCase "<a", .wordEdge, .few (noneOf ['>']), attr "href", tagRest,
    body 2, literalIgnoringCase "</a>"]

/-- Something between tags of one of two names without attributes. -/
def paired (long short : String) : Pattern :=
  let name := choice [literalIgnoringCase long, literalIgnoringCase short]
  sequence [char '<', name, char '>', body 1, literal "</", name, char '>']

/-- Something between tags of a name. -/
def tagged (name : String) : Pattern :=
  sequence [char '<', literalIgnoringCase name, tagRest, body 1, literal "</",
    literalIgnoringCase name, char '>']

/-- A line break. -/
def lineBreak : Pattern :=
  sequence [literalIgnoringCase "<br", blanks, maybe (char '/'), char '>']

/-- The end of a block. -/
def blockEnd : Pattern :=
  sequence [literal "</",
    choice [literalIgnoringCase "p", literalIgnoringCase "div", literalIgnoringCase "ul",
      literalIgnoringCase "ol", literalIgnoringCase "blockquote",
      .seq (literalIgnoringCase "h") headingDigit],
    char '>']

/-- Any tag. -/
def anyTag : Pattern :=
  sequence [char '<', many1 (noneOf ['>']), char '>']

/-- Three or more line feeds. -/
def blankRun : Pattern :=
  .seq (literal "\n\n\n") (.many (· == '\n'))

/-- A text without the line feeds at its ends. -/
def trimLineFeeds (cs : List Char) : List Char :=
  ((cs.dropWhile (· == '\n')).reverse.dropWhile (· == '\n')).reverse

/-- Fenced code. -/
def fenced (m : Match) : List Char :=
  "\n\x60\x60\x60\n".toList ++ Entity.decode (trimLineFeeds (m.group 1)) ++
    "\n\x60\x60\x60\n".toList

/-- A heading of Markdown. -/
def markedHeading (m : Match) : List Char :=
  -- the group holds one digit
  let level := (m.group 1).foldl (fun _ c => c.toNat - '0'.toNat) 1
  '\n' :: List.replicate level '#' ++ ' ' :: Chars.trim (m.group 2) ++ ['\n']

/-- An image of Markdown. -/
def markedImage (m : Match) : List Char :=
  let text := match alternative.first? m.text with
    | some a => a.group 1
    | none => []
  '!' :: '[' :: text ++ ']' :: '(' :: m.group 1 ++ [')']

/-- A link of Markdown. -/
def markedLink (m : Match) : List Char :=
  '[' :: m.group 2 ++ ']' :: '(' :: m.group 1 ++ [')']

/-- The text of a group between two marks. -/
def marked (before after : String) (m : Match) : List Char :=
  before.toList ++ m.group 1 ++ after.toList

/-- The text with its tags turned into marks. -/
def markUp (html : List Char) : List Char :=
  -- code first, so that what follows finds no tags of its own in it
  let text := preformatted.replace fenced html
  let text := heading.replace markedHeading text
  let text := image.replace markedImage text
  let text := link.replace markedLink text
  let text := (paired "strong" "b").replace (marked "**" "**") text
  let text := (paired "em" "i").replace (marked "*" "*") text
  let text := (tagged "code").replace (marked "\x60" "\x60") text
  let text := (tagged "li").replace (marked "- " "\n") text
  let text := lineBreak.replace (fun _ => ['\n']) text
  let text := blockEnd.replace (fun _ => ['\n', '\n']) text
  anyTag.delete text

/-- The lines with the blanks at their ends trimmed and at most one blank line
between two others. -/
def tidy (text : List Char) : List Char :=
  -- lines of blanks become empty, so that runs of them can be seen
  let joined := Chars.join ['\n'] ((Chars.lines text).map Chars.trimEnd)
  Chars.trim (blankRun.replace (fun _ => ['\n', '\n']) joined)

/-- The Markdown of an HTML text. -/
def toMarkdown (html : List Char) : List Char :=
  tidy (Entity.decode (markUp (clean html)))

end Syndication.Markup.Html
