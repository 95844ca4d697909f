import Syndication.Markup.Entity
import Syndication.Text.Lines
import Syndication.Text.Pattern
import Syndication.Text.Search

/-!
# From Markdown to HTML

A Markdown text is read line by line: headings, paragraphs, lists and fenced
code, at most one of them open at a time. A blank line ends a paragraph or a list,
and so does a block of another kind; only a fence, or the end of the text, ends
fenced code. Within a heading, a paragraph or an item, code, images, links, strong
and plain emphasis are marked up, in this order.

The parts of the HTML that come of this are put together afterwards, each on a
line of its own, but for the tags around fenced code.

Main statements:

* `Writer.close_block`: no block is open when one has been closed.
* `addPart_of_ne`: a part that is not a tag around code gets a line of its own.
-/

namespace Syndication.Markup.Markdown

open Pattern

/-! ### Inline markup -/

/-- Code between backticks. -/
def codeSpan : Pattern :=
  sequence [char '\x60', .group 1 (many1 (noneOf ['\x60'])), char '\x60']

/-- The destination of an image or a link, in parentheses. -/
def destination : Pattern :=
  sequence [char '(', .group 2 (many1 fun c => c != ')' && !Text.isBlank c), char ')']

/-- An image: its alternative text and its destination. -/
def image : Pattern :=
  sequence [literal "![", .group 1 (.many (noneOf [']'])), char ']', destination]

/-- A link: its text and its destination. -/
def link : Pattern :=
  sequence [char '[', .group 1 (many1 (noneOf [']'])), char ']', destination]

/-- Strong emphasis between pairs of asterisks. -/
def strong : Pattern :=
  sequence [literal "**", .group 1 (many1 (noneOf ['*'])), literal "**"]

/-- Emphasis between asterisks. -/
def emphasis : Pattern :=
  sequence [char '*', .group 1 (many1 (noneOf ['*'])), char '*']

/-- The text of a group between two tags. -/
def between (opening closing : String) (m : Match) : List Char :=
  opening.toList ++ m.group 1 ++ closing.toList

/-- The tag of an image. -/
def imageTag (m : Match) : List Char :=
  "<img src=\"".toList ++ m.group 2 ++ "\" alt=\"".toList ++ m.group 1 ++ "\">".toList

/-- The tags of a link. -/
def linkTags (m : Match) : List Char :=
  "<a href=\"".toList ++ m.group 2 ++ "\">".toList ++ m.group 1 ++ "</a>".toList

/-- The HTML of a line of text. -/
def inline (line : List Char) : List Char :=
  let text := Entity.encode line
  let text := codeSpan.replace (between "<code>" "</code>") text
  -- images before links: but for the exclamation mark they look the same
  let text := image.replace imageTag text
  let text := link.replace linkTags text
  -- two asterisks before one
  let text := strong.replace (between "<strong>" "</strong>") text
  emphasis.replace (between "<em>" "</em>") text

/-! ### Lines -/

/-- The marks of a heading, at most six. -/
def headingMarks : Pattern :=
  let mark := char '#'
  let more := fun rest => maybe (.seq mark rest)
  .seq mark (more (more (more (more (more .empty)))))

/-- A line that is a heading: its marks and its text. -/
def headingLine : Pattern :=
  sequence [.textStart, .group 1 headingMarks, blanks1, .group 2 (.few (noneOf ['\n'])), blanks,
    .many (· == '#'), blanks, .textEnd]

/-- A line that is an item of a list: its text. -/
def itemLine : Pattern :=
  sequence [.textStart, blanks,
    choice [.one fun c => c == '-' || c == '*' || c == '+',
      .seq (many1 Text.isDecimalDigit) (char '.')],
    blanks1, .group 1 (.many (noneOf ['\n'])), .textEnd]

/-- What a line is, outside fenced code. -/
inductive Line where
  | fence
  /-- Nothing but blanks. -/
  | blank
  | heading (level : Nat) (text : List Char)
  | item (text : List Char)
  /-- Anything else. -/
  | text (content : List Char)
deriving DecidableEq, Repr

/-- Whether a line opens or closes fenced code. -/
def isFence (line : List Char) : Bool :=
  Chars.startsWith ['\x60', '\x60', '\x60'] (Chars.trimStart line)

/-- What a line is, outside fenced code. -/
def classify (line : List Char) : Line :=
  if isFence line then .fence
  else if line.all Text.isBlank then .blank
  else match headingLine.first? line with
  | some m => .heading (m.group 1).length (m.group 2)
  | none =>
    match itemLine.first? line with
    | some m => .item (m.group 1)
    | none => .text (Chars.trim line)

/-! ### Writing the blocks -/

/-- Text between two tags. -/
def element (opening : String) (content : List Char) (closing : String) : List Char :=
  opening.toList ++ content ++ closing.toList

/-- A heading of HTML. -/
def headingElement (level : Nat) (text : List Char) : List Char :=
  element s!"<h{level}>" (inline text) s!"</h{level}>"

/-- A paragraph of HTML; its lines become one. -/
def paragraphElement (lines : List (List Char)) : List Char :=
  element "<p>" (inline (Chars.join [' '] lines)) "</p>"

/-- The tag before the items of a list. -/
def listOpening : List Char :=
  "<ul>".toList

/-- An item of a list. -/
def itemElement (text : List Char) : List Char :=
  element "<li>" (inline text) "</li>"

/-- The tag behind the items of a list. -/
def listClosing : List Char :=
  "</ul>".toList

/-- The tags before fenced code. -/
def codeOpening : List Char :=
  "<pre><code>".toList

/-- The tags behind fenced code. -/
def codeClosing : List Char :=
  "</code></pre>".toList

/-- The block that is open. -/
inductive OpenBlock where
  /-- No block is open. -/
  | none
  | paragraph
  | list
  /-- Fenced code. -/
  | code
deriving DecidableEq, Repr

/-- What has been written of a text, and what is still to be closed. -/
structure Writer where
  /-- The parts of the HTML: tags, elements and lines of code. -/
  parts : Array (List Char) := #[]
  block : OpenBlock := .none
  /-- The lines of the open paragraph, trimmed. A paragraph is written when it is closed. -/
  paragraph : Array (List Char) := #[]
deriving DecidableEq, Repr

namespace Writer

/-- One more part of the HTML. -/
def push (w : Writer) (part : List Char) : Writer :=
  { w with parts := w.parts.push part }

/-- The open block, if there is one, is closed. -/
def close (w : Writer) : Writer :=
  let closed := match w.block with
    | .none => w
    | .paragraph => { w.push (paragraphElement w.paragraph.toList) with paragraph := #[] }
    | .list => w.push listClosing
    | .code => w.push codeClosing
  { closed with block := .none }

/-- No block is open when one has been closed. -/
@[simp] theorem close_block (w : Writer) : w.close.block = .none := rfl

/-- One more line that is not in fenced code. -/
def addKind (w : Writer) : Line → Writer
  | .fence => { w.close.push codeOpening with block := .code }
  | .blank => w.close
  | .heading level text => w.close.push (headingElement level text)
  | .item text =>
    let opened := if w.block = .list then w else { w.close.push listOpening with block := .list }
    opened.push (itemElement text)
  | .text content =>
    let opened := if w.block = .paragraph then w else { w.close with block := .paragraph }
    { opened with paragraph := opened.paragraph.push content }

/-- One more line of the text. -/
def addLine (w : Writer) (line : List Char) : Writer :=
  if w.block = .code then
    if isFence line then w.close else w.push (Entity.encode line)
  else w.addKind (classify line)

end Writer

/-- The parts of the HTML of a text; the block that is open at its end is closed. -/
def parts (markdown : List Char) : Array (List Char) :=
  ((Chars.lines markdown).foldl Writer.addLine {}).close.parts

/-- HTML with one more part, on a line of its own. There is no line feed between
the tags around code and the code. -/
def addPart (html : Array Char) (part : List Char) : Array Char :=
  if part = codeOpening then html ++ part
  else if part = codeClosing then
    let code := if html.back? = some '\n' then html.pop else html
    (code ++ part).push '\n'
  else (html ++ part).push '\n'

/-- A part that is not a tag around code gets a line of its own. -/
theorem addPart_of_ne {part : List Char} (hopening : part ≠ codeOpening)
    (hclosing : part ≠ codeClosing) (html : Array Char) :
    addPart html part = (html ++ part).push '\n' := by
  rw [addPart, if_neg hopening, if_neg hclosing]

/-- The HTML of a Markdown text. -/
def toHtml (markdown : List Char) : List Char :=
  Chars.trimEnd ((parts markdown).foldl addPart #[]).toList

end Syndication.Markup.Markdown
