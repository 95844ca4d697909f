import Syndication.Article.Basic
import Syndication.Text.Lines
import Syndication.Text.Search
import Syndication.Text.Utf8

/-!
# Front matter

A Markdown text may begin with a block that says something about the article: a
line of three hyphens, the front matter in YAML, and the next line of three hyphens.

Main statement:

* `split`: where a text is cut. The lines are passed one by one, and their bytes
  counted, until one of them closes the front matter.
-/

namespace Syndication

/-- What the front matter of a text says about its article. -/
structure FrontMatter where
  title : Option String
  summary : Option String
  /-- The address of a cover image. -/
  cover : Option String
  tags : List String
  categories : List String
  /-- Where the article was published first. -/
  sourceUrl : Option String
deriving DecidableEq, Repr

namespace FrontMatter

/-- Nothing said about the article. -/
def empty : FrontMatter := ⟨none, none, none, [], [], none⟩

/-- The fields of the document. -/
def layout : List Document.FieldName :=
  [⟨"title", []⟩, ⟨"summary", []⟩, ⟨"cover", []⟩, ⟨"tags", []⟩, ⟨"categories", []⟩,
    ⟨"source_url", []⟩]

/-- What a document says about an article. -/
def ofDocument? (d : Document) : Option FrontMatter := do
  let r ← Document.record? layout d
  return {
    title := ← r.withDefault? "title" none (Document.optional? Document.string?)
    summary := ← r.withDefault? "summary" none (Document.optional? Document.string?)
    cover := ← r.withDefault? "cover" none (Document.optional? Document.string?)
    tags := ← r.withDefault? "tags" [] (Document.list? Document.string?)
    categories := ← r.withDefault? "categories" [] (Document.list? Document.string?)
    sourceUrl := ← r.withDefault? "source_url" none (Document.optional? Document.string?) }

/-! ### Cutting it off -/

/-- The text after the line that opens the front matter, if it begins with one. -/
def afterOpening? (text : List Char) : Option (List Char) :=
  match Chars.stripPrefix? "---\n".toList text with
  | some rest => some rest
  | none => Chars.stripPrefix? "---\r\n".toList text

/-- Whether a line closes the front matter. -/
def isClosing (line : List Char) : Bool :=
  Chars.trimEnd line == "---".toList

/-- The first line that closes the front matter, and the bytes before it, when
`offset` bytes stand before these lines. -/
def closingLine? (offset : Nat) : List (List Char) → Option (Nat × List Char)
  | [] => none
  | line :: rest =>
    if isClosing line then some (offset, line)
    else closingLine? (offset + Text.byteLength line) rest

/-- The mark of byte order. -/
def byteOrderMark : Char := '\uFEFF'

/-- The text without the marks of byte order in front of it. -/
def unmarked (text : List Char) : List Char :=
  text.dropWhile (· == byteOrderMark)

/-- **The front matter of a text and the body after it.** Marks of byte order in
front are left out; a text that opens front matter and never closes it is all body. -/
def split (text : List Char) : Option (List Char) × List Char :=
  let text := unmarked text
  match afterOpening? text with
  | none => (none, text)
  | some rest =>
    match closingLine? 0 (Chars.linesInclusive rest) with
    | none => (none, text)
    | some (offset, line) =>
      (some (Text.takeBytes offset rest), Text.dropBytes (offset + Text.byteLength line) rest)

end FrontMatter

end Syndication
