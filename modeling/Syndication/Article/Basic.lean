import Syndication.Json.Parser
import Syndication.Json.Printer
import Syndication.Text.Blank

/-!
# Articles

An article that is to be published: a title, a body in Markdown, HTML or both,
and what is said about it.

Main statements:

* `Article.ofDocument?`, `Article.decode?`: reading an article out of a document,
  and out of the text of one.
* `Article.toJson`, `Article.encode`: the document of an article, with every field,
  as a value and as a text.
-/

namespace Syndication

/-- An article. -/
structure Article where
  title : String
  /-- The body in Markdown. -/
  markdown : Option String
  /-- The body in HTML. -/
  html : Option String
  summary : Option String
  /-- The address of a cover image. -/
  cover : Option String
  tags : List String
  categories : List String
  /-- Where the article was published first. -/
  sourceUrl : Option String
deriving DecidableEq, Repr

namespace Article

/-- An article about which nothing is said. -/
def empty : Article := ⟨"", none, none, none, none, [], [], none⟩

instance : Inhabited Article := ⟨empty⟩

/-- Whether the article has a cover image. -/
def hasCover (a : Article) : Bool :=
  a.cover.any (!Text.isBlankText ·)

/-- The fields of the document. -/
def layout : List Document.FieldName :=
  [⟨"title", []⟩, ⟨"markdown", []⟩, ⟨"html", []⟩, ⟨"summary", []⟩, ⟨"cover", []⟩, ⟨"tags", []⟩,
    ⟨"categories", []⟩, ⟨"source_url", []⟩]

/-- The article that a document describes. -/
def ofDocument? (d : Document) : Option Article := do
  let r ← Document.record? layout d
  return {
    title := ← r.withDefault? "title" "" Document.string?
    markdown := ← r.withDefault? "markdown" none (Document.optional? Document.string?)
    html := ← r.withDefault? "html" none (Document.optional? Document.string?)
    summary := ← r.withDefault? "summary" none (Document.optional? Document.string?)
    cover := ← r.withDefault? "cover" none (Document.optional? Document.string?)
    tags := ← r.withDefault? "tags" [] (Document.list? Document.string?)
    categories := ← r.withDefault? "categories" [] (Document.list? Document.string?)
    sourceUrl := ← r.withDefault? "source_url" none (Document.optional? Document.string?) }

/-- The members of the document of an article, in the order of the fields. -/
def members (a : Article) : List (String × Json) :=
  [("title", .string a.title), ("markdown", Json.ofOption a.markdown),
    ("html", Json.ofOption a.html), ("summary", Json.ofOption a.summary),
    ("cover", Json.ofOption a.cover), ("tags", Json.ofStrings a.tags),
    ("categories", Json.ofStrings a.categories), ("source_url", Json.ofOption a.sourceUrl)]

/-- The document of an article. -/
def toJson (a : Article) : Json :=
  Json.ofMembers a.members

/-- The text of an article, the fields in their order. -/
def encode (a : Article) : String :=
  (Json.object a.members).compact

/-- The article that a text describes. -/
def decode? (text : String) : Option Article :=
  (Json.document? text).bind ofDocument?

end Article

end Syndication
