import Syndication.Article.FrontMatter
import Syndication.Files.Path
import Syndication.Files.Program
import Syndication.Json.Parser
import Syndication.Text.Utf8
import Syndication.Yaml.Document

/-!
# Articles in files

An article is kept as a JSON document, as a page of HTML, or as Markdown with front
matter. The extension of the file, in any case, names the format; Markdown is the
format of all other files. An article without a title is named after its first
heading or after its file.

Main statements:

* `ofFile_hasSource`: an article that is read from a file has a body in Markdown or
  HTML.
-/

namespace Syndication

/-- Why no article could be read from a file. -/
inductive ArticleError where
  /-- There is no text at the path. -/
  | unreadable (path : String)
  /-- The text is no article document. -/
  | invalidJson (path : String)
  /-- The front matter says nothing about an article. -/
  | invalidFrontMatter (path : String)
  /-- The article has no body. -/
  | noContent (path : String)
deriving DecidableEq, Repr

/-- The wording of the error. -/
def ArticleError.message : ArticleError → String
  | .unreadable path => s!"Failed to read article: {path}"
  | .invalidJson path => s!"Invalid article JSON: {path}"
  | .invalidFrontMatter path => s!"Invalid frontmatter in {path}"
  | .noContent path => s!"Article has no content: {path}"

/-- The formats of article files. -/
inductive ArticleFormat where
  /-- A JSON document. -/
  | json
  /-- A page of HTML. -/
  | html
  /-- Markdown, perhaps with front matter. -/
  | markdown
deriving DecidableEq, Repr

/-- The format of the file at a path. -/
def ArticleFormat.ofPath (path : String) : ArticleFormat :=
  match (Files.extension? path).map Text.toAsciiLower with
  | some "json" => .json
  | some "html" | some "htm" => .html
  | _ => .markdown

namespace Article

/-- The first heading of a Markdown text that is written with one `#` at the
beginning of a line. -/
def heading? (body : List Char) : Option (List Char) :=
  (Chars.lines body).findSome? fun line =>
    (Chars.stripPrefix? "# ".toList line).map Chars.trim

/-- The article that a Markdown text writes, unless its front matter is malformed. -/
def ofMarkdown? (text : List Char) : Option Article := do
  let (front, body) := FrontMatter.split text
  let front ← match front.filter fun f => !(Chars.trim f).isEmpty with
    | none => some FrontMatter.empty
    | some yaml => (Yaml.document? (String.ofList yaml)).bind FrontMatter.ofDocument?
  let title := (front.title.filter (!Text.isBlankText ·)).orElse fun _ =>
    (heading? body).map String.ofList
  return {
    title := title.getD ""
    markdown := some (String.ofList (Chars.trim body))
    html := none
    summary := front.summary
    cover := front.cover
    tags := front.tags
    categories := front.categories
    sourceUrl := front.sourceUrl }

/-- The article that a text writes in the format of its file. -/
def ofText (path : String) (text : List Char) : Except ArticleError Article :=
  match ArticleFormat.ofPath path with
  | .json =>
    match (Json.document? (String.ofList text)).bind ofDocument? with
    | some a => .ok a
    | none => .error (.invalidJson path)
  | .html => .ok { empty with html := some (String.ofList text) }
  | .markdown =>
    match ofMarkdown? text with
    | some a => .ok a
    | none => .error (.invalidFrontMatter path)

/-- The article, named after its file if it has no title. -/
def named (path : String) (a : Article) : Article :=
  if Text.isBlankText a.title then { a with title := (Files.stem? path).getD "" } else a

/-- **The article in a file** with some bytes. -/
def ofFile (path : String) (content : List UInt8) : Except ArticleError Article := do
  match Text.decode? content with
  | none => throw (.unreadable path)
  | some text =>
    let a := named path (← ofText path text)
    if a.markdown.isNone && a.html.isNone then throw (.noContent path)
    return a

/-- An article that is read from a file has a body in Markdown or HTML. -/
theorem ofFile_hasSource {path : String} {content : List UInt8} {a : Article}
    (h : ofFile path content = .ok a) : a.markdown.isSome ∨ a.html.isSome := by
  unfold ofFile at h
  split at h
  · simp [throw, throwThe, MonadExceptOf.throw] at h
  · rename_i text _
    cases ht : ofText path text with
    | error e => simp [ht, bind, Except.bind] at h
    | ok b =>
      simp only [ht, bind, Except.bind] at h
      split at h
      · simp [throw, throwThe, MonadExceptOf.throw] at h
      · rename_i hc
        simp only [pure, Except.pure, Except.ok.injEq] at h
        subst h
        simp only [Bool.and_eq_true, Option.isNone_iff_eq_none] at hc
        by_cases hm : (named path b).markdown = none
        · exact Or.inr (Option.isSome_iff_ne_none.2 fun hh => hc ⟨hm, hh⟩)
        · exact Or.inl (Option.isSome_iff_ne_none.2 hm)

/-- The article in the file at a path. -/
def load (path : String) : FileProgram (Except ArticleError Article) := do
  match ← FileProgram.entry path with
  | .file content => return ofFile path content
  | _ => return .error (.unreadable path)

end Article

end Syndication
