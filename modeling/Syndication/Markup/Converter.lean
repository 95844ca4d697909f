import Syndication.Markup.Html
import Syndication.Markup.Markdown

/-!
# Converters

What a run needs of the formats: cleaning HTML, and going from one format to the
other.
-/

namespace Syndication

/-- The conversions between the formats. -/
structure Converter where
  /-- Cleans HTML. -/
  clean : String → String
  /-- The HTML of a Markdown text. -/
  markdownToHtml : String → String
  /-- The Markdown of an HTML text. -/
  htmlToMarkdown : String → String

/-- The converter for the subset of Markdown that articles use. -/
def Converter.basic : Converter where
  clean html := String.ofList (Markup.clean html.toList)
  markdownToHtml markdown := String.ofList (Markup.Markdown.toHtml markdown.toList)
  htmlToMarkdown html := String.ofList (Markup.Html.toMarkdown html.toList)

end Syndication
