import Syndication.Markup.Converter
import Syndication.Program

/-!
# Converting content in a run

A run has its content converted by whatever it was given for the purpose. A conversion
gives a text or is cut off by a fault; it asks nothing of the outside.

Main statement:

* `silent_program`: a conversion reports nothing.
-/

namespace Syndication

/-- What a conversion gives: a text, or a fault with its text if it has one. -/
abbrev Conversion := Except (Option String) String

/-- What converts the content of a run. -/
structure ContentProcessor where
  /-- Cleans HTML. -/
  clean : String → Conversion
  /-- The HTML of a Markdown text. -/
  markdownToHtml : String → Conversion
  /-- The Markdown of an HTML text. -/
  htmlToMarkdown : String → Conversion

/-- A converter by which nothing is cut off. -/
def Converter.processor (k : Converter) : ContentProcessor where
  clean html := .ok (k.clean html)
  markdownToHtml markdown := .ok (k.markdownToHtml markdown)
  htmlToMarkdown html := .ok (k.htmlToMarkdown html)

instance : Coe Converter ContentProcessor :=
  ⟨Converter.processor⟩

/-- The converter for the subset of Markdown that articles use. -/
def ContentProcessor.basic : ContentProcessor :=
  Converter.basic.processor

/-- A conversion as a part of a program. -/
def Conversion.program : Conversion → Program String
  | .ok text => pure text
  | .error fault => .fault fault

/-- A conversion reports nothing. -/
theorem Conversion.silent_program (c : Conversion) : c.program.Silent := by
  cases c <;> trivial

end Syndication
