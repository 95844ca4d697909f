import Syndication.KeyMap
import Syndication.Text.Pattern
import Syndication.Text.Search

/-!
# The images of a content

The addresses of the images in HTML or Markdown, and putting other addresses in
their place.

Main statements:

* `nodup_imageSources`: every address is listed once.
* `withHostedImages_nil`: without other addresses the content stays as it is.
-/

namespace Syndication

open Pattern

/-- An image in HTML; group 1 is the address. -/
def htmlImage : Pattern :=
  let quote : Pattern := .one fun c => c == '"' || c == '\''
  sequence [literal "<img", .wordEdge, .few (noneOf ['>']), .wordEdge, literal "src", blanks,
    char '=', blanks, quote, .group 1 (many1 (noneOf ['"', '\''])), quote]

/-- An image in Markdown; group 1 is the address. -/
def markdownImage : Pattern :=
  sequence [literal "![", .many (noneOf [']']), literal "](", blanks, maybe (char '<'),
    .group 1 (many1 fun c => !(c == ')' || c == '>' || Text.isBlank c)), maybe (char '>')]

/-- Whether an address is one that an image can be fetched from. -/
def isRemote (source : String) : Bool :=
  Text.startsWith "http://" source || Text.startsWith "https://" source

/-- The items in order, each once. -/
def distinct {α : Type} [DecidableEq α] : List α → List α
  | [] => []
  | x :: rest => x :: (distinct rest).filter (· ≠ x)

theorem nodup_distinct {α : Type} [DecidableEq α] (l : List α) : (distinct l).Nodup := by
  induction l with
  | nil => exact List.nodup_nil
  | cons x rest ih =>
    simp only [distinct]
    refine List.nodup_cons.2 ⟨by simp, ?_⟩
    exact ih.filter _

theorem mem_distinct {α : Type} [DecidableEq α] {l : List α} {x : α} : x ∈ distinct l ↔ x ∈ l := by
  induction l with
  | nil => simp [distinct]
  | cons y rest ih =>
    by_cases h : x = y <;> simp [distinct, h, ih]

/-- The addresses of the images of a content from which they can be fetched, each
once: those in HTML, then those in Markdown. -/
def imageSources (content : String) : List String :=
  let sources (pattern : Pattern) : List String :=
    (pattern.allMatches content.toList).map fun m => String.ofList (m.group 1)
  distinct ((sources htmlImage ++ sources markdownImage).filter isRemote)

/-- Every address is listed once. -/
theorem nodup_imageSources (content : String) : (imageSources content).Nodup :=
  nodup_distinct _

/-- The text of an image with the address that is hosted for it. -/
def swapSource (hosted : KeyMap String) (m : Match) : List Char :=
  match hosted.find? (String.ofList (m.group 1)) with
  | some address => m.substitute 1 address.toList
  | none => m.text

/-- The content with the addresses of images replaced by those that are hosted
for them. -/
def withHostedImages (hosted : KeyMap String) (content : String) : String :=
  if hosted.isEmpty then content
  else
    -- first the images in HTML, then those in Markdown in what has come of it
    let html := htmlImage.replace (swapSource hosted) content.toList
    String.ofList (markdownImage.replace (swapSource hosted) html)

/-- Without other addresses the content stays as it is. -/
theorem withHostedImages_nil (content : String) : withHostedImages [] content = content := rfl

end Syndication
