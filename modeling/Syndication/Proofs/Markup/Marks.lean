import Syndication.Markup.Markdown
import Syndication.Proofs.Text.Scanning

/-!
# The marks within a line

The markup of a line replaces code, images, links and the two kinds of emphasis, one after the
other. A match of one of their patterns has the marks at its ends, and its groups are what the marks
enclose.

Main statements:

* `exists_between_of_matchAt`: what code and emphasis are made of.
* `exists_address_of_matchAt`: what images and links are made of.
* `inline_eq`: the markup of a line is made in five passes.
-/

namespace Syndication.Markup.Markdown

open Pattern

variable {m : Match} {p : Place} {cs rest : List Char}

/-! ### What the patterns of a line match -/

/-- **A pattern of certain texts**, which reports no group. -/
def Recognizes (P : List Char → Prop) (pattern : Pattern) : Prop :=
  ∀ p groups q groups', pattern.Covers p groups q groups' →
    groups' = groups ∧ ∃ cs, p.rest = cs ++ q.rest ∧ P cs

theorem recognizes_char (c : Char) : Recognizes (· = [c]) (char c) := by
  rintro p groups q groups' ⟨d, hrest, -, hd, rfl⟩
  exact ⟨rfl, [c], by rw [hrest, eq_of_beq hd]; rfl, rfl⟩

theorem recognizes_literal (s : String) : Recognizes (· = s.toList) (literal s) := fun _ _ _ _ h =>
  ⟨h.literal.2, s.toList, h.literal.1, rfl⟩

theorem recognizes_many (accepts : Char → Bool) :
    Recognizes (fun cs => ∀ c ∈ cs, accepts c = true) (.many accepts) :=
  fun _ _ _ _ h => ⟨h.2, h.1.exists_append⟩

theorem recognizes_many1 (accepts : Char → Bool) :
    Recognizes (fun cs => cs ≠ [] ∧ ∀ c ∈ cs, accepts c = true) (many1 accepts) := by
  intro p groups q groups' h
  obtain ⟨cs, hne, hcs, hrest, hgroups⟩ := h.exists_many1
  exact ⟨hgroups, cs, hrest, hne, hcs⟩

theorem text_of_whole (h : m.whole = ⟨cs ++ rest, rest⟩) : m.text = cs := by
  rw [Match.text, h, Span.text_mk_append]

section Shapes

variable {opening body closing : Pattern} {P : List Char → Prop} {os zs : List Char}

/-- What stands between two marks. -/
theorem exists_between_of_matchAt (hopening : Recognizes (· = os) opening)
    (hbody : Recognizes P body) (hclosing : Recognizes (· = zs) closing)
    (h : (sequence [opening, .group 1 body, closing]).matchAt p = some m) :
    ∃ text rest, p.rest = os ++ (text ++ zs) ++ rest ∧ m.whole = ⟨p.rest, rest⟩ ∧
      m.group 1 = text ∧ P text := by
  obtain ⟨q, ⟨p₁, groups₁, h₁, p₂, groups₂, ⟨inner, h₂, rfl⟩, h₃⟩, hwhole⟩ :=
    exists_covers_of_matchAt h
  obtain ⟨rfl, _, hrest₁, rfl⟩ := hopening _ _ _ _ h₁
  obtain ⟨rfl, text, hrest₂, htext⟩ := hbody _ _ _ _ h₂
  obtain ⟨hgroups, _, hrest₃, rfl⟩ := hclosing _ _ _ _ h₃
  refine ⟨text, q.rest, ?_, hwhole, ?_, htext⟩
  · rw [hrest₁, hrest₂, hrest₃]
    simp only [List.append_assoc]
  · rw [Match.group, hgroups, hrest₂]
    exact Span.text_mk_append text p₂.rest

/-- A destination: the characters in its parentheses. -/
theorem exists_of_covers_destination {q : Place} {groups groups' : List (Nat × Span)}
    (h : destination.Covers p groups q groups') :
    ∃ address, p.rest = '(' :: (address ++ ')' :: q.rest) ∧ address ≠ [] ∧
      (∀ c ∈ address, c ≠ ')' ∧ Text.isBlank c = false) ∧
      groups' = (2, ⟨address ++ ')' :: q.rest, ')' :: q.rest⟩) :: groups := by
  obtain ⟨p₁, groups₁, h₁, p₂, groups₂, ⟨inner, h₂, rfl⟩, h₃⟩ := h
  obtain ⟨rfl, _, hrest₁, rfl⟩ := recognizes_char _ _ _ _ _ h₁
  obtain ⟨rfl, address, hrest₂, hne, haddress⟩ := recognizes_many1 _ _ _ _ _ h₂
  obtain ⟨rfl, _, hrest₃, rfl⟩ := recognizes_char _ _ _ _ _ h₃
  rw [List.singleton_append] at hrest₁ hrest₃
  refine ⟨address, by rw [hrest₁, hrest₂, hrest₃], hne, fun c hc => ?_, by rw [hrest₂, hrest₃]⟩
  simpa using haddress c hc

/-- What stands in the brackets of an image or a link, and its destination. -/
theorem exists_address_of_matchAt (hopening : Recognizes (· = os) opening)
    (hbody : Recognizes P body)
    (h : (sequence [opening, .group 1 body, char ']', destination]).matchAt p = some m) :
    ∃ text address rest,
      p.rest = os ++ (text ++ ']' :: '(' :: (address ++ [')'])) ++ rest ∧
      m.whole = ⟨p.rest, rest⟩ ∧ m.group 1 = text ∧ m.group 2 = address ∧ P text ∧
      address ≠ [] ∧ ∀ c ∈ address, c ≠ ')' ∧ Text.isBlank c = false := by
  obtain ⟨q, ⟨p₁, groups₁, h₁, p₂, groups₂, ⟨inner, h₂, rfl⟩, p₃, groups₃, h₃, h₄⟩, hwhole⟩ :=
    exists_covers_of_matchAt h
  obtain ⟨rfl, _, hrest₁, rfl⟩ := hopening _ _ _ _ h₁
  obtain ⟨rfl, text, hrest₂, htext⟩ := hbody _ _ _ _ h₂
  obtain ⟨rfl, _, hrest₃, rfl⟩ := recognizes_char _ _ _ _ _ h₃
  obtain ⟨address, hrest₄, hne, haddress, hgroups⟩ := exists_of_covers_destination h₄
  refine ⟨text, address, q.rest, ?_, hwhole, ?_, ?_, htext, hne, haddress⟩
  · rw [hrest₁, hrest₂, hrest₃, hrest₄]
    simp
  · rw [Match.group, hgroups, hrest₂]
    exact Span.text_mk_append text p₂.rest
  · rw [Match.group, hgroups]
    exact Span.text_mk_append address _

end Shapes

/-! ### The passes over a line -/

/-- A line with its code. -/
def withCode (line : List Char) : List Char :=
  codeSpan.replace (between "<code>" "</code>") (Entity.encode line)

/-- A line with its code and its images. -/
def withImages (line : List Char) : List Char :=
  image.replace imageTag (withCode line)

/-- A line with its code, its images and its links. -/
def withLinks (line : List Char) : List Char :=
  link.replace linkTags (withImages line)

/-- A line with all of its markup but plain emphasis. -/
def withStrong (line : List Char) : List Char :=
  strong.replace (between "<strong>" "</strong>") (withLinks line)

theorem inline_eq (line : List Char) :
    inline line = emphasis.replace (between "<em>" "</em>") (withStrong line) := rfl

end Syndication.Markup.Markdown
