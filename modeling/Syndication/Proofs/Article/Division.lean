import Syndication.Article.FrontMatter

/-!
# Front matter cut off

A text with front matter is a line that opens it, the front matter, the line that closes it, and
the body. The lines are counted in bytes, and the text is cut at the bytes that have been counted;
since a line ends where one of the characters of the text does, nothing is lost on either side of
the closing line. Every text that can be divided so is divided so, and in one way only: the line
that closes is the first that could.

* `Chars.linesInclusive_flatten`: the lines before a line of a text are the lines of what stands
  before it, and so are those behind it.
* `closingLine?_eq_some_iff`, `closingLine?_eq_none_iff`: which line closes, and at which byte.
* `split_divides`: what a text is divided into, and when it is all body.
-/

namespace Syndication

/-- **The lines of a text around a place between two of them** are the lines of its two parts. -/
theorem Chars.linesInclusive_flatten {cs : List Char} {before after : List (List Char)}
    (h : linesInclusive cs = before ++ after) :
    linesInclusive before.flatten = before ∧ linesInclusive after.flatten = after := by
  induction before generalizing cs with
  | nil =>
    rw [List.nil_append] at h
    rw [← h, flatten_linesInclusive]
    exact ⟨rfl, rfl⟩
  | cons line before ih =>
    by_cases hfeed : '\n' ∈ cs
    · obtain ⟨first, rest, rfl, hfirst⟩ := List.eq_append_cons_of_mem hfeed
      rw [linesInclusive_append hfirst, List.cons_append] at h
      obtain ⟨rfl, hrest⟩ := List.cons.inj h
      obtain ⟨hbefore, hafter⟩ := ih hrest
      refine ⟨?_, hafter⟩
      rw [List.flatten_cons, List.append_assoc, List.singleton_append,
        linesInclusive_append hfirst, hbefore]
    · -- a text without a line feed is one line, so nothing stands behind it
      have hcs : cs ≠ [] := by
        rintro rfl
        cases h
      rw [linesInclusive_of_notMem hfeed hcs, List.cons_append] at h
      obtain ⟨rfl, hnil⟩ := List.cons.inj h
      obtain ⟨rfl, rfl⟩ := List.append_eq_nil_iff.1 hnil.symm
      rw [List.flatten_cons, List.flatten_nil, List.append_nil]
      exact ⟨linesInclusive_of_notMem hfeed hcs, rfl⟩

namespace FrontMatter

variable {text opening front closing body rest : List Char} {lines : List (List Char)}

/-! ### The lines around front matter -/

/-- **A line that opens front matter**, with its terminator. -/
def IsOpening (line : List Char) : Prop :=
  line = "---\n".toList ∨ line = "---\r\n".toList

theorem isClosing_iff {line : List Char} :
    isClosing line = true ↔ Chars.trimEnd line = "---".toList :=
  beq_iff_eq

theorem afterOpening?_eq_some_iff :
    afterOpening? text = some rest ↔ ∃ opening, IsOpening opening ∧ text = opening ++ rest := by
  unfold afterOpening?
  constructor
  · intro h
    split at h
    · rename_i hrest
      cases h
      exact ⟨_, .inl rfl, Chars.stripPrefix?_eq_some_iff.1 hrest⟩
    · exact ⟨_, .inr rfl, Chars.stripPrefix?_eq_some_iff.1 h⟩
  · rintro ⟨opening, rfl | rfl, rfl⟩
    · rw [Chars.stripPrefix?_append]
    · rfl

/-- **Which line closes front matter**: the first that can, and the bytes before it are those of
the lines before it. -/
theorem closingLine?_eq_some_iff {offset start : Nat} {line : List Char} :
    closingLine? offset lines = some (start, line) ↔
      ∃ before after, lines = before ++ line :: after ∧ isClosing line = true ∧
        (∀ l ∈ before, isClosing l = false) ∧
        start = offset + Text.byteLength before.flatten := by
  induction lines generalizing offset with
  | nil => simp [closingLine?]
  | cons first lines ih =>
    cases hfirst : isClosing first with
    | true =>
      rw [closingLine?, if_pos hfirst]
      constructor
      · intro h
        cases h
        exact ⟨[], lines, rfl, hfirst, List.forall_mem_nil _, rfl⟩
      · rintro ⟨_ | ⟨l, before⟩, after, hlines, -, hbefore, rfl⟩
        · cases hlines
          rfl
        · cases hlines
          rw [hbefore _ List.mem_cons_self] at hfirst
          cases hfirst
    | false =>
      rw [closingLine?, if_neg (by rw [hfirst]; exact Bool.false_ne_true), ih]
      constructor
      · rintro ⟨before, after, rfl, hclosing, hbefore, rfl⟩
        refine ⟨first :: before, after, rfl, hclosing, List.forall_mem_cons.2 ⟨hfirst, hbefore⟩, ?_⟩
        rw [List.flatten_cons, Text.byteLength_append, Nat.add_assoc]
      · rintro ⟨_ | ⟨l, before⟩, after, hlines, hclosing, hbefore, rfl⟩
        · cases hlines
          rw [hfirst] at hclosing
          cases hclosing
        · cases hlines
          refine ⟨before, after, rfl, hclosing, (List.forall_mem_cons.1 hbefore).2, ?_⟩
          rw [List.flatten_cons, Text.byteLength_append, Nat.add_assoc]

theorem closingLine?_eq_none_iff {offset : Nat} :
    closingLine? offset lines = none ↔ ∀ line ∈ lines, isClosing line = false := by
  induction lines generalizing offset with
  | nil => simp [closingLine?]
  | cons first lines ih =>
    rw [closingLine?, List.forall_mem_cons]
    cases hfirst : isClosing first with
    | true => simp
    | false => simpa using ih

/-! ### Dividing a text -/

/-- **A text is divided** into a line that opens front matter, the front matter, the line that
closes it, and the body. -/
structure Divides (text opening front closing body : List Char) : Prop where
  whole : text = opening ++ (front ++ (closing ++ body))
  opens : IsOpening opening
  /-- The closing line is a line of the text, behind the lines of the front matter and before
  those of the body. -/
  lines : Chars.linesInclusive (front ++ (closing ++ body)) =
    Chars.linesInclusive front ++ closing :: Chars.linesInclusive body
  closes : Chars.trimEnd closing = "---".toList
  /-- No line of the front matter closes it. -/
  first : ∀ line ∈ Chars.linesInclusive front, Chars.trimEnd line ≠ "---".toList

/-- **A text is all body**: it does not begin with a line that opens front matter, or no line behind
that one closes it. -/
def IsAllBody (text : List Char) : Prop :=
  (¬ ∃ opening rest, IsOpening opening ∧ text = opening ++ rest) ∨
    ∃ opening rest, IsOpening opening ∧ text = opening ++ rest ∧
      ∀ line ∈ Chars.linesInclusive rest, Chars.trimEnd line ≠ "---".toList

theorem Divides.not_isAllBody (h : Divides text opening front closing body) : ¬ IsAllBody text := by
  have hopens := afterOpening?_eq_some_iff.2 ⟨opening, h.opens, h.whole⟩
  rintro (hnone | ⟨opening', rest, hopening, htext, hlines⟩)
  · exact hnone ⟨opening, _, h.opens, h.whole⟩
  · rw [afterOpening?_eq_some_iff.2 ⟨opening', hopening, htext⟩] at hopens
    cases hopens
    refine hlines closing ?_ h.closes
    rw [h.lines]
    exact List.mem_append_right _ List.mem_cons_self

theorem split_of_divides (h : Divides (unmarked text) opening front closing body) :
    split text = (some front, body) := by
  have hopens := afterOpening?_eq_some_iff.2 ⟨opening, h.opens, h.whole⟩
  have hcloses : closingLine? 0 (Chars.linesInclusive (front ++ (closing ++ body))) =
      some (Text.byteLength front, closing) := by
    refine closingLine?_eq_some_iff.2
      ⟨_, _, h.lines, isClosing_iff.2 h.closes, fun line hline => ?_, ?_⟩
    · exact Bool.eq_false_iff.2 fun hcloses => h.first line hline (isClosing_iff.1 hcloses)
    · rw [Chars.flatten_linesInclusive, Nat.zero_add]
  rw [split, hopens]
  simp only [hcloses]
  -- the bytes that were counted are those of the text on either side of the closing line
  rw [Text.takeBytes_append, ← Text.byteLength_append, ← List.append_assoc, Text.dropBytes_append]

theorem exists_divides_of_closingLine? {offset : Nat} (hopens : IsOpening opening)
    (hcloses : closingLine? 0 (Chars.linesInclusive rest) = some (offset, closing)) :
    ∃ front body, Divides (opening ++ rest) opening front closing body := by
  -- the lines before the one that closes are put together again, and so are those behind it
  obtain ⟨before, after, hlines, hclosing, hbefore, -⟩ := closingLine?_eq_some_iff.1 hcloses
  obtain ⟨hfront, -⟩ := Chars.linesInclusive_flatten hlines
  have hlines' : Chars.linesInclusive rest = (before ++ [closing]) ++ after := by
    simpa using hlines
  have hbody : Chars.linesInclusive after.flatten = after :=
    (Chars.linesInclusive_flatten hlines').2
  have hrest : before.flatten ++ (closing ++ after.flatten) = rest := by
    rw [← Chars.flatten_linesInclusive rest, hlines]
    simp
  refine ⟨before.flatten, after.flatten, by rw [hrest], hopens, ?_, isClosing_iff.1 hclosing, ?_⟩
  · rw [hrest, hfront, hbody, hlines]
  · intro line hline hcloses
    rw [hfront] at hline
    rw [← isClosing_iff, hbefore line hline] at hcloses
    cases hcloses

theorem split_cases (text : List Char) :
    (∃ opening front closing body, Divides (unmarked text) opening front closing body ∧
      split text = (some front, body)) ∨
    IsAllBody (unmarked text) ∧ split text = (none, unmarked text) := by
  cases hopens : afterOpening? (unmarked text) with
  | none =>
    refine .inr ⟨.inl ?_, by rw [split, hopens]⟩
    rintro ⟨opening, rest, hopening, htext⟩
    rw [afterOpening?_eq_some_iff.2 ⟨opening, hopening, htext⟩] at hopens
    cases hopens
  | some rest =>
    obtain ⟨opening, hopening, htext⟩ := afterOpening?_eq_some_iff.1 hopens
    cases hcloses : closingLine? 0 (Chars.linesInclusive rest) with
    | none =>
      refine .inr ⟨.inr ⟨opening, rest, hopening, htext, fun line hline hclosing => ?_⟩, ?_⟩
      · have hnot := closingLine?_eq_none_iff.1 hcloses line hline
        rw [isClosing_iff.2 hclosing] at hnot
        cases hnot
      · rw [split, hopens]
        simp only [hcloses]
    | some found =>
      obtain ⟨front, body, hdivides⟩ := exists_divides_of_closingLine? hopening hcloses
      rw [← htext] at hdivides
      exact .inl ⟨opening, front, found.2, body, hdivides, split_of_divides hdivides⟩

/-- **Front matter is cut off without loss.** Behind the marks of byte order in front of it, a text
is divided into an opening line, its front matter, the first line that can close it, and its body,
whenever it can be divided so; and it is all body just when it has no opening line in front or no
line that closes what that one opens. -/
theorem split_divides (text : List Char) :
    (∀ front body, split text = (some front, body) ↔
      ∃ opening closing, Divides (unmarked text) opening front closing body) ∧
    ∀ body, split text = (none, body) ↔ body = unmarked text ∧ IsAllBody (unmarked text) := by
  rcases split_cases text with ⟨opening, front, closing, body, hdivides, hsplit⟩ | ⟨hall, hsplit⟩
  · refine ⟨fun front' body' => ⟨fun h => ?_, ?_⟩, fun body' => ⟨fun h => ?_, ?_⟩⟩
    · rw [hsplit] at h
      cases h
      exact ⟨opening, closing, hdivides⟩
    · rintro ⟨opening', closing', h⟩
      exact split_of_divides h
    · rw [hsplit] at h
      cases h
    · rintro ⟨-, hall⟩
      exact absurd hall hdivides.not_isAllBody
  · refine ⟨fun front' body' => ⟨fun h => ?_, ?_⟩, fun body' => ⟨fun h => ?_, ?_⟩⟩
    · rw [hsplit] at h
      cases h
    · rintro ⟨opening', closing', h⟩
      exact absurd hall h.not_isAllBody
    · rw [hsplit] at h
      cases h
      exact ⟨rfl, hall⟩
    · rintro ⟨rfl, -⟩
      exact hsplit

/-- A mark of byte order, both terminators, a character of two bytes, blanks behind the hyphens. -/
example : split "\uFEFF---\r\ntitle: café\n---  \n\nBody".toList =
    (some "title: café\n".toList, "\nBody".toList) := by decide +kernel

end FrontMatter

end Syndication
