import Syndication.Text.Blank

/-!
# Lines

A text is cut after every line feed. A line is given either with its terminator
(`linesInclusive`) or without it (`lines`); a carriage return before the line
feed belongs to the terminator, a carriage return at the very end of the text
does not.

Main statements:

* `flatten_linesInclusive`: the lines with their terminators, put together, are
  the text.
* `lines_flatMap`: texts that hold no terminator, each followed by a line feed,
  are the lines.
-/

namespace Syndication.Chars

/-- The lines of a text, each with its terminator. The last one may have none;
an empty text has no line. -/
def linesInclusive : List Char → List (List Char)
  | [] => []
  | c :: cs =>
    if c = '\n' then ['\n'] :: linesInclusive cs
    else match linesInclusive cs with
      | [] => [[c]]
      | line :: rest => (c :: line) :: rest

/-- Cutting a text into lines loses nothing. -/
@[simp] theorem flatten_linesInclusive (cs : List Char) : (linesInclusive cs).flatten = cs := by
  induction cs with
  | nil => rfl
  | cons c cs ih =>
    by_cases h : c = '\n'
    · simp [linesInclusive, h, ih]
    · cases hl : linesInclusive cs with
      | nil =>
        have hc : linesInclusive (c :: cs) = [[c]] := by simp [linesInclusive, h, hl]
        rw [hc, ← ih, hl]
        rfl
      | cons line rest =>
        have hc : linesInclusive (c :: cs) = (c :: line) :: rest := by
          simp [linesInclusive, h, hl]
        rw [hl] at ih
        rw [hc, ← ih]
        rfl

/-- A line without its terminator. -/
def dropTerminator (line : List Char) : List Char :=
  match line.reverse with
  | '\n' :: '\r' :: r => r.reverse
  | '\n' :: r => r.reverse
  | _ => line

/-- The lines of a text, without their terminators. -/
def lines (cs : List Char) : List (List Char) :=
  (linesInclusive cs).map dropTerminator

theorem linesInclusive_append {line : List Char} (h : '\n' ∉ line) (rest : List Char) :
    linesInclusive (line ++ '\n' :: rest) = (line ++ ['\n']) :: linesInclusive rest := by
  induction line with
  | nil => simp [linesInclusive]
  | cons c line ih =>
    obtain ⟨hc, hline⟩ := not_or.1 (mt List.mem_cons.2 h)
    rw [List.cons_append, linesInclusive, if_neg (Ne.symm hc), ih hline]
    rfl

/-- A text without a line feed is one line, if there is anything in it. -/
theorem linesInclusive_of_notMem {line : List Char} (h : '\n' ∉ line) (hne : line ≠ []) :
    linesInclusive line = [line] := by
  induction line with
  | nil => exact absurd rfl hne
  | cons c line ih =>
    obtain ⟨hc, hline⟩ := not_or.1 (mt List.mem_cons.2 h)
    rw [linesInclusive, if_neg (Ne.symm hc)]
    by_cases hnil : line = []
    · rw [hnil]
      rfl
    · rw [ih hline hnil]

/-- A line feed is dropped, and nothing else unless a carriage return stands before it. -/
theorem dropTerminator_append {line : List Char} (h : line.getLast? ≠ some '\r') :
    dropTerminator (line ++ ['\n']) = line := by
  rcases List.eq_nil_or_concat line with rfl | ⟨line, c, rfl⟩
  · rfl
  · rw [List.concat_eq_append] at h ⊢
    have hc : c ≠ '\r' := by simpa using h
    simp [dropTerminator, hc]

/-- Texts that hold no terminator, each followed by a line feed, are the lines. -/
theorem lines_flatMap {parts : List (List Char)}
    (h : ∀ part ∈ parts, '\n' ∉ part ∧ part.getLast? ≠ some '\r') :
    lines (parts.flatMap (· ++ ['\n'])) = parts := by
  unfold lines
  induction parts with
  | nil => rfl
  | cons part parts ih =>
    obtain ⟨⟨hfeed, hreturn⟩, hparts⟩ := List.forall_mem_cons.1 h
    rw [List.flatMap_cons, List.append_assoc, List.singleton_append, linesInclusive_append hfeed,
      List.map_cons, dropTerminator_append hreturn, ih hparts]

end Syndication.Chars
