import Syndication.Text.Blank
import Syndication.Text.DecimalDigit
import Syndication.Text.WordCharacter

/-!
# Patterns

Patterns over characters, matched from the left, the first alternative first.
A repetition repeats a class of characters, as many as possible (`many`) or as
few as possible (`few`), and gives characters back or takes more until the rest
of the pattern matches. The text that a numbered group covers is reported.

`Pattern.scan` cuts a text into the places where a pattern matches and the
characters between them: it looks for a match from the left and goes on behind
it, so matches do not overlap. Finding, replacing and collecting are functions
of that list of pieces.

Main statements:

* `flatMap_text_scan`: the pieces, put together, are the text.
* `replace_of_allMatches_eq_nil`: a text in which the pattern matches nowhere is
  left alone by a replacement.
-/

namespace Syndication

/-- A pattern over characters. -/
inductive Pattern where
  /-- The empty text. -/
  | empty
  /-- One character of a class. -/
  | one (accepts : Char → Bool)
  /-- A run of characters of a class, as long as possible. -/
  | many (accepts : Char → Bool)
  /-- A run of characters of a class, as short as possible. -/
  | few (accepts : Char → Bool)
  /-- One pattern, then another. -/
  | seq (first second : Pattern)
  /-- The first pattern, or else the second. -/
  | alt (first second : Pattern)
  /-- A pattern whose text is reported under a number. -/
  | group (number : Nat) (body : Pattern)
  /-- A place between a word character and something else. -/
  | wordEdge
  /-- The beginning of the text. -/
  | textStart
  | textEnd

namespace Pattern

/-- A place in a text: the character before it and the characters after it. -/
structure Place where
  /-- The character before the place, if it is not the beginning. -/
  before : Option Char
  /-- The characters after the place. -/
  rest : List Char
deriving DecidableEq, Repr

/-- A part of a text, given by what follows its beginning and what follows its
end. -/
structure Span where
  /-- The text from the beginning of the part on. -/
  start : List Char
  /-- The text from the end of the part on. -/
  stop : List Char
deriving DecidableEq, Repr

namespace Span

/-- How many characters the part has. -/
def length (s : Span) : Nat :=
  s.start.length - s.stop.length

/-- The characters of the part. -/
def text (s : Span) : List Char :=
  s.start.take s.length

theorem length_text (s : Span) : s.text.length = s.length := by
  simp [text, length]

end Span

/-- A match: the part that the whole pattern covers and those of its groups. -/
structure Match where
  /-- The part that the pattern covers. -/
  whole : Span
  /-- The parts that the groups cover, by number. -/
  groups : List (Nat × Span)
deriving DecidableEq, Repr

namespace Match

/-- The text that a group covers; empty when the group took no part. -/
def group (m : Match) (number : Nat) : List Char :=
  match m.groups.find? (·.1 == number) with
  | some (_, span) => span.text
  | none => []

/-- The text that the whole pattern covers. -/
def text (m : Match) : List Char :=
  m.whole.text

/-- The matched text with another text in the place of a group. -/
def substitute (m : Match) (number : Nat) (replacement : List Char) : List Char :=
  match m.groups.find? (·.1 == number) with
  | some (_, span) =>
    m.whole.start.take (m.whole.start.length - span.start.length) ++ replacement ++
      span.stop.take (span.stop.length - m.whole.stop.length)
  | none => m.text

end Match

/-- Whether the place is an edge of a word. -/
def Place.isWordEdge (p : Place) : Bool :=
  (p.before.any Text.isWordCharacter) != (p.rest.head?.any Text.isWordCharacter)

/-- Passes a run of characters of a class, the longest first, and hands each
place where the run may end to `next` until it succeeds. -/
def passMany {α : Type} (accepts : Char → Bool) (next : Place → Option α) :
    Option Char → List Char → Option α
  | before, [] => next ⟨before, []⟩
  | before, c :: cs =>
    if accepts c then
      match passMany accepts next (some c) cs with
      | some found => some found
      | none => next ⟨before, c :: cs⟩
    else next ⟨before, c :: cs⟩

/-- Passes a run of characters of a class, the shortest first. -/
def passFew {α : Type} (accepts : Char → Bool) (next : Place → Option α) :
    Option Char → List Char → Option α
  | before, [] => next ⟨before, []⟩
  | before, c :: cs =>
    match next ⟨before, c :: cs⟩ with
    | some found => some found
    | none => if accepts c then passFew accepts next (some c) cs else none

/-- Matches a pattern at a place and hands what is left of the text, with the
groups so far, to `next`; tries the ways in which the pattern can match in their
order until `next` succeeds. -/
def run {α : Type} : Pattern → Place → List (Nat × Span) →
    (Place → List (Nat × Span) → Option α) → Option α
  | .empty, p, groups, next => next p groups
  | .one accepts, p, groups, next =>
    match p.rest with
    | [] => none
    | c :: cs => if accepts c then next ⟨some c, cs⟩ groups else none
  | .many accepts, p, groups, next => passMany accepts (next · groups) p.before p.rest
  | .few accepts, p, groups, next => passFew accepts (next · groups) p.before p.rest
  | .seq first second, p, groups, next =>
    first.run p groups fun p groups => second.run p groups next
  | .alt first second, p, groups, next =>
    match first.run p groups next with
    | some found => some found
    | none => second.run p groups next
  | .group number body, p, groups, next =>
    body.run p groups fun q groups => next q ((number, ⟨p.rest, q.rest⟩) :: groups)
  | .wordEdge, p, groups, next => if p.isWordEdge then next p groups else none
  | .textStart, p, groups, next => if p.before.isNone then next p groups else none
  | .textEnd, p, groups, next => if p.rest.isEmpty then next p groups else none

/-- The match of a pattern at a place, if there is one. -/
def matchAt (pattern : Pattern) (p : Place) : Option Match :=
  pattern.run p [] fun q groups => some ⟨⟨p.rest, q.rest⟩, groups⟩

/-- A piece of a text that a pattern was looked for in. -/
inductive Piece where
  /-- A character outside every match. -/
  | plain (c : Char)
  | hit (m : Match)
deriving DecidableEq, Repr

/-- The characters of a piece. -/
def Piece.text : Piece → List Char
  | .plain c => [c]
  | .hit m => m.text

/-- The pieces of a text, with `skip` characters of the current match still to
pass. A match of the empty text is passed over. -/
def scanFrom (pattern : Pattern) : Nat → Option Char → List Char → List Piece
  | _, _, [] => []
  | skip + 1, _, c :: cs => scanFrom pattern skip (some c) cs
  | 0, before, c :: cs =>
    match pattern.matchAt ⟨before, c :: cs⟩ with
    | some m =>
      if m.whole.length = 0 then .plain c :: scanFrom pattern 0 (some c) cs
      else .hit m :: scanFrom pattern (m.whole.length - 1) (some c) cs
    | none => .plain c :: scanFrom pattern 0 (some c) cs

/-- The pieces of a text: the matches of a pattern and the characters between
them. -/
def scan (pattern : Pattern) (text : List Char) : List Piece :=
  scanFrom pattern 0 none text

/-- The match of a piece, if it is one. -/
def Piece.match? : Piece → Option Match
  | .plain _ => none
  | .hit m => some m

/-- A piece with a match replaced. -/
def Piece.render (replacement : Match → List Char) : Piece → List Char
  | .plain c => [c]
  | .hit m => replacement m

/-- The matches of a pattern in a text, from the left. -/
def allMatches (pattern : Pattern) (text : List Char) : List Match :=
  (pattern.scan text).filterMap Piece.match?

/-- The first match of a pattern in a text. -/
def first? (pattern : Pattern) (text : List Char) : Option Match :=
  (pattern.scan text).findSome? Piece.match?

/-- The text with every match replaced. -/
def replace (pattern : Pattern) (replacement : Match → List Char) (text : List Char) : List Char :=
  (pattern.scan text).flatMap (Piece.render replacement)

/-- The text without the matches. -/
def delete (pattern : Pattern) (text : List Char) : List Char :=
  pattern.replace (fun _ => []) text

/-! ### Cutting loses nothing -/

/-- What a continuation ensures of its answers, a run of characters ensures. -/
theorem passMany_of_next {α : Type} {P : α → Prop} {accepts : Char → Bool}
    {next : Place → Option α} (h : ∀ q r, next q = some r → P r) (before : Option Char)
    (cs : List Char) (r : α) (hr : passMany accepts next before cs = some r) : P r := by
  induction cs generalizing before with
  | nil => exact h _ _ hr
  | cons c cs ih =>
    simp only [passMany] at hr
    split at hr
    · split at hr
      · rename_i found hfound
        simp only [Option.some.injEq] at hr
        exact ih (some c) (by rw [hfound, hr])
      · exact h _ _ hr
    · exact h _ _ hr

/-- What a continuation ensures of its answers, a short run ensures. -/
theorem passFew_of_next {α : Type} {P : α → Prop} {accepts : Char → Bool}
    {next : Place → Option α} (h : ∀ q r, next q = some r → P r) (before : Option Char)
    (cs : List Char) (r : α) (hr : passFew accepts next before cs = some r) : P r := by
  induction cs generalizing before with
  | nil => exact h _ _ hr
  | cons c cs ih =>
    simp only [passFew] at hr
    split at hr
    · rename_i found hfound
      simp only [Option.some.injEq] at hr
      exact h _ _ (by rw [hfound, hr])
    · split at hr
      · exact ih (some c) hr
      · simp at hr

/-- What a continuation ensures of its answers, the pattern ensures. -/
theorem run_of_next {α : Type} {P : α → Prop} (pattern : Pattern) (p : Place)
    (groups : List (Nat × Span)) (next : Place → List (Nat × Span) → Option α)
    (h : ∀ q g r, next q g = some r → P r) (r : α) (hr : pattern.run p groups next = some r) :
    P r := by
  induction pattern generalizing p groups next r with
  | empty => exact h _ _ _ hr
  | one accepts =>
    simp only [run] at hr
    split at hr
    · simp at hr
    · split at hr
      · exact h _ _ _ hr
      · simp at hr
  | many accepts => exact passMany_of_next (fun q r hq => h q groups r hq) _ _ _ hr
  | few accepts => exact passFew_of_next (fun q r hq => h q groups r hq) _ _ _ hr
  | seq first second ih₁ ih₂ =>
    exact ih₁ p groups _ (fun q g r hq => ih₂ q g next h r hq) r hr
  | alt first second ih₁ ih₂ =>
    simp only [run] at hr
    split at hr
    · rename_i found hfound
      simp only [Option.some.injEq] at hr
      exact ih₁ p groups next h r (by rw [hfound, hr])
    · exact ih₂ p groups next h r hr
  | group number body ih => exact ih p groups _ (fun q g r hq => h _ _ _ hq) r hr
  | wordEdge | textStart | textEnd =>
    simp only [run] at hr
    split at hr
    · exact h _ _ _ hr
    · simp at hr

/-- A match begins where it was looked for. -/
theorem start_of_matchAt {pattern : Pattern} {p : Place} {m : Match}
    (h : pattern.matchAt p = some m) : m.whole.start = p.rest := by
  refine run_of_next (P := fun m => m.whole.start = p.rest) pattern p [] _ ?_ m h
  intro q g r hr
  simp only [Option.some.injEq] at hr
  rw [← hr]

/-- The pieces make up the text, less the characters that were still to pass. -/
theorem flatMap_text_scanFrom (pattern : Pattern) (skip : Nat) (before : Option Char)
    (text : List Char) :
    (pattern.scanFrom skip before text).flatMap Piece.text = text.drop skip := by
  induction text generalizing skip before with
  | nil => cases skip <;> simp [scanFrom]
  | cons c cs ih =>
    cases skip with
    | succ skip => simp [scanFrom, ih]
    | zero =>
      simp only [scanFrom, List.drop_zero]
      split
      · rename_i m hm
        split
        · simp [ih, Piece.text]
        · rename_i hne
          obtain ⟨n, hn⟩ : ∃ n, m.whole.length = n + 1 :=
            ⟨_, (Nat.succ_pred_eq_of_ne_zero hne).symm⟩
          simp only [List.flatMap_cons, Piece.text, Match.text, Span.text, ih, hn,
            start_of_matchAt hm]
          simp
      · simp [ih, Piece.text]

/-- The pieces of a text, put together, are the text. -/
@[simp] theorem flatMap_text_scan (pattern : Pattern) (text : List Char) :
    (pattern.scan text).flatMap Piece.text = text := by
  simp [scan, flatMap_text_scanFrom]

/-- A text in which the pattern matches nowhere is left alone by a
replacement. -/
theorem replace_of_allMatches_eq_nil {pattern : Pattern} {replacement : Match → List Char}
    {text : List Char} (h : pattern.allMatches text = []) :
    pattern.replace replacement text = text := by
  have key : ∀ pieces : List Piece, pieces.filterMap Piece.match? = [] →
      pieces.flatMap (Piece.render replacement) = pieces.flatMap Piece.text := by
    intro pieces hp
    induction pieces with
    | nil => rfl
    | cons piece pieces ih =>
      cases piece with
      | plain c =>
        simp only [List.filterMap_cons, Piece.match?] at hp
        simp [Piece.render, Piece.text, ih hp]
      | hit m => simp [Piece.match?] at hp
  rw [replace, key _ h, flatMap_text_scan]

/-! ### Building patterns -/

/-- One given character. -/
def char (c : Char) : Pattern :=
  .one (· == c)

/-- A given text. -/
def literal (s : String) : Pattern :=
  s.toList.foldr (fun c rest => .seq (char c) rest) .empty

/-- Patterns one after another. -/
def sequence : List Pattern → Pattern
  | [] => .empty
  | [p] => p
  | p :: ps => .seq p (sequence ps)

/-- The first pattern that matches, in order. -/
def choice : List Pattern → Pattern
  | [] => .one fun _ => false
  | [p] => p
  | p :: ps => .alt p (choice ps)

/-- A pattern or, failing that, nothing. -/
def maybe (p : Pattern) : Pattern :=
  .alt p .empty

/-- A nonempty run of characters of a class, as long as possible. -/
def many1 (accepts : Char → Bool) : Pattern :=
  .seq (.one accepts) (.many accepts)

/-- A nonempty run of characters of a class, as short as possible. -/
def few1 (accepts : Char → Bool) : Pattern :=
  .seq (.one accepts) (.few accepts)

/-- Whether two characters are equal when case is ignored. Apart from the ASCII
letters among themselves, the long s folds to `s` and the Kelvin sign to `k`. -/
def eqIgnoringCase (letter c : Char) : Bool :=
  c.toLower == letter || (c == '\u017F' && letter == 's') || (c == '\u212A' && letter == 'k')

/-- A given text, written in lower case, in any case. -/
def literalIgnoringCase (s : String) : Pattern :=
  s.toList.foldr (fun c rest => .seq (.one (eqIgnoringCase c)) rest) .empty

/-- Any character. -/
def anyChar : Char → Bool := fun _ => true

/-- Any character but the given ones. -/
def noneOf (excluded : List Char) : Char → Bool := fun c => !excluded.contains c

/-- Blanks, as many as possible. -/
def blanks : Pattern := .many Text.isBlank

/-- Blanks, at least one, as many as possible. -/
def blanks1 : Pattern := many1 Text.isBlank

end Pattern

end Syndication
