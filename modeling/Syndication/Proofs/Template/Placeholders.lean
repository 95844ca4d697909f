import Mathlib.Data.List.Basic
import Syndication.Proofs.Text.Scanning
import Syndication.Template

/-!
# The placeholders of a template

A placeholder is two opening braces, one or more characters other than braces, and two closing
braces. What stands between the braces holds none, so a text that begins with a placeholder
begins with one only, and no placeholder begins within another. Looking for placeholders from the
left therefore finds all of them.

Main statements:

* `matchAt_braced`, `exists_braced_of_matchAt`: the pattern of a placeholder matches where one
  begins, and is a match of all of it.
* `eq_or_exists_of_braced_append`: placeholders do not overlap.
* `pieces_append_braced`: a placeholder is found whatever stands around it.
-/

namespace Syndication.Template

open Pattern (Place Span Match append_cons_inj covers_char covers_many covers_few1
  isSome_matchAt_of_covers)

/-! ### Bodies in braces -/

/-- What may stand between the braces of a placeholder. -/
def IsBody (body : List Char) : Prop :=
  body ≠ [] ∧ ∀ c ∈ body, isBrace c = false

/-- A placeholder with something between its braces. -/
def braced (body : List Char) : List Char :=
  '{' :: '{' :: (body ++ ['}', '}'])

theorem length_braced (body : List Char) : (braced body).length = body.length + 4 := by
  simp [braced]

variable {body body' before before' after after' rest rest' cs : List Char} {c : Char}

theorem IsBody.notMem (h : IsBody body) (hc : isBrace c = true) : c ∉ body := fun hmem => by
  rw [h.2 c hmem] at hc
  cases hc

/-- **A text begins with one placeholder at most.** -/
theorem braced_append_inj (h : IsBody body) (h' : IsBody body')
    (heq : braced body ++ rest = braced body' ++ rest') : body = body' ∧ rest = rest' := by
  simp only [braced, List.cons_append, List.append_assoc, List.cons.injEq, true_and,
    List.nil_append] at heq
  obtain ⟨hbody, hrest⟩ := append_cons_inj (h.notMem rfl) (h'.notMem rfl) heq
  exact ⟨hbody, (List.cons.inj hrest).2⟩

/-- No placeholder begins within another. -/
theorem exists_append_of_braced (h : IsBody body)
    (heq : braced body ++ rest = c :: cs ++ (braced body' ++ rest')) :
    ∃ middle, c :: cs = braced body ++ middle := by
  rcases List.append_eq_append_iff.1 heq with ⟨middle, hcs, -⟩ | ⟨left, hbraced, hleft⟩
  · exact ⟨middle, hcs⟩
  · -- otherwise an opening brace would stand in what is left of the first placeholder
    cases left with
    | nil => exact ⟨[], by rw [List.append_nil] at hbraced ⊢; exact hbraced.symm⟩
    | cons x left =>
      obtain ⟨rfl, htail⟩ := List.cons.inj hleft
      cases cs with
      | nil =>
        simp only [braced, List.cons_append, List.nil_append, List.cons.injEq] at hbraced
        obtain ⟨-, -, hbody⟩ := hbraced
        obtain ⟨y, ys, rfl⟩ := List.exists_cons_of_ne_nil h.1
        rw [← hbody] at htail
        obtain ⟨rfl, -⟩ := List.cons.inj htail
        exact absurd List.mem_cons_self (h.notMem rfl)
      | cons d cs =>
        simp only [braced, List.cons_append, List.cons.injEq] at hbraced
        obtain ⟨-, -, hbody⟩ := hbraced
        have hmem : '{' ∈ body ++ ['}', '}'] := hbody ▸ by simp
        have hnot : '{' ∉ body := h.notMem rfl
        simp [hnot] at hmem

/-- **Placeholders do not overlap.** Of two in a text, the one that does not begin later is the
other one, or stands before it. -/
theorem eq_or_exists_of_braced_append (h : IsBody body) (h' : IsBody body')
    (heq : before ++ (braced body ++ after) = before' ++ (braced body' ++ after'))
    (hle : before.length ≤ before'.length) :
    (before = before' ∧ body = body' ∧ after = after') ∨
      ∃ middle, before' = before ++ (braced body ++ middle) := by
  obtain ⟨between, rfl⟩ : ∃ between, before' = before ++ between :=
    (List.prefix_of_prefix_length_le ⟨_, heq⟩ ⟨_, rfl⟩ hle).imp fun _ => Eq.symm
  rw [List.append_assoc, List.append_cancel_left_eq] at heq
  cases between with
  | nil => exact .inl ⟨(List.append_nil _).symm, braced_append_inj h h' heq⟩
  | cons c cs =>
    obtain ⟨middle, hmiddle⟩ := exists_append_of_braced h heq
    exact .inr ⟨middle, by rw [hmiddle]⟩

/-! ### The pattern -/

theorem isBrace_eq_false_of_isBlank (h : Text.isBlank c = true) : isBrace c = false := by
  rw [← Bool.not_eq_true, isBrace, Bool.or_eq_true, beq_iff_eq, beq_iff_eq]
  rintro (rfl | rfl) <;> exact absurd h (by decide)

/-- What the pattern of a placeholder matches: braces around something that may have blanks around
it, which are no part of the group. -/
theorem exists_of_covers {p q : Place} {groups : List (Nat × Span)}
    (h : placeholder.Covers p [] q groups) :
    ∃ blanks cs blanks', (∀ c ∈ blanks, Text.isBlank c = true) ∧
      (∀ c ∈ blanks', Text.isBlank c = true) ∧ IsBody cs ∧
      p.rest = braced (blanks ++ (cs ++ blanks')) ++ q.rest ∧
      groups = [(1, ⟨cs ++ (blanks' ++ '}' :: '}' :: q.rest),
        blanks' ++ '}' :: '}' :: q.rest⟩)] := by
  simp only [placeholder, Pattern.sequence, Pattern.char, Pattern.blanks, Pattern.few1,
    Pattern.Covers, beq_iff_eq, Bool.not_eq_true'] at h
  obtain ⟨p₁, _, ⟨_, h₁, -, rfl, rfl⟩, p₂, _, ⟨_, h₂, -, rfl, rfl⟩, p₃, _, ⟨hblanks, rfl⟩, p₄, _,
    ⟨_, ⟨p₅, _, ⟨c, h₃, -, hc, rfl⟩, hfew, rfl⟩, rfl⟩, p₆, _, ⟨hblanks', rfl⟩, p₇, _,
    ⟨_, h₆, -, rfl, rfl⟩, _, h₇, -, rfl, rfl⟩ := h
  obtain ⟨blanks, hb, hblank⟩ := hblanks.exists_append
  obtain ⟨cs, h₅, hcs⟩ := hfew.exists_append
  obtain ⟨blanks', h₄, hblank'⟩ := hblanks'.exists_append
  rw [h₅, h₄, h₆, h₇] at h₃
  rw [h₃] at hb
  refine ⟨blanks, c :: cs, blanks', hblank, hblank', ⟨List.cons_ne_nil _ _, ?_⟩, ?_, ?_⟩
  · simpa [hc] using hcs
  · simp [h₁, h₂, hb, braced]
  · simp [h₃, h₄, h₆, h₇]

theorem isSome_matchAt_braced (h : IsBody body) (before : Option Char) (rest : List Char) :
    (placeholder.matchAt ⟨before, braced body ++ rest⟩).isSome = true := by
  obtain ⟨c, cs, rfl⟩ := List.exists_cons_of_ne_nil h.1
  have hplain : ∀ d ∈ c :: cs, (!isBrace d) = true := by simpa using h.2
  obtain ⟨hc, hcs⟩ := List.forall_mem_cons.1 hplain
  have hrest : braced (c :: cs) ++ rest = '{' :: '{' :: c :: (cs ++ '}' :: '}' :: rest) := by
    simp [braced]
  rw [hrest]
  -- there is a way on which no blank is passed
  obtain ⟨last, hruns⟩ := Place.exists_runs_append hcs (some c) ('}' :: '}' :: rest)
  have hcovers : placeholder.Covers ⟨before, '{' :: '{' :: c :: (cs ++ '}' :: '}' :: rest)⟩ []
      ⟨some '}', rest⟩ [(1, ⟨c :: (cs ++ '}' :: '}' :: rest), '}' :: '}' :: rest⟩)] := by
    refine (covers_char _ _ _ _).seq ((covers_char _ _ _ _).seq ?_)
    refine (covers_many (.stay _) _).seq (((covers_few1 hc hruns _ _).group 1).seq ?_)
    exact (covers_many (.stay _) _).seq ((covers_char _ _ _ _).seq (covers_char _ _ _ _))
  exact isSome_matchAt_of_covers hcovers

/-- **The pattern matches where a placeholder begins**, and only there. It matches all of it, and the
group is what stands between the braces, but for blanks around it. -/
theorem exists_braced_of_matchAt {p : Place} {m : Match} (h : placeholder.matchAt p = some m) :
    ∃ body rest, IsBody body ∧ p.rest = braced body ++ rest ∧ m.text = braced body ∧
      Chars.trim (m.group 1) = Chars.trim body := by
  obtain ⟨q, hcovers, hwhole⟩ := Pattern.exists_covers_of_matchAt h
  obtain ⟨blanks, cs, blanks', hblank, hblank', hcs, hrest, hgroups⟩ := exists_of_covers hcovers
  refine ⟨blanks ++ (cs ++ blanks'), q.rest, ⟨by simp [hcs.1], ?_⟩, hrest, ?_, ?_⟩
  · intro c hc
    rcases List.mem_append.1 hc with hc | hc
    · exact isBrace_eq_false_of_isBlank (hblank c hc)
    · rcases List.mem_append.1 hc with hc | hc
      · exact hcs.2 c hc
      · exact isBrace_eq_false_of_isBlank (hblank' c hc)
  · simp [Match.text, Span.text, Span.length, hwhole, hrest]
  · rw [Chars.trim_append_of_blank hblank hblank']
    simp [Match.group, hgroups, Span.text, Span.length]

theorem matchAt_braced (h : IsBody body) (before : Option Char) (rest : List Char) :
    ∃ m, placeholder.matchAt ⟨before, braced body ++ rest⟩ = some m ∧ m.text = braced body := by
  obtain ⟨m, hm⟩ := Option.isSome_iff_exists.1 (isSome_matchAt_braced h before rest)
  obtain ⟨body', rest', hbody', hrest, htext, -⟩ := exists_braced_of_matchAt hm
  obtain ⟨rfl, rfl⟩ := braced_append_inj h hbody' hrest
  exact ⟨m, hm, htext⟩

/-! ### The pieces of a template -/

/-- A piece of a template. -/
inductive Piece where
  /-- A character of literal text. -/
  | char (c : Char)
  /-- A placeholder, given by what stands between its braces. -/
  | placeholder (body : List Char)
deriving DecidableEq, Repr

namespace Piece

/-- The characters of a piece as they stand in the template. -/
def source : Piece → List Char
  | .char c => [c]
  | .placeholder body => braced body

/-- The rendering of a piece. -/
def render (context : Json) : Piece → List Char
  | .char c => [c]
  | .placeholder body => renderPath context body

/-- The piece that the search for placeholders has found. -/
def ofFound : Pattern.Piece → Piece
  | .plain c => .char c
  | .hit m => .placeholder ((m.text.drop 2).take (m.text.length - 4))

theorem ofFound_hit {m : Match} (h : m.text = braced body) :
    ofFound (.hit m) = .placeholder body := by
  simp [ofFound, h, braced]

end Piece

/-- The pieces that are found from a place on. -/
def piecesFrom (before : Option Char) (cs : List Char) : List Piece :=
  (placeholder.scanFrom 0 before cs).map Piece.ofFound

/-- The pieces of a template. -/
def pieces (template : List Char) : List Piece :=
  piecesFrom none template

theorem piecesFrom_braced (h : IsBody body) (before : Option Char) (rest : List Char) :
    ∃ before', piecesFrom before (braced body ++ rest) =
      .placeholder body :: piecesFrom before' rest := by
  obtain ⟨m, hm, htext⟩ := matchAt_braced h before rest
  rw [← htext] at hm ⊢
  obtain ⟨before', hscan⟩ := Pattern.scanFrom_of_matchAt hm (by simp [htext, braced])
  exact ⟨before', by rw [piecesFrom, hscan, List.map_cons, Piece.ofFound_hit htext, piecesFrom]⟩

/-- The text does not begin with a placeholder. -/
def BeginsPlain (cs : List Char) : Prop :=
  ∀ body rest, IsBody body → cs ≠ braced body ++ rest

theorem piecesFrom_cons (h : BeginsPlain (c :: cs)) (before : Option Char) :
    piecesFrom before (c :: cs) = .char c :: piecesFrom (some c) cs := by
  have hnone : placeholder.matchAt ⟨before, c :: cs⟩ = none := by
    rw [Option.eq_none_iff_forall_ne_some]
    intro m hm
    obtain ⟨body, rest, hbody, hrest, -⟩ := exists_braced_of_matchAt hm
    exact h body rest hbody hrest
  rw [piecesFrom, Pattern.scanFrom, hnone]
  rfl

/-- **A text is read from the left**: a placeholder at a time where one begins, and else a
character at a time. -/
@[elab_as_elim]
theorem reading_induction {P : List Char → Prop} (cs : List Char) (nil : P [])
    (placeholder : ∀ body rest, IsBody body → P rest → P (braced body ++ rest))
    (char : ∀ c cs, BeginsPlain (c :: cs) → P cs → P (c :: cs)) : P cs := by
  induction hn : cs.length using Nat.strongRecOn generalizing cs with
  | ind n ih =>
    subst hn
    by_cases h : BeginsPlain cs
    · cases cs with
      | nil => exact nil
      | cons c cs => exact char c cs h (ih _ (Nat.lt_succ_self _) cs rfl)
    · simp only [BeginsPlain, not_forall, not_not] at h
      obtain ⟨body, rest, hbody, rfl⟩ := h
      refine placeholder body rest hbody (ih _ ?_ rest rfl)
      rw [List.length_append, length_braced]
      omega

/-- What stands before a place makes no difference. -/
theorem piecesFrom_eq (before : Option Char) (cs : List Char) :
    piecesFrom before cs = pieces cs := by
  have hsame : ∀ before', piecesFrom before cs = piecesFrom before' cs := by
    induction cs using reading_induction generalizing before with
    | nil => exact fun _ => rfl
    | placeholder body rest hbody ih =>
      intro before'
      obtain ⟨_, h₁⟩ := piecesFrom_braced hbody before rest
      obtain ⟨_, h₂⟩ := piecesFrom_braced hbody before' rest
      rw [h₁, h₂, ih]
    | char c cs hplain ih =>
      exact fun _ => by rw [piecesFrom_cons hplain, piecesFrom_cons hplain]
  exact hsame none

/-! ### Finding all placeholders -/

theorem pieces_braced (h : IsBody body) (rest : List Char) :
    pieces (braced body ++ rest) = .placeholder body :: pieces rest := by
  obtain ⟨before, hpieces⟩ := piecesFrom_braced h none rest
  rw [pieces, hpieces, piecesFrom_eq]

theorem pieces_cons (h : BeginsPlain (c :: cs)) : pieces (c :: cs) = .char c :: pieces cs := by
  rw [pieces, piecesFrom_cons h, piecesFrom_eq]

/-- The pieces of a template, put together, are the template. -/
theorem flatMap_source_pieces (template : List Char) :
    (pieces template).flatMap Piece.source = template := by
  induction template using reading_induction with
  | nil => rfl
  | placeholder body rest hbody ih =>
    rw [pieces_braced hbody, List.flatMap_cons, ih, Piece.source]
  | char c cs hplain ih =>
    rw [pieces_cons hplain, List.flatMap_cons, ih, Piece.source, List.singleton_append]

/-- What is found is a placeholder. -/
theorem isBody_of_mem_pieces {template : List Char} (h : .placeholder body ∈ pieces template) :
    IsBody body := by
  induction template using reading_induction with
  | nil => cases h
  | placeholder first rest hfirst ih =>
    rw [pieces_braced hfirst, List.mem_cons] at h
    rcases h with h | h
    · cases h
      exact hfirst
    · exact ih h
  | char c cs hplain ih =>
    rw [pieces_cons hplain, List.mem_cons] at h
    exact ih (h.resolve_left nofun)

/-- **A placeholder is found whatever stands around it.** -/
theorem pieces_append_braced (h : IsBody body) (before after : List Char) :
    pieces (before ++ (braced body ++ after)) =
      pieces before ++ .placeholder body :: pieces after := by
  induction before using reading_induction with
  | nil => exact pieces_braced h after
  | placeholder first rest hfirst ih =>
    rw [List.append_assoc, pieces_braced hfirst, ih, pieces_braced hfirst, List.cons_append]
  | char c cs hplain ih =>
    -- the other placeholder cannot make one begin here
    have hwhole : BeginsPlain (c :: (cs ++ (braced body ++ after))) := by
      intro first rest hfirst heq
      obtain ⟨middle, hmiddle⟩ := exists_append_of_braced hfirst heq.symm
      exact hplain first middle hfirst hmiddle
    rw [pieces_cons hplain, List.cons_append, pieces_cons hwhole, ih, List.cons_append]

/-- A text without a placeholder is literal text. -/
theorem pieces_of_forall_ne
    (h : ∀ before body after, IsBody body → cs ≠ before ++ (braced body ++ after)) :
    pieces cs = cs.map .char := by
  induction cs with
  | nil => rfl
  | cons c cs ih =>
    have hplain : BeginsPlain (c :: cs) := fun body rest => h [] body rest
    have htail : ∀ before body after, IsBody body → cs ≠ before ++ (braced body ++ after) :=
      fun before body after hbody heq => h (c :: before) body after hbody (heq ▸ rfl)
    rw [pieces_cons hplain, ih htail, List.map_cons]

end Syndication.Template
