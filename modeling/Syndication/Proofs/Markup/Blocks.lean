import Mathlib.Data.List.Forall2
import Syndication.Proofs.Markup.Inline
import Syndication.Proofs.Markup.Writer

/-!
# The blocks of a Markdown text

A Markdown text is read line by line, with one block open at a time. What comes of it can be said
without a state: the lines fall into headings, runs of lines of a paragraph, runs of items and
fenced code, in their order, and blank lines between them. The HTML has one element for each
block, closed before the next one begins, and nothing within an element looks like the beginning
or the end of a block.

Main statements:

* `reads_classify`: what a line is, said without patterns.
* `composes_iff`: the blocks of a text are those that its lines compose, and no others.
* `Composes.exists_shows`, `toHtml_eq_join`: the HTML is a sequence of complete blocks.
* `toHtml_composes`: which blocks a Markdown text has, and how they are written.
-/

namespace Syndication.Markup.Markdown

open Pattern

/-! ### What a line is -/

/-- A bullet or a number before an item of a list. -/
def IsBullet (cs : List Char) : Prop :=
  cs = ['-'] ∨ cs = ['*'] ∨ cs = ['+'] ∨
    ∃ digits, digits ≠ [] ∧ (∀ c ∈ digits, Text.isDecimalDigit c = true) ∧ cs = digits ++ ['.']

/-- **What a line is**, and what it contributes: the text of a heading or of an item, or all of the
line but the blanks around it. -/
inductive Reads : List Char → Line → Prop
  | fence {gap rest : List Char} (hgap : ∀ c ∈ gap, Text.isBlank c = true) :
      Reads (gap ++ (['\x60', '\x60', '\x60'] ++ rest)) .fence
  | blank {line : List Char} (hline : ∀ c ∈ line, Text.isBlank c = true) : Reads line .blank
  | heading {level : Nat} {gap text gap' marks gap'' : List Char} (least : 1 ≤ level)
      (greatest : level ≤ 6) (hne : gap ≠ []) (hgap : ∀ c ∈ gap, Text.isBlank c = true)
      (hgap' : ∀ c ∈ gap', Text.isBlank c = true) (hmarks : ∀ c ∈ marks, c = '#')
      (hgap'' : ∀ c ∈ gap'', Text.isBlank c = true) :
      Reads (List.replicate level '#' ++ (gap ++ (text ++ (gap' ++ (marks ++ gap'')))))
        (.heading level text)
  | item {gap bullet gap' text : List Char} (hgap : ∀ c ∈ gap, Text.isBlank c = true)
      (hbullet : IsBullet bullet) (hne : gap' ≠ []) (hgap' : ∀ c ∈ gap', Text.isBlank c = true) :
      Reads (gap ++ (bullet ++ (gap' ++ text))) (.item text)
  | text {gap content gap' : List Char} (hgap : ∀ c ∈ gap, Text.isBlank c = true)
      (hgap' : ∀ c ∈ gap', Text.isBlank c = true) (hne : content ≠ [])
      (htrim : Chars.trim content = content) : Reads (gap ++ (content ++ gap')) (.text content)

theorem isFence_iff {line : List Char} :
    isFence line = true ↔
      ∃ gap rest, (∀ c ∈ gap, Text.isBlank c = true) ∧
        line = gap ++ (['\x60', '\x60', '\x60'] ++ rest) := by
  rw [isFence, Chars.startsWith, Option.isSome_iff_exists]
  simp only [Chars.stripPrefix?_eq_some_iff]
  constructor
  · rintro ⟨rest, hrest⟩
    refine ⟨line.takeWhile Text.isBlank, rest, List.all_eq_true.1 List.all_takeWhile, ?_⟩
    rw [← hrest, Chars.trimStart, List.takeWhile_append_dropWhile]
  · rintro ⟨gap, rest, hgap, rfl⟩
    exact ⟨rest, (Chars.trimStart_append_of_blank hgap _).trans rfl⟩

section Shapes

variable {p q : Place} {groups groups' : List (Nat × Span)} {line : List Char} {m : Match}

/-- **A pattern of at most so many marks** of a heading. -/
def AtMostMarks (bound : Nat) (pattern : Pattern) : Prop :=
  ∀ p groups q groups', pattern.Covers p groups q groups' →
    groups' = groups ∧ ∃ level ≤ bound, p.rest = List.replicate level '#' ++ q.rest

theorem atMostMarks_cons {bound : Nat} {pattern : Pattern} (h : AtMostMarks bound pattern) :
    AtMostMarks (bound + 1) (maybe (.seq (char '#') pattern)) := by
  rintro p groups q groups' (⟨p', _, ⟨c, hrest, -, hc, rfl⟩, hcovers⟩ | ⟨rfl, rfl⟩)
  · obtain ⟨rfl, level, hlevel, hrest'⟩ := h _ _ _ _ hcovers
    refine ⟨rfl, level + 1, Nat.succ_le_succ hlevel, ?_⟩
    rw [hrest, hrest', eq_of_beq hc]
    rfl
  · exact ⟨rfl, 0, Nat.zero_le _, rfl⟩

/-- A heading has one to six marks. -/
theorem exists_level_of_covers (h : headingMarks.Covers p groups q groups') :
    groups' = groups ∧ ∃ level, 1 ≤ level ∧ level ≤ 6 ∧
      p.rest = List.replicate level '#' ++ q.rest := by
  obtain ⟨p', _, ⟨c, hrest, -, hc, rfl⟩, hmore⟩ := h
  have hempty : AtMostMarks 0 .empty := fun _ _ _ _ hcovers => by
    obtain ⟨rfl, rfl⟩ := hcovers
    exact ⟨rfl, 0, Nat.le_refl 0, rfl⟩
  have hfive := atMostMarks_cons (atMostMarks_cons (atMostMarks_cons (atMostMarks_cons
    (atMostMarks_cons hempty))))
  obtain ⟨rfl, level, hlevel, hrest'⟩ := hfive _ _ _ _ hmore
  refine ⟨rfl, level + 1, Nat.le_add_left _ _, Nat.succ_le_succ hlevel, ?_⟩
  rw [hrest, hrest', eq_of_beq hc]
  rfl

theorem exists_bullet_of_covers
    (h : (choice [.one fun c => c == '-' || c == '*' || c == '+',
      .seq (many1 Text.isDecimalDigit) (char '.')]).Covers p groups q groups') :
    ∃ bullet, IsBullet bullet ∧ p.rest = bullet ++ q.rest ∧ groups' = groups := by
  rcases h with ⟨c, hrest, -, hc, rfl⟩ | ⟨p', _, hdigits, d, hdot, -, hd, rfl⟩
  · simp only [Bool.or_eq_true, beq_iff_eq] at hc
    refine ⟨[c], ?_, hrest, rfl⟩
    rcases hc with (rfl | rfl) | rfl
    · exact .inl rfl
    · exact .inr (.inl rfl)
    · exact .inr (.inr (.inl rfl))
  · obtain ⟨digits, hne, hall, hrest, rfl⟩ := hdigits.exists_many1
    refine ⟨digits ++ ['.'], .inr (.inr (.inr ⟨digits, hne, hall, rfl⟩)), ?_, rfl⟩
    rw [hrest, hdot, eq_of_beq hd, List.append_assoc]
    rfl

/-- A match that begins where the text does, for a pattern that asks for it. -/
theorem exists_covers_of_first? {pattern : Pattern}
    (h : (Pattern.seq .textStart pattern).first? line = some m) :
    ∃ p q, p.rest = line ∧ pattern.Covers p [] q m.groups := by
  obtain ⟨p, hp, hfirst⟩ := exists_matchAt_of_first? h
  obtain ⟨q, ⟨p', groups, ⟨hstart, rfl, rfl⟩, hcovers⟩, -⟩ := exists_covers_of_matchAt hp
  exact ⟨p', q, hfirst (Option.isNone_iff_eq_none.1 hstart), hcovers⟩

theorem reads_heading (h : headingLine.first? line = some m) :
    Reads line (.heading (m.group 1).length (m.group 2)) := by
  obtain ⟨p, q, rfl, p₁, groups₁, ⟨inner, hmarks, rfl⟩, p₂, groups₂, hgap, p₃, groups₃,
    ⟨inner', htext, rfl⟩, p₄, groups₄, hgap', p₅, groups₅, hclosing, p₆, groups₆, hgap'',
    hend, rfl, hgroups⟩ := exists_covers_of_first? h
  obtain ⟨rfl, level, hleast, hgreatest, hrest⟩ := exists_level_of_covers hmarks
  obtain ⟨gap, hne, hall, hrest₁, rfl⟩ := hgap.exists_many1
  obtain ⟨hruns, rfl⟩ := htext
  obtain ⟨text, hrest₂, -⟩ := hruns.exists_append
  obtain ⟨gap', hall', hrest₃, rfl⟩ := exists_blanks_of_covers hgap'
  obtain ⟨hruns', rfl⟩ := hclosing
  obtain ⟨marks, hrest₄, hall₄⟩ := hruns'.exists_append
  obtain ⟨gap'', hall'', hrest₅, rfl⟩ := exists_blanks_of_covers hgap''
  have hnil : q.rest = [] := List.isEmpty_iff.1 hend
  have hfirst : m.group 1 = List.replicate level '#' := by
    rw [Match.group, hgroups, hrest]
    exact Span.text_mk_append _ _
  have hsecond : m.group 2 = text := by
    rw [Match.group, hgroups, hrest₂]
    exact Span.text_mk_append _ _
  rw [hfirst, hsecond, List.length_replicate, hrest, hrest₁, hrest₂, hrest₃, hrest₄, hrest₅, hnil,
    List.append_nil]
  exact .heading hleast hgreatest hne hall hall' (fun c hc => eq_of_beq (hall₄ c hc)) hall''

theorem reads_item (h : itemLine.first? line = some m) : Reads line (.item (m.group 1)) := by
  obtain ⟨p, q, rfl, p₁, groups₁, hgap, p₂, groups₂, hbullet, p₃, groups₃, hgap', p₄, groups₄,
    ⟨inner, ⟨hruns, rfl⟩, rfl⟩, hend, rfl, hgroups⟩ := exists_covers_of_first? h
  obtain ⟨gap, hall, hrest, rfl⟩ := exists_blanks_of_covers hgap
  obtain ⟨bullet, hshape, hrest₁, rfl⟩ := exists_bullet_of_covers hbullet
  obtain ⟨gap', hne, hall', hrest₂, rfl⟩ := hgap'.exists_many1
  obtain ⟨text, hrest₃, -⟩ := hruns.exists_append
  have hnil : q.rest = [] := List.isEmpty_iff.1 hend
  have hfirst : m.group 1 = text := by
    rw [Match.group, hgroups, hrest₃]
    exact Span.text_mk_append _ _
  rw [hfirst, hrest, hrest₁, hrest₂, hrest₃, hnil, List.append_nil]
  exact .item hall hshape hne hall'

/-- **What a line is**, said without patterns. -/
theorem reads_classify (line : List Char) : Reads line (classify line) := by
  unfold classify
  split
  · rename_i hfence
    obtain ⟨gap, rest, hgap, rfl⟩ := isFence_iff.1 hfence
    exact .fence hgap
  · split
    · rename_i hblank
      exact .blank (List.all_eq_true.1 hblank)
    · rename_i hblank
      split
      · rename_i m hm
        exact reads_heading hm
      · split
        · rename_i m hm
          exact reads_item hm
        · obtain ⟨gap, gap', hgap, hgap', hline⟩ := Chars.exists_append_trim line
          have hne : Chars.trim line ≠ [] := by
            intro hnil
            rw [hnil, List.nil_append] at hline
            rw [hline] at hblank
            exact hblank (List.all_eq_true.2 fun c hc =>
              (List.mem_append.1 hc).elim (hgap c) (hgap' c))
          have hreads := Reads.text hgap hgap' hne (Chars.trim_trim line)
          rwa [← hline] at hreads

end Shapes

/-! ### Which blocks the lines compose -/

/-- **The blocks that lines compose.** Lines of a paragraph and items of a list form one block as
long as no other line comes between them; fenced code holds every line up to the closing fence, or
to the end of the text. -/
inductive Composes : List (List Char) → List Block → Prop
  | done : Composes [] []
  | blank {line : List Char} {rest : List (List Char)} {blocks : List Block}
      (hline : classify line = .blank) (hrest : Composes rest blocks) :
      Composes (line :: rest) blocks
  | heading {line text : List Char} {level : Nat} {rest : List (List Char)} {blocks : List Block}
      (hline : classify line = .heading level text) (hrest : Composes rest blocks) :
      Composes (line :: rest) (.heading level text :: blocks)
  | paragraph {lines contents rest : List (List Char)} {blocks : List Block} (hne : lines ≠ [])
      (hlines : List.Forall₂ (fun line content => classify line = .text content) lines contents)
      (hnext : ∀ line ∈ rest.head?, ∀ content, classify line ≠ .text content)
      (hrest : Composes rest blocks) :
      Composes (lines ++ rest) (.paragraph contents :: blocks)
  | list {lines items rest : List (List Char)} {blocks : List Block} (hne : lines ≠ [])
      (hlines : List.Forall₂ (fun line item => classify line = .item item) lines items)
      (hnext : ∀ line ∈ rest.head?, ∀ item, classify line ≠ .item item)
      (hrest : Composes rest blocks) : Composes (lines ++ rest) (.list items :: blocks)
  | code {opening closing : List Char} {lines rest : List (List Char)} {blocks : List Block}
      (hopening : classify opening = .fence) (hlines : ∀ line ∈ lines, isFence line = false)
      (hclosing : isFence closing = true) (hrest : Composes rest blocks) :
      Composes (opening :: (lines ++ closing :: rest)) (.code lines :: blocks)
  | unclosed {opening : List Char} {lines : List (List Char)}
      (hopening : classify opening = .fence) (hlines : ∀ line ∈ lines, isFence line = false) :
      Composes (opening :: lines) [.code lines]

/-- **The lines of an open block.** -/
inductive Holds : Unfinished → List (List Char) → Prop
  | nothing : Holds .nothing []
  | paragraph {lines contents : List (List Char)} (hne : lines ≠ [])
      (hlines : List.Forall₂ (fun line content => classify line = .text content) lines contents) :
      Holds (.paragraph contents.reverse) lines
  | list {lines items : List (List Char)} (hne : lines ≠ [])
      (hlines : List.Forall₂ (fun line item => classify line = .item item) lines items) :
      Holds (.list items.reverse) lines

/-- **A line goes on with an open block.** -/
def Unfinished.GoesOn : Unfinished → Line → Prop
  | .paragraph _, .text _ => True
  | .list _, .item _ => True
  | _, _ => False

variable {current : Unfinished} {held rest : List (List Char)} {blocks : List Block}

/-- An open block is complete when the line behind it does not go on with it. -/
theorem Holds.composes (h : Holds current held)
    (hnext : ∀ line ∈ rest.head?, ¬ current.GoesOn (classify line)) (hrest : Composes rest blocks) :
    Composes (held ++ rest) (current.close ++ blocks) := by
  cases h with
  | nothing => exact hrest
  | @paragraph lines contents hne hlines =>
    rw [Unfinished.close, List.reverse_reverse]
    refine .paragraph hne hlines (fun line hline content hclass => ?_) hrest
    exact hnext line hline (by rw [hclass]; exact trivial)
  | @list lines items hne hlines =>
    rw [Unfinished.close, List.reverse_reverse]
    refine .list hne hlines (fun line hline item hclass => ?_) hrest
    exact hnext line hline (by rw [hclass]; exact trivial)

theorem Holds.snoc_text {line content : List Char} {contents : List (List Char)}
    (h : Holds (.paragraph contents) held) (hline : classify line = .text content) :
    Holds (.paragraph (content :: contents)) (held ++ [line]) := by
  cases h with
  | @paragraph lines contents hne hlines =>
    have hlines' := List.rel_append hlines (List.Forall₂.cons hline .nil)
    have hholds := Holds.paragraph (List.append_ne_nil_of_left_ne_nil hne [line]) hlines'
    rwa [List.reverse_append] at hholds

theorem Holds.snoc_item {line item : List Char} {items : List (List Char)}
    (h : Holds (.list items) held) (hline : classify line = .item item) :
    Holds (.list (item :: items)) (held ++ [line]) := by
  cases h with
  | @list lines items hne hlines =>
    have hlines' := List.rel_append hlines (List.Forall₂.cons hline .nil)
    have hholds := Holds.list (List.append_ne_nil_of_left_ne_nil hne [line]) hlines'
    rwa [List.reverse_append] at hholds

/-- Reading goes on from an open block, or within fenced code: its lines and those that follow
compose the blocks that are read. -/
theorem composes_read (lines : List (List Char)) :
    (∀ current held, Holds current held → Composes (held ++ lines) (blocksFrom current lines)) ∧
      ∀ opening code, classify opening = .fence → (∀ line ∈ code, isFence line = false) →
        Composes (opening :: (code.reverse ++ lines)) (codeFrom code lines) := by
  induction lines with
  | nil =>
    refine ⟨fun current held h => ?_, fun opening code hopening hcode => ?_⟩
    · have hclosed : Composes (held ++ []) (current.close ++ []) := h.composes (by simp) .done
      rwa [List.append_nil current.close] at hclosed
    · rw [List.append_nil]
      exact .unclosed hopening fun line hline => hcode line (List.mem_reverse.1 hline)
  | cons line rest ih =>
    obtain ⟨ihBlocks, ihCode⟩ := ih
    refine ⟨fun current held h => ?_, fun opening code hopening hcode => ?_⟩
    · cases hline : classify line with
      | fence =>
        have hnext : ¬ current.GoesOn (classify line) := by rw [hline]; cases current <;> exact id
        rw [blocksFrom, hline]
        exact h.composes (by simpa using hnext) (ihCode line [] hline (by simp))
      | blank =>
        have hnext : ¬ current.GoesOn (classify line) := by rw [hline]; cases current <;> exact id
        rw [blocksFrom, hline]
        exact h.composes (by simpa using hnext) (.blank hline (ihBlocks _ _ .nothing))
      | heading level text =>
        have hnext : ¬ current.GoesOn (classify line) := by rw [hline]; cases current <;> exact id
        rw [blocksFrom, hline]
        exact h.composes (by simpa using hnext) (.heading hline (ihBlocks _ _ .nothing))
      | item text =>
        have hfirst := ihBlocks _ _ (Holds.list (List.cons_ne_nil line []) (.cons hline .nil))
        rw [blocksFrom, hline]
        cases current with
        | nothing | paragraph lines =>
          exact h.composes (by simp [hline, Unfinished.GoesOn]) hfirst
        | list items =>
          have hgoes := ihBlocks _ _ (h.snoc_item hline)
          rwa [List.append_assoc] at hgoes
      | text content =>
        have hfirst := ihBlocks _ _ (Holds.paragraph (List.cons_ne_nil line []) (.cons hline .nil))
        rw [blocksFrom, hline]
        cases current with
        | nothing | list items =>
          exact h.composes (by simp [hline, Unfinished.GoesOn]) hfirst
        | paragraph lines =>
          have hgoes := ihBlocks _ _ (h.snoc_text hline)
          rwa [List.append_assoc] at hgoes
    · rw [codeFrom]
      split
      · rename_i hfence
        exact .code hopening (fun line hline => hcode line (List.mem_reverse.1 hline)) hfence
          (ihBlocks _ _ .nothing)
      · rename_i hfence
        have hgoes := ihCode opening (line :: code) hopening
          (List.forall_mem_cons.2 ⟨by simpa using hfence, hcode⟩)
        rwa [List.reverse_cons, List.append_assoc] at hgoes

/-! ### No other blocks -/

/-- An open block is closed by a line that does not go on with it. -/
theorem blocksFrom_of_not_goesOn
    (hnext : ∀ line ∈ rest.head?, ¬ current.GoesOn (classify line)) :
    blocksFrom current rest = current.close ++ blocksFrom .nothing rest := by
  cases rest with
  | nil => rw [blocksFrom_nil, blocksFrom_nil, Unfinished.close, List.append_nil]
  | cons line rest =>
    have hline := hnext line rfl
    rw [blocksFrom, blocksFrom]
    cases hclass : classify line with
    | fence | blank | heading => rfl
    | item item =>
      cases current with
      | nothing | paragraph => rfl
      | list items => exact absurd (by rw [hclass]; exact trivial) hline
    | text content =>
      cases current with
      | nothing | list => rfl
      | paragraph lines => exact absurd (by rw [hclass]; exact trivial) hline

theorem blocksFrom_paragraph {lines contents : List (List Char)}
    (h : List.Forall₂ (fun line content => classify line = .text content) lines contents)
    (earlier : List (List Char)) :
    blocksFrom (.paragraph earlier) (lines ++ rest) =
      blocksFrom (.paragraph (contents.reverse ++ earlier)) rest := by
  induction h generalizing earlier with
  | nil => rfl
  | cons hline _ ih =>
    rw [List.cons_append, blocksFrom, hline]
    simp only [ih, List.reverse_cons, List.append_assoc, List.singleton_append]

theorem blocksFrom_list {lines items : List (List Char)}
    (h : List.Forall₂ (fun line item => classify line = .item item) lines items)
    (earlier : List (List Char)) :
    blocksFrom (.list earlier) (lines ++ rest) =
      blocksFrom (.list (items.reverse ++ earlier)) rest := by
  induction h generalizing earlier with
  | nil => rfl
  | cons hline _ ih =>
    rw [List.cons_append, blocksFrom, hline]
    simp only [ih, List.reverse_cons, List.append_assoc, List.singleton_append]

theorem codeFrom_append {lines : List (List Char)} (h : ∀ line ∈ lines, isFence line = false)
    (code : List (List Char)) :
    codeFrom code (lines ++ rest) = codeFrom (lines.reverse ++ code) rest := by
  induction lines generalizing code with
  | nil => rfl
  | cons line lines ih =>
    obtain ⟨hline, hlines⟩ := List.forall_mem_cons.1 h
    rw [List.cons_append, codeFrom, if_neg (by simp [hline]), ih hlines, List.reverse_cons,
      List.append_assoc, List.singleton_append]

theorem Composes.blocksFrom_eq {lines : List (List Char)} (h : Composes lines blocks) :
    blocksFrom .nothing lines = blocks := by
  induction h with
  | done => rfl
  | blank hline _ ih => rw [blocksFrom, hline, ← ih]; rfl
  | heading hline _ ih => rw [blocksFrom, hline, ← ih]; rfl
  | @paragraph lines contents rest blocks hne hlines hnext _ ih =>
    cases hlines with
    | nil => exact absurd rfl hne
    | @cons line content lines contents hline hlines =>
      have hclose : blocksFrom (.paragraph (contents.reverse ++ [content])) rest =
          Unfinished.close (.paragraph (contents.reverse ++ [content])) ++
            blocksFrom .nothing rest :=
        blocksFrom_of_not_goesOn fun line hline hgoes => by
          cases hclass : classify line with
          | text content => exact hnext line hline content hclass
          | fence | blank | heading | item => rw [hclass] at hgoes; exact hgoes
      rw [List.cons_append, blocksFrom, hline]
      change blocksFrom (.paragraph [content]) (lines ++ rest) = _
      rw [blocksFrom_paragraph hlines, hclose, ih]
      simp [Unfinished.close]
  | @list lines items rest blocks hne hlines hnext _ ih =>
    cases hlines with
    | nil => exact absurd rfl hne
    | @cons line item lines items hline hlines =>
      have hclose : blocksFrom (.list (items.reverse ++ [item])) rest =
          Unfinished.close (.list (items.reverse ++ [item])) ++ blocksFrom .nothing rest :=
        blocksFrom_of_not_goesOn fun line hline hgoes => by
          cases hclass : classify line with
          | item item => exact hnext line hline item hclass
          | fence | blank | heading | text => rw [hclass] at hgoes; exact hgoes
      rw [List.cons_append, blocksFrom, hline]
      change blocksFrom (.list [item]) (lines ++ rest) = _
      rw [blocksFrom_list hlines, hclose, ih]
      simp [Unfinished.close]
  | code hopening hlines hclosing _ ih =>
    rw [blocksFrom, hopening]
    change codeFrom [] _ = _
    rw [codeFrom_append hlines, codeFrom, if_pos hclosing, ih]
    simp
  | @unclosed opening lines hopening hlines =>
    rw [blocksFrom, hopening]
    change codeFrom [] lines = _
    have hcode : codeFrom [] (lines ++ []) = codeFrom (lines.reverse ++ []) [] :=
      codeFrom_append hlines []
    rw [List.append_nil, List.append_nil] at hcode
    rw [hcode, codeFrom, List.reverse_reverse]

/-- **The blocks of a text are those that its lines compose**, and no others. -/
theorem composes_iff {markdown : List Char} :
    Composes (Chars.lines markdown) blocks ↔ blocks = Markdown.blocks markdown := by
  constructor
  · intro h
    exact h.blocksFrom_eq.symm
  · rintro rfl
    exact (composes_read (Chars.lines markdown)).1 _ _ .nothing

/-! ### How the blocks are written -/

/-- **The HTML of a block is complete**: it is opened and closed, and nothing in it opens or closes
a block. The content of code is its lines with a line feed between each two, escaped. -/
inductive Shows : Block → List Char → Prop
  | heading {level : Nat} {text : List Char} (least : 1 ≤ level) (greatest : level ≤ 6)
      (hmarked : Marked (inline text)) :
      Shows (.heading level text) (s!"<h{level}>".toList ++ inline text ++ s!"</h{level}>".toList)
  | paragraph {lines : List (List Char)} (hne : lines ≠ [])
      (hmarked : Marked (inline (Chars.join [' '] lines))) :
      Shows (.paragraph lines)
        ("<p>".toList ++ inline (Chars.join [' '] lines) ++ "</p>".toList)
  | list {items : List (List Char)} (hne : items ≠ [])
      (hmarked : ∀ item ∈ items, Marked (inline item)) :
      Shows (.list items)
        ("<ul>\n".toList ++
          items.flatMap (fun item => "<li>".toList ++ inline item ++ "</li>\n".toList) ++
          "</ul>".toList)
  | code {lines : List (List Char)}
      (hlt : '<' ∉ Chars.join ['\n'] (lines.map Entity.encode)) :
      Shows (.code lines)
        ("<pre><code>".toList ++ Chars.join ['\n'] (lines.map Entity.encode) ++
          "</code></pre>".toList)

variable {block : Block} {html : List Char}

theorem Shows.html_eq (h : Shows block html) : block.html = html ++ ['\n'] := by
  cases h with
  | heading | paragraph | code => rfl
  | list hne _ =>
    have hopening : "<ul>\n".toList = listOpening ++ ['\n'] := rfl
    have hclosing : "</li>\n".toList = "</li>".toList ++ ['\n'] := rfl
    have hlast : "</ul>".toList = listClosing := rfl
    simp [Block.html, itemElement, element, List.flatMap_map, hopening, hclosing, hlast]

/-- The HTML of a block ends with its closing tag. -/
theorem Shows.getLast?_eq (h : Shows block html) : html.getLast? = some '>' := by
  cases h with
  | @heading level text =>
    have hclosing : s!"</h{level}>".toList = ("</h" ++ toString level).toList ++ ['>'] :=
      String.toList_append
    rw [hclosing, ← List.append_assoc, List.getLast?_concat]
  | paragraph | list | code => exact List.getLast?_append_of_ne_nil _ (by decide)

theorem lt_notMem_code (lines : List (List Char)) :
    '<' ∉ Chars.join ['\n'] (lines.map Entity.encode) := by
  rcases List.eq_nil_or_concat lines with rfl | ⟨front, last, rfl⟩
  · exact List.not_mem_nil
  · rw [List.concat_eq_append, List.map_append, List.map_singleton, Chars.join_concat]
    simp [Entity.lt_not_mem_encode]

/-- **Each block that lines compose is written as a complete one.** -/
theorem Composes.exists_shows {lines : List (List Char)} (h : Composes lines blocks) :
    ∃ htmls, List.Forall₂ Shows blocks htmls := by
  induction h with
  | done => exact ⟨[], .nil⟩
  | blank _ _ ih => exact ih
  | @heading line text level rest blocks hline _ ih =>
    obtain ⟨htmls, hshows⟩ := ih
    have hreads := reads_classify line
    rw [hline] at hreads
    cases hreads with
    | heading hleast hgreatest =>
      exact ⟨_, .cons (.heading hleast hgreatest (marked_inline _)) hshows⟩
  | paragraph hne hlines _ _ ih =>
    obtain ⟨htmls, hshows⟩ := ih
    cases hlines with
    | nil => exact absurd rfl hne
    | cons => exact ⟨_, .cons (.paragraph (List.cons_ne_nil _ _) (marked_inline _)) hshows⟩
  | list hne hlines _ _ ih =>
    obtain ⟨htmls, hshows⟩ := ih
    cases hlines with
    | nil => exact absurd rfl hne
    | cons =>
      exact ⟨_, .cons (.list (List.cons_ne_nil _ _) fun item _ => marked_inline item) hshows⟩
  | code _ _ _ _ ih =>
    obtain ⟨htmls, hshows⟩ := ih
    exact ⟨_, .cons (.code (lt_notMem_code _)) hshows⟩
  | unclosed => exact ⟨_, .cons (.code (lt_notMem_code _)) .nil⟩

/-- **The HTML of a text is that of its blocks**, with a line feed between each two. -/
theorem toHtml_eq_join {markdown : List Char} {htmls : List (List Char)}
    (h : List.Forall₂ Shows (Markdown.blocks markdown) htmls) :
    toHtml markdown = Chars.join ['\n'] htmls := by
  have hlines : (Markdown.blocks markdown).flatMap Block.html = htmls.flatMap (· ++ ['\n']) := by
    generalize Markdown.blocks markdown = blocks at h
    induction h with
    | nil => rfl
    | cons hshows _ ih => rw [List.flatMap_cons, List.flatMap_cons, hshows.html_eq, ih]
  rw [toHtml_eq, hlines]
  rcases List.eq_nil_or_concat htmls with rfl | ⟨front, html, rfl⟩
  · rfl
  · rw [List.concat_eq_append] at h hlines ⊢
    have hreverse := List.forall₂_reverse_iff.2 h
    rw [List.reverse_append] at hreverse
    obtain ⟨block, _, hshows, -, -⟩ := List.forall₂_cons_right_iff.1 hreverse
    have hblank : ∀ c ∈ ['\n'], Text.isBlank c = true := List.forall_mem_singleton.2 (by decide)
    have hlast : (Chars.join ['\n'] (front ++ [html])).getLast? = some '>' := by
      rw [Chars.join_concat, List.getLast?_append, hshows.getLast?_eq, Option.some_or]
    have htrim : Chars.trimEnd (Chars.join ['\n'] (front ++ [html])) =
        Chars.join ['\n'] (front ++ [html]) := by
      rw [Chars.trimEnd_eq_self_iff, hlast]
      rintro _ ⟨rfl⟩
      rfl
    calc Chars.trimEnd ((front ++ [html]).flatMap (· ++ ['\n']))
        = Chars.trimEnd (Chars.join ['\n'] (front ++ [html]) ++ ['\n']) := by
          rw [Chars.join_concat, List.flatMap_append]
          simp
      _ = Chars.join ['\n'] (front ++ [html]) := by
          rw [Chars.trimEnd_append_of_blank hblank, htrim]

/-- **Which blocks a Markdown text has, and how they are written.** Its lines compose exactly its
blocks: each line that is not blank and not fenced is a heading, an item of a list or a line of a
paragraph, in their order, and each block of code has the lines between its fences. The HTML is a
sequence of complete blocks, one for each of them. -/
theorem toHtml_composes (markdown : List Char) :
    (∀ blocks, Composes (Chars.lines markdown) blocks ↔ blocks = Markdown.blocks markdown) ∧
      (∀ line ∈ Chars.lines markdown, Reads line (classify line)) ∧
      ∃ htmls, List.Forall₂ Shows (Markdown.blocks markdown) htmls ∧
        toHtml markdown = Chars.join ['\n'] htmls := by
  obtain ⟨htmls, hshows⟩ := (composes_iff.2 rfl : Composes (Chars.lines markdown) _).exists_shows
  exact ⟨fun blocks => composes_iff, fun line _ => reads_classify line, htmls, hshows,
    toHtml_eq_join hshows⟩

end Syndication.Markup.Markdown
