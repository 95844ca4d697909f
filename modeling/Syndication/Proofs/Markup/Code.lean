import Mathlib.Data.List.Chain
import Syndication.Text.Search
import Syndication.Proofs.Markup.Cleaning
import Syndication.Proofs.Markup.TagFree

/-!
# Code in HTML

Code is written into HTML between the tags of preformatted text, with the characters that HTML
gives a meaning to as references. The conversion to Markdown reads it back at once and goes on with
the whole text, so the code passes the search for tags and a second reading of references as if it
were HTML. It comes out as it is when none of that finds anything in it.

Main statements:

* `clean_codeSource`: the clean-up leaves quiet code alone.
* `matchAt_preformatted`: what is found as preformatted code.
* `tidy_fencedCode`: fenced code is tidy already.
* `toMarkdown_code`: which code the conversion preserves.
* `toMarkdown_loses_code`: code that it does not preserve.
-/

namespace Syndication.Markup.Html

open Pattern Entity

variable {code text cs rest : List Char} {before : Option Char}

/-- What stands before preformatted code. -/
def codeOpening : List Char :=
  "<pre><code>".toList

/-- What stands behind preformatted code. -/
def codeClosing : List Char :=
  "</code></pre>".toList

/-- Preformatted code in HTML. -/
def codeSource (code : List Char) : List Char :=
  codeOpening ++ (encode code ++ codeClosing)

/-! ### The clean-up -/

/-- A tag by its name. -/
def tagNamed (name : String) (hplain : '<' ∉ name.toList ∧ '>' ∉ name.toList)
    (hopens : ¬ OpensElement name.toList) (hstart : name.toList.head? ≠ some '!') : PlainTag where
  inside := name.toList
  closes := hplain.2
  single := hplain.1
  notElement := hopens
  notComment after h := hstart (by rw [h]; rfl)

/-- The fragments of preformatted code. -/
def codeFragments (code : List Char) : List Fragment :=
  [.tag (tagNamed "pre" (by decide) (by decide +kernel) (by decide)),
    .tag (tagNamed "code" (by decide) (by decide +kernel) (by decide)),
    .prose ⟨encode code, lt_not_mem_encode code⟩,
    .tag (tagNamed "/code" (by decide) (by decide +kernel) (by decide)),
    .tag (tagNamed "/pre" (by decide) (by decide +kernel) (by decide))]

theorem flatMap_codeFragments (code : List Char) :
    (codeFragments code).flatMap Fragment.kept = codeSource code := by
  have hsplit : (codeFragments code).flatMap Fragment.kept =
      codeOpening ++ (encode code ++ (codeClosing ++ [])) := rfl
  rw [hsplit, List.append_nil]
  rfl

/-- A reference has no blanks. -/
theorem encodeChar_cases (c : Char) :
    encodeChar c = [c] ∨
      ∃ name, encodeChar c = '&' :: name ∧ name.any Text.isBlank = false := by
  unfold encodeChar
  split
  · exact .inr ⟨_, rfl, by decide⟩
  · split
    · exact .inr ⟨_, rfl, by decide⟩
    · split
      · exact .inr ⟨_, rfl, by decide⟩
      · exact .inl rfl

/-- Written text begins with what has no ampersand in it as the text does. -/
theorem exists_append_of_encode {word : List Char} (h : encode cs = word ++ rest)
    (hword : '&' ∉ word) : ∃ after, cs = word ++ after := by
  induction word generalizing cs with
  | nil => exact ⟨cs, rfl⟩
  | cons d word ih =>
    obtain ⟨hd, htail⟩ := not_or.1 (mt List.mem_cons.2 hword)
    cases cs with
    | nil => cases h
    | cons c cs =>
      rw [encode, List.flatMap_cons, ← encode] at h
      rcases encodeChar_cases c with hc | ⟨name, hc, -⟩
      · rw [hc] at h
        obtain ⟨rfl, hcs⟩ := List.cons.inj h
        obtain ⟨after, rfl⟩ := ih hcs htail
        exact ⟨after, rfl⟩
      · rw [hc] at h
        exact absurd (List.cons.inj h).1 hd

/-- What begins with a blank and has no ampersand in it stands in written text as it does in the
text. -/
theorem exists_of_encode_append {left word : List Char} {b : Char}
    (h : encode cs = left ++ ((b :: word) ++ rest)) (hb : Text.isBlank b = true)
    (hword : '&' ∉ word) : ∃ before after, cs = before ++ ((b :: word) ++ after) := by
  induction cs generalizing left with
  | nil => simp at h
  | cons c cs ih =>
    rw [encode, List.flatMap_cons, ← encode] at h
    have hlater (middle : List Char) (hcs : encode cs = middle ++ ((b :: word) ++ rest)) :
        ∃ before after, c :: cs = before ++ ((b :: word) ++ after) := by
      obtain ⟨before, after, rfl⟩ := ih hcs
      exact ⟨c :: before, after, rfl⟩
    rcases encodeChar_cases c with hc | ⟨name, hc, hname⟩
    · rw [hc] at h
      cases left with
      | nil =>
        obtain ⟨rfl, htail⟩ := List.cons.inj h
        obtain ⟨after, rfl⟩ := exists_append_of_encode htail hword
        exact ⟨[], after, rfl⟩
      | cons d left => exact hlater left (List.cons.inj h).2
    · -- the blank does not stand in the reference
      have hb' : b ∉ encodeChar c := by
        rw [hc, List.mem_cons, not_or]
        exact ⟨ne_of_isBlank hb (by decide), fun hmem => List.any_eq_false.1 hname b hmem hb⟩
      obtain ⟨middle, -, hcs⟩ := exists_append_of_notMem h hb'
      exact hlater middle hcs

/-- **No event attribute begins in quiet code.** -/
theorem handlesNone_codeSource (h : Quiet code) : HandlesNone (codeSource code) := by
  rintro before _ hsource ⟨head, gap, c, rest, rfl, hhead, -, -⟩
  obtain ⟨b, name, rfl, hb⟩ := hhead.exists_between
  have hblanks : codeOpening.any Text.isBlank = false := by decide
  have hopening : b ∉ codeOpening := fun hmem => List.any_eq_false.1 hblanks b hmem hb
  have hsplit : codeOpening ++ (encode code ++ codeClosing) =
      before ++ b :: (name ++ '=' :: (gap ++ c :: rest)) := by
    rw [← codeSource, hsource]
    simp
  obtain ⟨left, right, hencode⟩ := exists_append_between hsplit hopening (by decide)
  have hhead' : encode code = left ++ ((b :: (name ++ ['='])) ++ right) := by
    rw [hencode]
    simp
  have hword : '&' ∉ name ++ ['='] := fun hmem =>
    hhead.notMem (by decide) (by decide) (by decide) (List.mem_cons_of_mem b hmem)
  obtain ⟨before', after', hcode⟩ := exists_of_encode_append hhead' hb hword
  exact h before' _ after' hcode hhead

/-- **The clean-up leaves quiet code alone.** -/
theorem clean_codeSource (h : Quiet code) : clean (codeSource code) = codeSource code := by
  have hopens := opensNone_kept (codeFragments code)
  have hcomments := commentsNone_kept (codeFragments code)
  rw [flatMap_codeFragments] at hopens hcomments
  rw [clean_eq_self_iff]
  refine ⟨spotless_of_none hopens hcomments (handlesNone_codeSource h), ?_⟩
  rw [Chars.trim_eq_self_iff]
  refine ⟨?_, ?_⟩
  · rintro _ ⟨rfl⟩
    decide
  · intro c hc
    have hlast : (codeSource code).getLast? = some '>' := by
      have hclosing : codeClosing.getLast? = some '>' := by decide
      rw [codeSource, ← List.append_assoc, List.getLast?_append, hclosing]
      rfl
    rw [hlast] at hc
    cases hc
    decide

/-! ### What is found as preformatted code -/

/-- The end of preformatted code. -/
def codeEnd : Pattern :=
  .seq (maybe (literalIgnoringCase "</code>")) (.seq blanks (literalIgnoringCase "</pre>"))

theorem preformatted_eq :
    preformatted = .seq (literalIgnoringCase "<pre") (.seq tagRest (.seq blanks
      (.seq (maybe (.seq (literalIgnoringCase "<code") tagRest)) (.seq (body 1) codeEnd)))) := rfl

section Running

variable {α : Type} {next : Place → List (Nat × Span) → Option α}
  {groups groups' : List (Nat × Span)} {pattern : Pattern}

/-- The end of a tag without attributes. -/
theorem run_tagRest :
    tagRest.run ⟨before, '>' :: rest⟩ groups next = next ⟨some '>', rest⟩ groups := by
  simp [tagRest, run, passMany, noneOf, char]

/-- No blanks. -/
theorem run_blanks_of_not_blank {c : Char} (h : Text.isBlank c = false) :
    blanks.run ⟨before, c :: rest⟩ groups next = next ⟨before, c :: rest⟩ groups := by
  simp [blanks, run, passMany, h]

theorem run_maybe_of_eq_some {p : Place} {r : α} (h : pattern.run p groups next = some r) :
    (maybe pattern).run p groups next = some r := by
  rw [maybe, run, h]

/-- The end of preformatted code is found behind it. -/
theorem run_codeEnd (f : Place → List (Nat × Span) → α) :
    codeEnd.run ⟨before, codeClosing⟩ groups (fun q groups => some (f q groups)) =
      some (f ⟨some '>', []⟩ groups) := by
  have hcode : Spells "</code>" ['<', '/', 'c', 'o', 'd', 'e', '>'] := by decide
  have hpre : Spells "</pre>" ['<', '/', 'p', 'r', 'e', '>'] := by decide
  have hsplit : codeClosing =
      ['<', '/', 'c', 'o', 'd', 'e', '>'] ++ (['<', '/', 'p', 'r', 'e', '>'] ++ []) := rfl
  rw [codeEnd, run]
  refine run_maybe_of_eq_some ?_
  rw [hsplit, run_literalIgnoringCase hcode, run]
  refine (run_blanks_of_not_blank (by decide)).trans ?_
  exact run_literalIgnoringCase hpre _ []

/-- The end of preformatted code begins with an angle bracket, perhaps behind blanks. -/
theorem run_codeEnd_eq_none {c : Char} (h : '<' ∉ c :: cs) :
    codeEnd.run ⟨before, c :: (cs ++ codeClosing)⟩ groups next = none := by
  refine run_eq_none fun q groups' hcovers => ?_
  obtain ⟨p₁, _, hmaybe, p₂, _, ⟨hruns, -⟩, hpre⟩ := hcovers
  obtain ⟨gap, hrest, hgap⟩ := hruns.exists_append
  obtain ⟨ending, hending, hrest', -⟩ := hpre.literalIgnoringCase
  rcases hmaybe with hcode | ⟨rfl, -⟩
  · obtain ⟨closing, hclosing, hcs, -⟩ := hcode.literalIgnoringCase
    cases hclosing with
    | @cons _ d _ closing hd =>
      obtain ⟨rfl, -⟩ := List.cons.inj hcs
      exact absurd (by simp [eq_lt_of_eqIgnoringCase hd]) h
  · -- what follows the first angle bracket closes the code, not the preformatted text
    cases hending with
    | @cons _ d₀ _ ending hd₀ hending =>
      cases hending with
      | @cons _ d₁ _ ending hd₁ hending =>
        cases hending with
        | @cons _ d₂ _ ending hd₂ hending =>
          obtain rfl := eq_lt_of_eqIgnoringCase hd₀
          have hgap' : '<' ∉ gap := fun hmem => ne_of_isBlank (hgap _ hmem) (by decide) rfl
          have hsplit : (c :: cs) ++ '<' :: "/code></pre>".toList =
              gap ++ '<' :: (d₁ :: d₂ :: (ending ++ q.rest)) := by
            rw [hrest'] at hrest
            exact hrest
          obtain ⟨-, htail⟩ := append_cons_inj h hgap' hsplit
          obtain rfl : 'c' = d₂ := (List.cons.inj (List.cons.inj htail).2).1
          exact absurd hd₂ (by decide)

end Running

/-- **What is found as preformatted code**: all of it, and the written code as its group. -/
theorem matchAt_preformatted (code : List Char) :
    preformatted.matchAt ⟨none, codeSource code⟩ = some ⟨⟨codeSource code, []⟩,
      [(1, ⟨encode code ++ codeClosing, codeClosing⟩)]⟩ := by
  have hpre : Spells "<pre" ['<', 'p', 'r', 'e'] := by decide
  have hcode : Spells "<code" ['<', 'c', 'o', 'd', 'e'] := by decide
  have hsource : codeSource code = ['<', 'p', 'r', 'e'] ++ '>' ::
      (['<', 'c', 'o', 'd', 'e'] ++ '>' :: (encode code ++ codeClosing)) := rfl
  rw [matchAt, preformatted_eq, run]
  generalize codeSource code = source at hsource ⊢
  conv_lhs =>
    enter [2]
    rw [hsource]
  rw [run_literalIgnoringCase hpre, run, run_tagRest, run]
  refine (run_blanks_of_not_blank (by decide)).trans ?_
  rw [run]
  refine run_maybe_of_eq_some ?_
  rw [run]
  refine (run_literalIgnoringCase hcode _ _).trans ?_
  rw [run_tagRest, run, body, run, run]
  refine passFew_of_shortest (fun _ _ => rfl) ?_ (run_codeEnd _)
  intro before front c back hsplit
  refine run_codeEnd_eq_none fun hmem => lt_not_mem_encode code ?_
  rw [hsplit]
  exact List.mem_append_right front hmem

/-! ### What preformatted code becomes -/

/-- The line before and behind code in Markdown. -/
def fence : List Char :=
  "\x60\x60\x60".toList

/-- Fenced code of Markdown. -/
def fencedCode (code : List Char) : List Char :=
  fence ++ '\n' :: (code ++ '\n' :: fence)

/-- **Code that is laid out**: no line ends with a blank, neither the first nor the last line is
blank, and no two blank lines follow each other. -/
structure LaidOut (code : List Char) : Prop where
  trimmed : ∀ line ∈ Chars.splitOn '\n' code, Chars.trimEnd line = line
  first : (Chars.splitOn '\n' code).head? ≠ some []
  last : (Chars.splitOn '\n' code).getLast? ≠ some []
  apart : (Chars.splitOn '\n' code).IsChain fun line next => line ≠ [] ∨ next ≠ []

theorem splitOn_append (before after : List Char) :
    Chars.splitOn '\n' (before ++ '\n' :: after) =
      Chars.splitOn '\n' before ++ Chars.splitOn '\n' after :=
  Chars.splitWhere_append (by decide) before after

namespace LaidOut

theorem head?_ne (h : LaidOut code) : code.head? ≠ some '\n' := by
  intro hhead
  obtain ⟨rest, rfl⟩ := List.head?_eq_some_iff.1 hhead
  exact h.first rfl

theorem getLast?_ne (h : LaidOut code) : code.getLast? ≠ some '\n' := by
  intro hlast
  obtain ⟨front, rfl⟩ := List.getLast?_eq_some_iff.1 hlast
  refine h.last ?_
  rw [splitOn_append, List.getLast?_append]
  rfl

theorem ne_append (h : LaidOut code) (before after : List Char) :
    code ≠ before ++ '\n' :: '\n' :: '\n' :: after := by
  rintro rfl
  have hchain := h.apart
  have hsplit : Chars.splitOn '\n' (before ++ '\n' :: '\n' :: '\n' :: after) =
      Chars.splitOn '\n' before ++ [] :: [] :: Chars.splitOn '\n' after := splitOn_append _ _
  rw [hsplit, List.isChain_append] at hchain
  rcases (List.isChain_cons_cons.1 hchain.2.1).1 with hne | hne
  · exact hne rfl
  · exact hne rfl

end LaidOut

theorem head?_encode_ne (h : code.head? ≠ some '\n') : (encode code).head? ≠ some '\n' := by
  cases code with
  | nil => exact h
  | cons c code =>
    rw [encode, List.flatMap_cons]
    rcases encodeChar_cases c with hc | ⟨name, hc, -⟩
    · rw [hc]
      exact h
    · rw [hc]
      simp

theorem getLast?_encode_ne (h : code.getLast? ≠ some '\n') :
    (encode code).getLast? ≠ some '\n' := by
  rcases List.eq_nil_or_concat code with rfl | ⟨front, c, rfl⟩
  · exact h
  · rw [List.concat_eq_append] at h ⊢
    have hc : c ≠ '\n' := by simpa using h
    rw [encode_append, encode, encode, List.flatMap_singleton, List.getLast?_append]
    unfold encodeChar
    split
    · simp
    · split
      · simp
      · split
        · simp
        · simpa using hc

theorem trimLineFeeds_of_ne (hhead : cs.head? ≠ some '\n') (hlast : cs.getLast? ≠ some '\n') :
    trimLineFeeds cs = cs := by
  have hkeep (ds : List Char) (h : ds.head? ≠ some '\n') : ds.dropWhile (· == '\n') = ds := by
    cases ds with
    | nil => rfl
    | cons d ds => exact List.dropWhile_cons_of_neg (by simpa using h)
  rw [trimLineFeeds, hkeep cs hhead, hkeep cs.reverse (by rwa [List.head?_reverse]),
    List.reverse_reverse]

theorem unanchored_preformatted : preformatted.Unanchored := by
  intro before before' cs
  cases cs <;> rfl

/-- **Preformatted code becomes fenced code**, which is the code itself. -/
theorem replace_preformatted (h : LaidOut code) :
    preformatted.replace fenced (codeSource code) = '\n' :: (fencedCode code ++ ['\n']) := by
  have hfound : preformatted.matchAt ⟨none, codeSource code ++ []⟩ =
      some ⟨⟨codeSource code ++ [], []⟩, [(1, ⟨encode code ++ codeClosing, codeClosing⟩)]⟩ := by
    rw [List.append_nil]
    exact matchAt_preformatted code
  have hne : codeSource code ≠ [] := List.cons_ne_nil '<' _
  have hwhole : preformatted.replace fenced (codeSource code ++ []) =
      fenced _ ++ preformatted.replace fenced [] :=
    unanchored_preformatted.replace_append hfound rfl hne
  have hgroup : (⟨encode code ++ codeClosing, codeClosing⟩ : Span).text = encode code :=
    Span.text_mk_append (encode code) codeClosing
  have hdecode := decode_encode_append code []
  rw [List.append_nil, decode, List.append_nil] at hdecode
  have htrim := trimLineFeeds_of_ne (head?_encode_ne h.head?_ne) (getLast?_encode_ne h.getLast?_ne)
  have hfenced : fenced ⟨⟨codeSource code ++ [], []⟩,
      [(1, ⟨encode code ++ codeClosing, codeClosing⟩)]⟩ =
        '\n' :: (fence ++ ['\n']) ++ decode (trimLineFeeds (Span.text
          ⟨encode code ++ codeClosing, codeClosing⟩)) ++ '\n' :: (fence ++ ['\n']) := rfl
  rw [List.append_nil] at hwhole
  rw [List.append_nil, hgroup, htrim, hdecode] at hfenced
  rw [hwhole, hfenced, fencedCode]
  simp [replace, scan, scanFrom]

/-! ### References -/

/-- The references that are read. -/
def references : List (List Char) :=
  ["&lt;".toList, "&gt;".toList, "&quot;".toList, "&#39;".toList, "&nbsp;".toList, "&amp;".toList]

/-- **A text without references.** -/
def ReferenceFree (text : List Char) : Prop :=
  ∀ reference ∈ references, Chars.contains reference text = false

instance : DecidablePred ReferenceFree := fun text =>
  inferInstanceAs (Decidable (∀ reference ∈ references, Chars.contains reference text = false))

/-- A reference goes from an ampersand to a semicolon. -/
theorem exists_between_of_mem_references {reference : List Char} (h : reference ∈ references) :
    ∃ name, reference = '&' :: (name ++ [';']) := by
  simp only [references, List.mem_cons, List.not_mem_nil, or_false] at h
  rcases h with rfl | rfl | rfl | rfl | rfl | rfl
  · exact ⟨['l', 't'], rfl⟩
  · exact ⟨['g', 't'], rfl⟩
  · exact ⟨['q', 'u', 'o', 't'], rfl⟩
  · exact ⟨['#', '3', '9'], rfl⟩
  · exact ⟨['n', 'b', 's', 'p'], rfl⟩
  · exact ⟨['a', 'm', 'p'], rfl⟩

theorem ReferenceFree.append {front back : List Char} (h : ReferenceFree text)
    (hfront : '&' ∉ front) (hback : ';' ∉ back) : ReferenceFree (front ++ (text ++ back)) := by
  intro reference hmem
  rw [← Bool.not_eq_true]
  intro hcontains
  obtain ⟨left, right, hsplit⟩ := Chars.contains_iff.1 hcontains
  obtain ⟨name, rfl⟩ := exists_between_of_mem_references hmem
  have hbetween : front ++ (text ++ back) = left ++ '&' :: (name ++ ';' :: right) := by
    rw [hsplit]
    simp
  obtain ⟨left', right', htext⟩ := exists_append_between hbetween hfront hback
  have hinside : Chars.contains ('&' :: (name ++ [';'])) text = true :=
    Chars.contains_iff.2 ⟨left', right', by rw [htext]; simp⟩
  rw [h _ hmem] at hinside
  cases hinside

/-- **A text without references is read as it stands.** -/
theorem ReferenceFree.decode_eq (h : ReferenceFree text) : decode text = text := by
  have hnot {reference rest : List Char} (hmem : reference ∈ references) :
      ¬ ReferenceFree (reference ++ rest) := fun hfree => by
    have hcontains : Chars.contains reference (reference ++ rest) = true :=
      Chars.contains_iff.2 ⟨[], rest, rfl⟩
    rw [hfree reference hmem] at hcontains
    cases hcontains
  fun_induction decode text with
  | case1 rest => exact absurd h (hnot (by decide : "&lt;".toList ∈ references))
  | case2 rest => exact absurd h (hnot (by decide : "&gt;".toList ∈ references))
  | case3 rest => exact absurd h (hnot (by decide : "&quot;".toList ∈ references))
  | case4 rest => exact absurd h (hnot (by decide : "&#39;".toList ∈ references))
  | case5 rest => exact absurd h (hnot (by decide : "&nbsp;".toList ∈ references))
  | case6 rest => exact absurd h (hnot (by decide : "&amp;".toList ∈ references))
  | case7 c rest =>
    rename_i ih
    have hrest : ReferenceFree rest := fun reference hmem => by
      have hall := h reference hmem
      rw [Chars.contains, Bool.or_eq_false_iff] at hall
      exact hall.2
    rw [ih hrest]
  | case8 => rfl

/-! ### Blank lines -/

/-- Line feeds that follow each other in fenced code do so in the code. -/
theorem fencedCode_ne_append (h : LaidOut code) (before after : List Char) :
    '\n' :: fencedCode code ≠ before ++ '\n' :: '\n' :: '\n' :: after := by
  have hfence : fence = ['\x60', '\x60', '\x60'] := rfl
  have hcode (left : List Char) :
      code ++ '\n' :: fence ≠ left ++ '\n' :: '\n' :: '\n' :: after := by
    intro heq
    rw [hfence] at heq
    rcases List.append_eq_append_iff.1 heq with ⟨rest, -, hrest⟩ | ⟨rest, hrest, hafter⟩
    · have hlength := congrArg List.length hrest
      simp only [List.length_append, List.length_cons, List.length_nil] at hlength
      rcases rest with - | ⟨c, - | ⟨d, rest⟩⟩
      · simp at hrest
      · simp at hrest
      · simp only [List.length_cons] at hlength
        omega
    · rcases rest with - | ⟨c, - | ⟨d, - | ⟨e, rest⟩⟩⟩ <;>
        simp only [List.cons_append, List.nil_append, List.cons.injEq] at hafter
      · exact absurd hafter.2.1 (by decide)
      · obtain ⟨rfl, -⟩ := hafter
        exact h.getLast?_ne (by rw [hrest]; simp)
      · obtain ⟨rfl, rfl, -⟩ := hafter
        exact h.getLast?_ne (by rw [hrest]; simp)
      · obtain ⟨rfl, rfl, rfl, -⟩ := hafter
        exact h.ne_append left rest hrest
  intro heq
  rw [fencedCode] at heq
  -- the run of line feeds begins behind the opening fence, or with the line feed that ends it
  rcases before with - | ⟨c₀, - | ⟨c₁, - | ⟨c₂, - | ⟨c₃, before⟩⟩⟩⟩
  · simp [hfence] at heq
  · simp [hfence] at heq
  · simp [hfence] at heq
  · simp [hfence] at heq
  · have htail : '\n' :: (code ++ '\n' :: fence) = before ++ '\n' :: '\n' :: '\n' :: after := by
      simp only [hfence, List.cons_append, List.nil_append, List.cons.injEq] at heq ⊢
      exact heq.2.2.2.2
    cases before with
    | nil =>
      obtain ⟨-, hstart⟩ := List.cons.inj htail
      cases code with
      | nil => simp [hfence] at hstart
      | cons c code =>
        obtain ⟨rfl, -⟩ := List.cons.inj hstart
        exact h.head?_ne rfl
    | cons d before => exact hcode before (List.cons.inj htail).2

theorem matchAt_blankRun_eq_none {p : Place}
    (h : ∀ after, p.rest ≠ '\n' :: '\n' :: '\n' :: after) : blankRun.matchAt p = none := by
  refine run_eq_none fun q groups' hcovers => ?_
  obtain ⟨m, _, hliteral, -⟩ := hcovers
  exact absurd hliteral.literal.1 (h m.rest)

theorem flatMap_splitOn (code : List Char) :
    (Chars.splitOn '\n' code).flatMap (· ++ ['\n']) = code ++ ['\n'] := by
  have hcode : Chars.join ['\n'] (Chars.splitOn '\n' code) = code :=
    Chars.intercalate_splitOn '\n' code
  rcases List.eq_nil_or_concat (Chars.splitOn '\n' code) with hnil | ⟨front, line, hlines⟩
  · exact absurd hnil (Chars.splitWhere_ne_nil _ _)
  · rw [List.concat_eq_append] at hlines
    rw [hlines, Chars.join_concat] at hcode
    rw [hlines, List.flatMap_append, List.flatMap_singleton, ← List.append_assoc, hcode]

/-- The lines of fenced code, behind a blank one. -/
def fencedLines (code : List Char) : List (List Char) :=
  [] :: fence :: (Chars.splitOn '\n' code ++ [fence])

theorem LaidOut.fencedLines (h : LaidOut code) :
    ∀ line ∈ fencedLines code, '\n' ∉ line ∧ Chars.trimEnd line = line := by
  have hfence : '\n' ∉ fence ∧ Chars.trimEnd fence = fence := by decide
  have hcode : ∀ line ∈ Chars.splitOn '\n' code, '\n' ∉ line ∧ Chars.trimEnd line = line := by
    intro line hline
    refine ⟨fun hmem => ?_, h.trimmed line hline⟩
    simpa using Chars.eq_false_of_mem_splitWhere hline _ hmem
  simp only [Html.fencedLines, List.forall_mem_cons, List.forall_mem_append]
  exact ⟨⟨by simp, rfl⟩, hfence, hcode, hfence, List.forall_mem_nil _⟩

theorem lines_fencedCode (h : LaidOut code) :
    Chars.lines ('\n' :: (fencedCode code ++ ['\n'])) = fencedLines code := by
  have htext : '\n' :: (fencedCode code ++ ['\n']) =
      (fencedLines code).flatMap (· ++ ['\n']) := by
    simp [fencedCode, fencedLines, flatMap_splitOn]
  rw [htext]
  refine Chars.lines_flatMap fun line hline => ⟨(h.fencedLines line hline).1, fun hreturn => ?_⟩
  have hblank := Chars.trimEnd_eq_self_iff.1 (h.fencedLines line hline).2 '\r' hreturn
  exact absurd hblank (by decide)

theorem map_trimEnd_fencedLines (h : LaidOut code) :
    (fencedLines code).map Chars.trimEnd = fencedLines code :=
  (List.map_congr_left fun line hline => (h.fencedLines line hline).2).trans (List.map_id _)

theorem join_fencedLines (code : List Char) :
    Chars.join ['\n'] (fencedLines code) = '\n' :: fencedCode code := by
  have hconcat := Chars.join_concat ['\n'] ([] :: fence :: Chars.splitOn '\n' code) fence
  rw [List.cons_append, List.cons_append, ← fencedLines] at hconcat
  rw [hconcat]
  simp [fencedCode, flatMap_splitOn]

theorem trim_fencedCode (code : List Char) :
    Chars.trim ('\n' :: fencedCode code) = fencedCode code := by
  have hfeed : ∀ c ∈ ['\n'], Text.isBlank c = true := List.forall_mem_singleton.2 (by decide)
  have htrim := Chars.trim_append_of_blank hfeed (List.forall_mem_nil _) (fencedCode code)
  rw [List.append_nil, List.singleton_append] at htrim
  rw [htrim, Chars.trim_eq_self_iff]
  refine ⟨?_, ?_⟩
  · rintro _ ⟨rfl⟩
    decide
  · intro c hc
    have hlast : (fencedCode code).getLast? = some '\x60' := by
      have hsplit : fencedCode code = (fence ++ '\n' :: (code ++ ['\n'])) ++ fence := by
        simp [fencedCode]
      have hfence : fence.getLast? = some '\x60' := by decide
      rw [hsplit, List.getLast?_append, hfence]
      rfl
    rw [hlast] at hc
    cases hc
    decide

/-- **Fenced code is tidy already.** -/
theorem tidy_fencedCode (h : LaidOut code) :
    tidy ('\n' :: (fencedCode code ++ ['\n'])) = fencedCode code := by
  have hruns : blankRun.allMatches ('\n' :: fencedCode code) = [] := by
    refine Pattern.allMatches_eq_nil fun front c back hsplit before => ?_
    refine matchAt_blankRun_eq_none fun after heq => ?_
    exact fencedCode_ne_append h front after (by rw [hsplit, ← heq])
  rw [tidy, lines_fencedCode h, map_trimEnd_fencedLines h, join_fencedLines,
    replace_of_allMatches_eq_nil hruns, trim_fencedCode]

/-! ### Code that is preserved -/

/-- **Code in which nothing is found**: no event attribute, no tag and no reference. -/
structure Inert (code : List Char) : Prop where
  handlers : Quiet code
  tags : TagFree code
  references : ReferenceFree code

/-- **Which code the conversion preserves**: code that is laid out, and in which neither the
clean-up nor the search for tags nor the second reading of references finds anything. -/
theorem toMarkdown_code (hlaid : LaidOut code) (hinert : Inert code) :
    toMarkdown (codeSource code) = fencedCode code := by
  have hsplit : '\n' :: (fencedCode code ++ ['\n']) =
      ('\n' :: (fence ++ ['\n'])) ++ (code ++ '\n' :: (fence ++ ['\n'])) := by
    simp [fencedCode]
  have htags : TagFree ('\n' :: (fencedCode code ++ ['\n'])) := by
    rw [hsplit]
    exact hinert.tags.append (by decide) (by decide)
  have hreferences : ReferenceFree ('\n' :: (fencedCode code ++ ['\n'])) := by
    rw [hsplit]
    exact hinert.references.append (by decide) (by decide)
  calc toMarkdown (codeSource code)
      = tidy (decode (markUp (codeSource code))) := by
        rw [toMarkdown, clean_codeSource hinert.handlers]
    _ = tidy (decode ('\n' :: (fencedCode code ++ ['\n']))) := by
        rw [markUp_eq (replace_preformatted hlaid) htags]
    _ = tidy ('\n' :: (fencedCode code ++ ['\n'])) := by rw [hreferences.decode_eq]
    _ = fencedCode code := tidy_fencedCode hlaid

/-- A loop with a comparison. -/
def comparingLoop : List Char :=
  "while a < b && c:\n    step(a)\n\n    wait()".toList

theorem toMarkdown_code_comparingLoop :
    toMarkdown (codeSource comparingLoop) = fencedCode comparingLoop := by
  have hlaid : LaidOut comparingLoop := by
    constructor <;> decide +kernel
  have hinert : Inert comparingLoop :=
    ⟨quiet_of_notMem (by decide), tagFree_of_notMem (by decide), by decide +kernel⟩
  exact toMarkdown_code hlaid hinert

/-- **Code that the conversion does not preserve**: its type argument is dropped as a tag. -/
theorem toMarkdown_loses_code :
    let code := "let v: Vec<u8> = x;".toList
    LaidOut code ∧ codeSource code = "<pre><code>let v: Vec&lt;u8&gt; = x;</code></pre>".toList ∧
      toMarkdown (codeSource code) = fencedCode "let v: Vec = x;".toList := by
  refine ⟨?_, by decide +kernel, by decide +kernel⟩
  constructor <;> decide +kernel

end Syndication.Markup.Html
