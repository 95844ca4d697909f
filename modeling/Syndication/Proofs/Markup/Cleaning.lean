import Syndication.Markup.Html
import Syndication.Proofs.Markup.Joining
import Syndication.Proofs.Markup.Tags

/-!
# One pass of the clean-up

A second clean-up changes nothing just when the first one has left nothing to delete. That is so for
HTML in which scripts, styles and comments stand apart from the tags and event attributes stand
apart from what follows them: then no deletion joins the text around it into something that would
have to be deleted in turn. Without these conditions a script may come together out of its parts.

Main statements:

* `clean_eq_self_iff`: which HTML the clean-up leaves alone.
* `Document.spotless_clean`: what is left of a document whose parts stand apart.
* `clean_clean`: when one pass is enough.
* `clean_reveals_script`: a script that comes together out of its parts.
-/

namespace Syndication.Markup

open Pattern

variable {html text : List Char}

/-! ### What the clean-up leaves alone -/

/-- **Nothing is left to delete.** -/
structure Spotless (html : List Char) : Prop where
  scripts : scriptOrStyle.allMatches html = []
  comments : comment.allMatches html = []
  handlers : eventAttribute.allMatches html = []

theorem Spotless.clean_eq (h : Spotless html) : clean html = Chars.trim html := by
  have hscripts : scriptOrStyle.delete html = html := delete_eq_self_iff.2 h.scripts
  have hcomments : comment.delete html = html := delete_eq_self_iff.2 h.comments
  have hhandlers : eventAttribute.delete html = html := delete_eq_self_iff.2 h.handlers
  rw [clean, hscripts, hcomments, hhandlers]

theorem length_trim_le (cs : List Char) : (Chars.trim cs).length ≤ cs.length := by
  obtain ⟨before, after, -, -, hcs⟩ := Chars.exists_append_trim cs
  have hlength := congrArg List.length hcs
  simp only [List.length_append] at hlength
  omega

/-- A deletion that makes nothing shorter changes nothing. -/
theorem allMatches_eq_nil_of_length_le {pattern : Pattern}
    (h : text.length ≤ (pattern.delete text).length) : pattern.allMatches text = [] := by
  by_contra hne
  exact Nat.lt_irrefl _ (Nat.lt_of_lt_of_le (length_delete_lt hne) h)

/-- Each step of the clean-up makes its text shorter or leaves it alone, so none changes what all of
them together leave alone. -/
theorem spotless_of_clean_eq_self (h : clean html = html) : Spotless html := by
  have hlength : html.length ≤
      (eventAttribute.delete (comment.delete (scriptOrStyle.delete html))).length :=
    calc html.length
        = (clean html).length := by rw [h]
      _ ≤ _ := length_trim_le _
  have hscript := length_delete_le scriptOrStyle html
  have hcomment := length_delete_le comment (scriptOrStyle.delete html)
  have hevent := length_delete_le eventAttribute (comment.delete (scriptOrStyle.delete html))
  have hscripts : scriptOrStyle.allMatches html = [] :=
    allMatches_eq_nil_of_length_le (by omega)
  have hscripts' : scriptOrStyle.delete html = html := delete_eq_self_iff.2 hscripts
  rw [hscripts'] at hlength hcomment hevent
  have hcomments : comment.allMatches html = [] := allMatches_eq_nil_of_length_le (by omega)
  have hcomments' : comment.delete html = html := delete_eq_self_iff.2 hcomments
  rw [hcomments'] at hlength
  exact ⟨hscripts, hcomments, allMatches_eq_nil_of_length_le hlength⟩

/-- **Which HTML the clean-up leaves alone.** -/
theorem clean_eq_self_iff : clean html = html ↔ Spotless html ∧ Chars.trim html = html := by
  constructor
  · intro h
    have hspotless := spotless_of_clean_eq_self h
    exact ⟨hspotless, by rw [← hspotless.clean_eq, h]⟩
  · rintro ⟨hspotless, htrim⟩
    rw [hspotless.clean_eq, htrim]

/-! ### Blanks at the ends -/

theorem OpensNone.trim (h : OpensNone text) : OpensNone (Chars.trim text) := by
  obtain ⟨start, stop, -, hstop, htext⟩ := Chars.exists_append_trim text
  rintro before _ htrim ⟨name, rest, rfl, hname, hrest⟩
  rw [htrim] at htext
  refine h (start ++ before) (name ++ rest ++ stop) (by rw [htext]; simp)
    ⟨name, rest ++ stop, by rw [List.append_assoc], hname, fun c hc => ?_⟩
  cases rest with
  | nil => exact isWordCharacter_eq_false_of_isBlank (hstop c (List.mem_of_mem_head? hc))
  | cons d rest => exact hrest c hc

theorem CommentsNone.trim (h : CommentsNone text) : CommentsNone (Chars.trim text) := by
  obtain ⟨start, stop, -, -, htext⟩ := Chars.exists_append_trim text
  intro before after htrim
  rw [htrim] at htext
  exact h (start ++ before) (after ++ stop) (by rw [htext]; simp)

theorem HandlesNone.trim (h : HandlesNone text) : HandlesNone (Chars.trim text) := by
  obtain ⟨start, stop, -, -, htext⟩ := Chars.exists_append_trim text
  rintro before _ htrim ⟨head, gap, c, rest, rfl, hhead, hgap, hc⟩
  rw [htrim] at htext
  refine h (start ++ before) (head ++ (gap ++ c :: (rest ++ stop))) ?_
    ⟨head, gap, c, rest ++ stop, rfl, hhead, hgap, hc⟩
  rw [htext]
  simp

theorem spotless_of_none (hopens : OpensNone text) (hcomments : CommentsNone text)
    (hhandles : HandlesNone text) : Spotless text :=
  ⟨allMatches_scriptOrStyle hopens, allMatches_comment hcomments,
    allMatches_eventAttribute hhandles⟩

/-! ### Documents -/

/-- A text in which no script and no style is opened. -/
structure Passage where
  chars : List Char
  opensNone : OpensNone chars

/-- A script or a style. -/
structure Element where
  chars : List Char
  isElement : IsElement chars

/-- A text, and scripts and styles with a text behind each. -/
structure Scripted where
  first : Passage
  rest : List (Element × Passage)

/-- The HTML with its scripts and styles. -/
def Scripted.source (scripted : Scripted) : List Char :=
  scripted.first.chars ++ scripted.rest.flatMap fun part => part.1.chars ++ part.2.chars

/-- The HTML without its scripts and styles. -/
def Scripted.kept (scripted : Scripted) : List Char :=
  scripted.first.chars ++ scripted.rest.flatMap fun part => part.2.chars

/-- A tag that opens no script, no style and no comment. -/
structure PlainTag extends Tag where
  single : '<' ∉ inside
  notElement : ¬ OpensElement inside
  notComment : ∀ after, inside ≠ '!' :: '-' :: '-' :: after

/-- A part of HTML without scripts and styles. -/
inductive Fragment where
  | prose (prose : Prose)
  | tag (tag : PlainTag)
  | comment (chars : List Char) (isComment : IsComment chars)

/-- The HTML of a fragment. -/
def Fragment.source : Fragment → List Char
  | .prose p => p.chars
  | .tag t => t.source
  | .comment chars _ => chars

/-- The HTML of a fragment when comments are left out. -/
def Fragment.kept : Fragment → List Char
  | .prose p => p.chars
  | .tag t => t.source
  | .comment _ _ => []

/-- **A document**: scripts and styles in HTML that consists of text, tags and comments. -/
structure Document where
  scripted : Scripted
  fragments : List Fragment
  agree : scripted.kept = fragments.flatMap Fragment.source

/-- The HTML of a document. -/
def Document.source (doc : Document) : List Char :=
  doc.scripted.source

/-- The text and the tags of a document. -/
def Document.kept (doc : Document) : List Char :=
  doc.fragments.flatMap Fragment.kept

/-! ### Scripts, styles and comments of a document -/

theorem IsElement.exists_cons {cs : List Char} (h : IsElement cs) :
    ∃ after, cs = '<' :: after := by
  cases h
  exact ⟨_, rfl⟩

/-- A text stays in front of a script. -/
theorem Passage.delete_append (passage : Passage) {rest : List Char}
    (hrest : rest = [] ∨ ∃ after, rest = '<' :: after) :
    scriptOrStyle.delete (passage.chars ++ rest) = passage.chars ++ scriptOrStyle.delete rest := by
  refine unanchored_scriptOrStyle.replace_append_of_none fun front c back hchars => ?_
  refine matchAt_scriptOrStyle_eq_none ?_
  rintro rfl hopens
  rcases hrest with rfl | ⟨after, rfl⟩
  · rw [List.append_nil] at hopens
    exact passage.opensNone front back hchars hopens
  · exact passage.opensNone front back hchars (hopens.of_append (by decide))

/-- **Scripts and styles are deleted**, and nothing else. -/
theorem Scripted.delete_source (scripted : Scripted) :
    scriptOrStyle.delete scripted.source = scripted.kept := by
  obtain ⟨first, parts⟩ := scripted
  simp only [source, kept]
  induction parts generalizing first with
  | nil => exact first.delete_append (.inl rfl)
  | cons part parts ih =>
    obtain ⟨after, hafter⟩ := part.1.isElement.exists_cons
    have hne : part.1.chars ≠ [] := by
      rw [hafter]
      exact List.cons_ne_nil _ _
    have hdelete (rest : List Char) :
        scriptOrStyle.delete (part.1.chars ++ rest) = scriptOrStyle.delete rest :=
      unanchored_scriptOrStyle.replace_append (matchAt_scriptOrStyle part.1.isElement none) rfl hne
    rw [List.flatMap_cons, first.delete_append (.inr ⟨_, by rw [hafter]; rfl⟩), List.append_assoc,
      hdelete, ih part.2, List.flatMap_cons]

theorem matchAt_comment_eq_none_of_ne {c : Char} (h : c ≠ '<') {cs : List Char} :
    comment.matchAt ⟨none, c :: cs⟩ = none :=
  matchAt_comment_eq_none fun _ heq => h (List.cons.inj heq).1

theorem PlainTag.ne_comment (tag : PlainTag) (rest after : List Char) :
    tag.inside ++ '>' :: rest ≠ '!' :: '-' :: '-' :: after := by
  intro h
  have hsplit : ['!', '-', '-'] ++ after = tag.inside ++ '>' :: rest := h.symm
  obtain ⟨middle, hinside, -⟩ := exists_append_of_notMem hsplit (by decide)
  exact tag.notComment middle hinside

theorem IsComment.ne_nil {cs : List Char} (h : IsComment cs) : cs ≠ [] := by
  cases h
  exact List.cons_ne_nil _ _

/-- A fragment is deleted when it is a comment, and stays otherwise. -/
theorem delete_fragment_append (fragment : Fragment) (rest : List Char) :
    comment.delete (fragment.source ++ rest) = fragment.kept ++ comment.delete rest := by
  cases fragment with
  | prose p =>
    refine unanchored_comment.replace_append_of_none fun front c back hchars => ?_
    refine matchAt_comment_eq_none_of_ne ?_
    rintro rfl
    have hchars : p.chars = front ++ '<' :: back := hchars
    exact p.plain (by rw [hchars]; simp)
  | tag t =>
    have hstart : comment.matchAt ⟨none, '<' :: (t.inside ++ '>' :: rest)⟩ = none :=
      matchAt_comment_eq_none fun after heq => t.ne_comment rest after (List.cons.inj heq).2
    have hinside : comment.delete ((t.inside ++ ['>']) ++ rest) =
        (t.inside ++ ['>']) ++ comment.delete rest := by
      refine unanchored_comment.replace_append_of_none fun front c back hchars => ?_
      refine matchAt_comment_eq_none_of_ne ?_
      rintro rfl
      have hmem : '<' ∈ t.inside ++ ['>'] := by
        rw [hchars]
        simp
      exact t.single (by simpa using hmem)
    have hsplit : (Fragment.tag t).source ++ rest = '<' :: (t.inside ++ '>' :: rest) := by
      simp [Fragment.source, Tag.source]
    have hwhole : comment.delete ('<' :: (t.inside ++ '>' :: rest)) =
        '<' :: comment.delete (t.inside ++ '>' :: rest) :=
      unanchored_comment.replace_cons hstart
    rw [List.append_assoc] at hinside
    rw [hsplit, hwhole]
    exact congrArg ('<' :: ·) hinside
  | comment chars isComment =>
    exact unanchored_comment.replace_append (matchAt_comment isComment none) rfl isComment.ne_nil

/-- **Comments are deleted**, and nothing else. -/
theorem delete_fragments (fragments : List Fragment) :
    comment.delete (fragments.flatMap Fragment.source) = fragments.flatMap Fragment.kept := by
  induction fragments with
  | nil => rfl
  | cons fragment fragments ih =>
    rw [List.flatMap_cons, List.flatMap_cons, delete_fragment_append, ih]

/-- Each angle bracket in the text and the tags of a document begins a tag. -/
theorem exists_tag_of_lt {fragments : List Fragment} {before after : List Char}
    (h : fragments.flatMap Fragment.kept = before ++ '<' :: after) :
    ∃ (tag : PlainTag) (rest : List Char), after = tag.inside ++ '>' :: rest := by
  induction fragments generalizing before with
  | nil => exact absurd h (by simp)
  | cons fragment fragments ih =>
    rw [List.flatMap_cons] at h
    cases fragment with
    | prose p =>
      obtain ⟨middle, -, hrest⟩ := exists_append_of_notMem h p.plain
      exact ih hrest
    | tag t =>
      have hsplit : '<' :: ((t.inside ++ ['>']) ++ fragments.flatMap Fragment.kept) =
          before ++ '<' :: after := h
      cases before with
      | nil =>
        obtain ⟨-, hafter⟩ := List.cons.inj hsplit
        exact ⟨t, fragments.flatMap Fragment.kept, by rw [← hafter]; simp⟩
      | cons c before =>
        obtain ⟨middle, -, hrest⟩ := exists_append_of_notMem (List.cons.inj hsplit).2
          (by simpa using t.single)
        exact ih hrest
    | comment chars isComment => exact ih h

theorem opensNone_kept (fragments : List Fragment) :
    OpensNone (fragments.flatMap Fragment.kept) := by
  intro before after h hopens
  obtain ⟨tag, rest, rfl⟩ := exists_tag_of_lt h
  exact tag.notElement (hopens.of_append (by decide))

theorem commentsNone_kept (fragments : List Fragment) :
    CommentsNone (fragments.flatMap Fragment.kept) := by
  intro before after h
  obtain ⟨tag, rest, hafter⟩ := exists_tag_of_lt h
  exact tag.ne_comment rest after hafter.symm

/-- **What the clean-up makes of a document**: its text and its tags without event attributes. -/
theorem Document.clean_source (doc : Document) :
    clean doc.source = Chars.trim (eventAttribute.delete doc.kept) := by
  have hkept : comment.delete (scriptOrStyle.delete doc.source) = doc.kept :=
    calc comment.delete (scriptOrStyle.delete doc.source)
        = comment.delete doc.scripted.kept := by rw [source, doc.scripted.delete_source]
      _ = comment.delete (doc.fragments.flatMap Fragment.source) := by rw [doc.agree]
      _ = doc.kept := delete_fragments doc.fragments
  rw [clean, hkept]

/-- **Nothing is left to delete of a document** whose event attributes stand apart. -/
theorem Document.spotless_clean (doc : Document) (h : HandlersApart doc.kept) :
    Spotless (clean doc.source) := by
  have hopens := opensNone_delete h (opensNone_kept doc.fragments)
  have hcomments := commentsNone_delete h (commentsNone_kept doc.fragments)
  rw [doc.clean_source]
  exact spotless_of_none hopens.trim hcomments.trim (handlesNone_delete h).trim

/-- **When one pass is enough.** A second pass changes nothing just when the first one has left
nothing to delete. That is so for a document whose event attributes stand apart, whose conversion
to Markdown then finds nothing to clean up either. -/
theorem clean_clean (html : List Char) :
    (clean (clean html) = clean html ↔ Spotless (clean html)) ∧
      ∀ doc : Document, doc.source = html → HandlersApart doc.kept →
        clean html = Chars.trim (eventAttribute.delete doc.kept) ∧
          Spotless (clean html) ∧ clean (clean html) = clean html ∧
            Html.toMarkdown (clean html) =
              Html.tidy (Entity.decode (Html.markUp (clean html))) := by
  have hiff : clean (clean html) = clean html ↔ Spotless (clean html) := by
    rw [clean_eq_self_iff, and_iff_left]
    exact Chars.trim_trim _
  refine ⟨hiff, ?_⟩
  rintro doc rfl hapart
  have hspotless := doc.spotless_clean hapart
  have hclean := hiff.2 hspotless
  refine ⟨doc.clean_source, hspotless, hclean, ?_⟩
  rw [Html.toMarkdown, hclean]

/-- A paragraph with a handler, a script and a comment. -/
def paragraph : Document where
  scripted :=
    { first := ⟨"<p onclick='go()'>One <em>two</em>".toList, by decide +kernel⟩
      rest := [(⟨_, isElement_of_notMem "script".toList "go()".toList (by decide) (by decide)⟩,
        ⟨" three<!-- four --></p>".toList, by decide +kernel⟩)] }
  fragments :=
    [.tag ⟨⟨"p onclick='go()'".toList, by decide⟩, by decide, by decide +kernel, by simp⟩,
      .prose ⟨"One ".toList, by decide⟩,
      .tag ⟨⟨"em".toList, by decide⟩, by decide, by decide +kernel, by simp⟩,
      .prose ⟨"two".toList, by decide⟩,
      .tag ⟨⟨"/em".toList, by decide⟩, by decide, by decide +kernel, by simp⟩,
      .prose ⟨" three".toList, by decide⟩,
      .comment _ (isComment_of_notMem " four ".toList (by decide)),
      .tag ⟨⟨"/p".toList, by decide⟩, by decide, by decide +kernel, by simp⟩]
  agree := by decide +kernel

theorem paragraph_handlersApart : HandlersApart paragraph.kept := by
  have hstops : ∀ m ∈ eventAttribute.allMatches paragraph.kept, m.whole.stop.head? = some '>' := by
    decide +kernel
  intro m hm
  obtain ⟨rest, hrest⟩ := List.head?_eq_some_iff.1 (hstops m hm)
  rw [hrest]
  exact setApart_gt rest

theorem clean_clean_paragraph :
    let html :=
      "<p onclick='go()'>One <em>two</em><script>go()</script> three<!-- four --></p>".toList
    Spotless (clean html) ∧ clean (clean html) = clean html := by
  have hsource : paragraph.source =
      "<p onclick='go()'>One <em>two</em><script>go()</script> three<!-- four --></p>".toList := by
    decide +kernel
  obtain ⟨-, hspotless, hclean, -⟩ :=
    (clean_clean _).2 paragraph hsource paragraph_handlersApart
  exact ⟨hspotless, hclean⟩

/-- **A script that comes together out of its parts**: a comment within its name hides it from the
first pass, which deletes the comment. -/
theorem clean_reveals_script :
    let html := "<scr<!-- -->ipt>alert(1)</script>".toList
    clean html = "<script>alert(1)</script>".toList ∧ clean (clean html) ≠ clean html := by
  decide +kernel

end Syndication.Markup
