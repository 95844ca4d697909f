import Syndication.Proofs.Markup.EventAttribute

/-!
# Text between tags

HTML in which every angle bracket opens a tag reads as a page: text, then tags with a text behind
each. The clean-up looks for event attributes in all of it. It keeps to the tags as long as no text
reads like an event attribute and no event attribute in a tag has a value that the end of the tag
interrupts; then the text between the tags stays as it is. Otherwise text is lost: a sentence with
a word like `only` before an equals sign is enough.

Main statements:

* `Page.existsUnique_source_iff`: which HTML reads as a page; it does so in one way.
* `Page.delete_source`: event attributes are deleted within the tags.
* `clean_keeps_text`: what the clean-up leaves of a page.
* `clean_loses_text`: a page that loses a part of its text.
-/

namespace Syndication.Markup

open Pattern

/-! ### Pages -/

/-- A text between tags. -/
@[ext]
structure Prose where
  chars : List Char
  plain : '<' ∉ chars

/-- A tag, by what stands between its angle brackets. -/
@[ext]
structure Tag where
  inside : List Char
  closes : '>' ∉ inside

/-- The HTML of a tag. -/
def Tag.source (tag : Tag) : List Char :=
  '<' :: (tag.inside ++ ['>'])

/-- HTML as a text, and tags with a text behind each. -/
@[ext]
structure Page where
  /-- The text before the first tag. -/
  first : Prose
  rest : List (Tag × Prose)

/-- The HTML of tags with a text behind each. -/
def sourceOfTags (rest : List (Tag × Prose)) : List Char :=
  rest.flatMap fun part => part.1.source ++ part.2.chars

/-- The HTML of a page. -/
def Page.source (page : Page) : List Char :=
  page.first.chars ++ sourceOfTags page.rest

/-- The texts between the tags of a page. -/
def Page.texts (page : Page) : List Prose :=
  page.first :: page.rest.map Prod.snd

/-- **Every angle bracket opens a tag that is closed.** -/
def ClosesTags (html : List Char) : Prop :=
  ∀ before after, html = before ++ '<' :: after → '>' ∈ after

variable {html inside rest : List Char}

theorem sourceOfTags_cons (tag : Tag) (prose : Prose) (rest : List (Tag × Prose)) :
    sourceOfTags ((tag, prose) :: rest) =
      '<' :: (tag.inside ++ '>' :: (prose.chars ++ sourceOfTags rest)) := by
  simp [sourceOfTags, Tag.source]

/-- Behind a text there is nothing or a tag. -/
theorem sourceOfTags_cases (rest : List (Tag × Prose)) :
    sourceOfTags rest = [] ∨ ∃ after, sourceOfTags rest = '<' :: after := by
  cases rest with
  | nil => exact .inl rfl
  | cons part rest => exact .inr ⟨_, sourceOfTags_cons part.1 part.2 rest⟩

theorem closesTags_append {prose : List Char} (hprose : '<' ∉ prose) :
    ClosesTags (prose ++ rest) ↔ ClosesTags rest := by
  constructor
  · rintro h before after rfl
    exact h (prose ++ before) after (by rw [List.append_assoc])
  · intro h before after hsplit
    obtain ⟨middle, -, hrest⟩ := exists_append_of_notMem hsplit hprose
    exact h middle after hrest

theorem closesTags_tag : ClosesTags ('<' :: (inside ++ '>' :: rest)) ↔ ClosesTags rest := by
  constructor
  · rintro h before after rfl
    exact h ('<' :: (inside ++ '>' :: before)) after (by simp)
  · intro h before after hsplit
    cases before with
    | nil =>
      obtain ⟨-, rfl⟩ := List.cons.inj hsplit
      simp
    | cons c before =>
      obtain ⟨-, hinside⟩ := List.cons.inj hsplit
      rcases List.append_eq_append_iff.1 hinside with ⟨middle, -, hrest⟩ | ⟨middle, -, hrest⟩
      · cases middle with
        | nil => cases (List.cons.inj hrest).1
        | cons d middle => exact h middle after (List.cons.inj hrest).2
      · cases middle with
        | nil => cases (List.cons.inj hrest).1
        | cons d middle =>
          -- the angle bracket stands within the tag, whose end is still to come
          obtain ⟨-, rfl⟩ := List.cons.inj hrest
          simp

theorem Page.closesTags_source (page : Page) : ClosesTags page.source := by
  obtain ⟨first, rest⟩ := page
  rw [source, closesTags_append first.plain]
  induction rest with
  | nil => rintro before after h; simp [sourceOfTags] at h
  | cons part rest ih =>
    rw [sourceOfTags_cons, closesTags_tag, closesTags_append part.2.plain]
    exact ih

theorem Page.exists_source (h : ClosesTags html) : ∃ page : Page, page.source = html := by
  induction hlength : html.length using Nat.strongRecOn generalizing html with
  | ind n ih =>
    by_cases hlt : '<' ∈ html
    · obtain ⟨text, after, rfl, htext⟩ := List.eq_append_cons_of_mem hlt
      obtain ⟨inside, rest, rfl, hinside⟩ := List.eq_append_cons_of_mem (h text after rfl)
      rw [closesTags_append htext, closesTags_tag] at h
      obtain ⟨page, rfl⟩ := ih rest.length (by simp at hlength; omega) h rfl
      refine ⟨⟨⟨text, htext⟩, (⟨inside, hinside⟩, page.first) :: page.rest⟩, ?_⟩
      rw [source, sourceOfTags_cons]
      rfl
    · exact ⟨⟨⟨html, hlt⟩, []⟩, List.append_nil html⟩

theorem Page.source_injective {page page' : Page} (h : page.source = page'.source) :
    page = page' := by
  obtain ⟨first, rest⟩ := page
  obtain ⟨first', rest'⟩ := page'
  simp only [source] at h
  induction rest generalizing first first' rest' with
  | nil =>
    cases rest' with
    | nil =>
      have hfirst : first = first' := Prose.ext (by simpa [sourceOfTags] using h)
      rw [hfirst]
    | cons part rest' =>
      rw [sourceOfTags_cons] at h
      refine absurd ?_ first.plain
      have hchars : first.chars = _ := (List.append_nil _).symm.trans h
      rw [hchars]
      simp
  | cons part rest ih =>
    cases rest' with
    | nil =>
      rw [sourceOfTags_cons] at h
      refine absurd ?_ first'.plain
      have hchars : first'.chars = _ := (List.append_nil _).symm.trans h.symm
      rw [hchars]
      simp
    | cons part' rest' =>
      rw [sourceOfTags_cons, sourceOfTags_cons] at h
      obtain ⟨hfirst, htags⟩ := append_cons_inj first.plain first'.plain h
      obtain ⟨hinside, hrest⟩ := append_cons_inj part.1.closes part'.1.closes htags
      have htail := ih part.2 part'.2 rest' hrest
      simp only [Page.mk.injEq] at htail ⊢
      exact ⟨Prose.ext hfirst, List.cons_eq_cons.2
        ⟨Prod.ext (Tag.ext hinside) htail.1, htail.2⟩⟩

/-- **Which HTML reads as a page**: that in which every angle bracket opens a tag. It does so in
one way. -/
theorem Page.existsUnique_source_iff : (∃! page : Page, page.source = html) ↔ ClosesTags html := by
  constructor
  · rintro ⟨page, rfl, -⟩
    exact page.closesTags_source
  · intro h
    obtain ⟨page, rfl⟩ := exists_source h
    exact ⟨page, rfl, fun page' => source_injective⟩

/-! ### Event attributes within tags -/

/-- **A tag closes the values of its event attributes**: the quotation mark with which one begins
occurs again. -/
def ClosesQuotes (inside : List Char) : Prop :=
  ∀ left head gap mark right, inside = left ++ (head ++ (gap ++ mark :: right)) →
    AttributeHead head → (∀ c ∈ gap, Text.isBlank c = true) → IsQuotationMark mark → mark ∈ right

/-- **Event attributes keep to the tags of a page.** -/
structure Page.IsQuiet (page : Page) : Prop where
  texts : ∀ prose ∈ page.texts, Quiet prose.chars
  tags : ∀ part ∈ page.rest, ClosesQuotes part.1.inside

theorem mem_of_mem_delete {pattern : Pattern} {c : Char} {text : List Char}
    (h : c ∈ pattern.delete text) : c ∈ text := by
  rw [delete_eq, List.mem_flatMap] at h
  obtain ⟨piece, hmem, hc⟩ := h
  cases piece with
  | hit m => cases hc
  | plain d =>
    obtain rfl : c = d := by simpa using hc
    have htext := flatMap_text_scan pattern text
    rw [← htext]
    exact List.mem_flatMap.2 ⟨.plain c, hmem, by simp [Piece.text]⟩

/-- A tag without its event attributes. -/
def Tag.withoutHandlers (tag : Tag) : Tag where
  inside := eventAttribute.delete tag.inside
  closes h := tag.closes (mem_of_mem_delete h)

/-- A page whose tags have no event attributes. -/
def Page.withoutHandlers (page : Page) : Page where
  first := page.first
  rest := page.rest.map fun part => (part.1.withoutHandlers, part.2)

theorem lt_notMem_head {head : List Char} (h : AttributeHead head) : '<' ∉ head :=
  h.notMem (by decide) (by decide) (by decide)

theorem gt_notMem_head {head : List Char} (h : AttributeHead head) : '>' ∉ head :=
  h.notMem (by decide) (by decide) (by decide)

theorem not_begins_of_not_blank {c : Char} (h : Text.isBlank c = false) :
    ¬ BeginsAttribute (c :: rest) := by
  rintro ⟨head, gap, d, after, heq, hhead, -, -⟩
  obtain ⟨e, name, rfl, he⟩ := hhead.exists_between
  obtain ⟨rfl, -⟩ := List.cons.inj heq
  rw [h] at he
  cases he

/-- A character that is no blank stays when the search comes to it. -/
theorem delete_cons_of_not_blank {c : Char} (h : Text.isBlank c = false) :
    eventAttribute.delete (c :: rest) = c :: eventAttribute.delete rest :=
  unanchored_eventAttribute.replace_cons
    (matchAt_eventAttribute_eq_none_iff.2 (not_begins_of_not_blank h))

/-- A text stays as it is when no event attribute begins in it. -/
theorem Prose.delete_append {prose : Prose} (h : Quiet prose.chars)
    (hrest : rest = [] ∨ ∃ after, rest = '<' :: after) :
    eventAttribute.delete (prose.chars ++ rest) = prose.chars ++ eventAttribute.delete rest := by
  refine unanchored_eventAttribute.replace_append_of_none fun front c back hchars => ?_
  rw [matchAt_eventAttribute_eq_none_iff]
  rintro ⟨head, gap, d, after, heq, hhead, -, -⟩
  rcases hrest with rfl | ⟨after', rfl⟩
  · rw [List.append_nil] at heq
    exact h front head _ (by rw [hchars, heq]) hhead
  · -- the beginning of the attribute would lie before the tag
    have hsplit : head ++ (gap ++ d :: after) = (c :: back) ++ '<' :: after' := heq.symm
    obtain ⟨middle, hmiddle, -⟩ := exists_append_of_notMem hsplit (lt_notMem_head hhead)
    exact h front head middle (by rw [hchars, hmiddle]) hhead

theorem ClosesQuotes.of_append {left right : List Char} (h : ClosesQuotes (left ++ right)) :
    ClosesQuotes right := fun left' head gap mark right' hright =>
  h (left ++ left') head gap mark right' (by rw [hright, List.append_assoc])

/-- An event attribute in a tag is one also when the tag goes on. -/
theorem IsAttribute.of_closesQuotes {text : List Char} (h : IsAttribute text inside)
    (hquotes : ClosesQuotes (text ++ inside)) : IsAttribute text (inside ++ '>' :: rest) := by
  obtain ⟨head, gap, value, rfl, hhead, hgap, hvalue⟩ := h
  refine ⟨head, gap, value, rfl, hhead, hgap, ?_⟩
  cases hvalue with
  | quoted hmark hvalue => exact .quoted hmark hvalue
  | @bare c value _ hvalue hrest hquote =>
    refine .bare hvalue ?_ fun hmark => ?_
    · cases inside with
      | nil =>
        rintro _ ⟨rfl⟩
        rfl
      | cons d inside => exact hrest
    · have hclosed := hquotes [] head gap c (value ++ inside) (by simp) hhead hgap hmark
      exact absurd hclosed (hquote hmark)

/-- No event attribute crosses the end of a tag from a place where none begins. -/
theorem not_begins_append (h : ¬ BeginsAttribute inside) :
    ¬ BeginsAttribute (inside ++ '>' :: rest) := by
  rintro ⟨head, gap, c, after, heq, hhead, hgap, hc⟩
  have hnot : '>' ∉ head ++ (gap ++ [c]) := by
    simp only [List.mem_append, List.mem_singleton, not_or]
    refine ⟨gt_notMem_head hhead, fun hmem => ?_, ?_⟩
    · exact ne_of_isBlank (hgap _ hmem) (by decide) rfl
    · rintro rfl
      exact absurd hc (by decide)
  have hsplit : (head ++ (gap ++ [c])) ++ after = inside ++ '>' :: rest := by
    rw [heq]
    simp
  obtain ⟨middle, rfl, -⟩ := exists_append_of_notMem hsplit hnot
  exact h ⟨head, gap, c, middle, by simp, hhead, hgap, hc⟩

/-- **Event attributes are deleted within a tag** that closes their values, whatever follows it. -/
theorem ClosesQuotes.delete_append (h : ClosesQuotes inside) :
    eventAttribute.delete (inside ++ '>' :: rest) =
      eventAttribute.delete inside ++ '>' :: eventAttribute.delete rest := by
  induction hlength : inside.length using Nat.strongRecOn generalizing inside with
  | ind n ih =>
    cases inside with
    | nil => exact delete_cons_of_not_blank (by decide)
    | cons c cs =>
      by_cases hbegins : BeginsAttribute (c :: cs)
      · obtain ⟨text, after, hsplit, hattribute⟩ := hbegins.exists_isAttribute
        rw [hsplit] at h hlength ⊢
        have hne : text ≠ [] := by
          obtain ⟨head, gap, value, rfl, hhead, -⟩ := hattribute
          obtain ⟨b, name, rfl, -⟩ := hhead.exists_between
          exact List.cons_ne_nil _ _
        have hafter := ih after.length
          (by have := List.length_pos_iff.2 hne; simp at hlength; omega) h.of_append rfl
        have hinside : eventAttribute.delete (text ++ after) = eventAttribute.delete after :=
          unanchored_eventAttribute.replace_append (matchAt_eventAttribute hattribute none) rfl hne
        have hwhole : eventAttribute.delete (text ++ (after ++ '>' :: rest)) =
            eventAttribute.delete (after ++ '>' :: rest) :=
          unanchored_eventAttribute.replace_append
            (matchAt_eventAttribute (hattribute.of_closesQuotes h) none) rfl hne
        rw [List.append_assoc, hwhole, hafter, hinside]
      · have hinside : eventAttribute.delete (c :: cs) = c :: eventAttribute.delete cs :=
          unanchored_eventAttribute.replace_cons (matchAt_eventAttribute_eq_none_iff.2 hbegins)
        have hwhole : eventAttribute.delete (c :: (cs ++ '>' :: rest)) =
            c :: eventAttribute.delete (cs ++ '>' :: rest) :=
          unanchored_eventAttribute.replace_cons
            (matchAt_eventAttribute_eq_none_iff.2 (not_begins_append hbegins))
        have hquotes : ClosesQuotes ([c] ++ cs) := h
        have hcs := ih cs.length (by simp at hlength; omega) hquotes.of_append rfl
        rw [List.cons_append, hwhole, hcs, hinside, List.cons_append]

/-- **Event attributes are deleted within the tags of a page** when they keep to them. -/
theorem Page.delete_source {page : Page} (h : page.IsQuiet) :
    eventAttribute.delete page.source = page.withoutHandlers.source := by
  obtain ⟨first, parts⟩ := page
  obtain ⟨htexts, htags⟩ := h
  simp only [source, texts, withoutHandlers] at *
  induction parts generalizing first with
  | nil => exact Prose.delete_append (htexts first List.mem_cons_self) (.inl rfl)
  | cons part parts ih =>
    obtain ⟨hfirst, hparts⟩ := List.forall_mem_cons.1 htexts
    obtain ⟨hpart, htags⟩ := List.forall_mem_cons.1 htags
    have hrest := ih part.2 (by simpa using hparts) htags
    rw [Prose.delete_append hfirst (sourceOfTags_cases _), List.map_cons]
    rw [sourceOfTags_cons, sourceOfTags_cons, delete_cons_of_not_blank (by decide),
      hpart.delete_append, hrest]
    rfl

/-! ### What the clean-up leaves -/

/-- **What the clean-up leaves of a page**: HTML without scripts, styles and comments in which every
angle bracket opens a tag, and in which event attributes keep to the tags, loses the event
attributes of its tags and the blanks at its ends. Its texts stay. -/
theorem clean_keeps_text (htags : ClosesTags html) (hscripts : scriptOrStyle.allMatches html = [])
    (hcomments : comment.allMatches html = [])
    (hquiet : ∀ page : Page, page.source = html → page.IsQuiet) :
    ∃! page : Page, page.source = html ∧ clean html = Chars.trim page.withoutHandlers.source ∧
      page.withoutHandlers.texts = page.texts := by
  obtain ⟨page, hpage, hunique⟩ := Page.existsUnique_source_iff.2 htags
  refine ⟨page, ⟨hpage, ?_, ?_⟩, fun page' h => hunique page' h.1⟩
  · have hscript : scriptOrStyle.delete html = html := delete_eq_self_iff.2 hscripts
    have hcomment : comment.delete html = html := delete_eq_self_iff.2 hcomments
    have hdelete : eventAttribute.delete html = page.withoutHandlers.source := by
      rw [← hpage, Page.delete_source (hquiet page hpage)]
    rw [clean, hscript, hcomment, hdelete]
  · simp [Page.texts, Page.withoutHandlers]

/-! ### Where event attributes keep to the tags -/

/-- A tag without an equals sign has no values to close. -/
theorem closesQuotes_of_notMem (h : '=' ∉ inside) : ClosesQuotes inside := by
  intro left head gap mark right hinside hhead
  obtain ⟨b, name, rfl, -⟩ := hhead.exists_between
  rw [hinside] at h
  simp at h

/-- A tag with one attribute, whose value is quoted, closes it. -/
theorem closesQuotes_of_quoted {name value : List Char} {mark : Char} (hname : '=' ∉ name)
    (hvalue : '=' ∉ value) (hmark : IsQuotationMark mark) :
    ClosesQuotes (name ++ '=' :: mark :: (value ++ [mark])) := by
  intro left head gap mark' right hinside hhead hgap hmark'
  obtain ⟨b, name', rfl, -⟩ := hhead.exists_between
  have hsplit : name ++ '=' :: mark :: (value ++ [mark]) =
      (left ++ b :: name') ++ '=' :: (gap ++ mark' :: right) := by
    rw [hinside]
    simp
  obtain ⟨middle, -, hmiddle⟩ := exists_append_of_notMem hsplit hname
  have hne : mark ≠ '=' := by rcases hmark with rfl | rfl <;> decide
  have hquoted : gap ++ mark' :: right = mark :: (value ++ [mark]) := by
    cases middle with
    | nil => exact (List.cons.inj hmiddle).2.symm
    | cons c middle =>
      -- there is no second equals sign
      have hmem : '=' ∈ mark :: (value ++ [mark]) := by
        rw [(List.cons.inj hmiddle).2]
        simp
      simp [hvalue, hne.symm] at hmem
  cases gap with
  | nil =>
    obtain ⟨rfl, rfl⟩ := List.cons.inj hquoted
    simp
  | cons c gap =>
    obtain ⟨rfl, -⟩ := List.cons.inj hquoted
    have hblank := hgap c List.mem_cons_self
    rcases hmark with rfl | rfl <;> cases hblank

/-- A button in a sentence. -/
def buttonPage : Page where
  first := ⟨"Press ".toList, by decide⟩
  rest := [(⟨"b onclick=\"go()\"".toList, by decide⟩, ⟨"once or twice".toList, by decide⟩),
    (⟨"/b".toList, by decide⟩, ⟨" to go.".toList, by decide⟩)]

theorem buttonPage_isQuiet : buttonPage.IsQuiet where
  texts := by
    have hplain : ∀ prose ∈ buttonPage.texts, '=' ∉ prose.chars := by decide +kernel
    exact fun prose hprose => quiet_of_notMem (hplain prose hprose)
  tags := by
    have hopening :
        ClosesQuotes ("b onclick".toList ++ '=' :: '"' :: ("go()".toList ++ ['"'])) :=
      closesQuotes_of_quoted (by decide) (by decide) (.inl rfl)
    have hclosing : ClosesQuotes "/b".toList := closesQuotes_of_notMem (by decide)
    exact List.forall_mem_cons.2
      ⟨hopening, List.forall_mem_cons.2 ⟨hclosing, List.forall_mem_nil _⟩⟩

theorem clean_keeps_text_button :
    let html := "Press <b onclick=\"go()\">once or twice</b> to go.".toList
    ∃! page : Page, page.source = html ∧ clean html = Chars.trim page.withoutHandlers.source ∧
      page.withoutHandlers.texts = page.texts := by
  have hsource : buttonPage.source =
      "Press <b onclick=\"go()\">once or twice</b> to go.".toList := by decide +kernel
  refine clean_keeps_text ?_ (by decide +kernel) (by decide +kernel) ?_
  · rw [← hsource]
    exact buttonPage.closesTags_source
  · rintro page hpage
    rw [Page.source_injective (hpage.trans hsource.symm)]
    exact buttonPage_isQuiet

/-- **A page that loses a part of its text**: every angle bracket opens a tag, and there are no
attributes at all, but the sentence reads like one. -/
theorem clean_loses_text :
    let page : Page := ⟨⟨[], by decide⟩, [(⟨"p".toList, by decide⟩,
      ⟨"Set only = true here.".toList, by decide⟩), (⟨"/p".toList, by decide⟩, ⟨[], by decide⟩)]⟩
    scriptOrStyle.allMatches page.source = [] ∧ comment.allMatches page.source = [] ∧
      page.source = "<p>Set only = true here.</p>".toList ∧
      clean page.source = "<p>Set here.</p>".toList := by
  decide +kernel

end Syndication.Markup
