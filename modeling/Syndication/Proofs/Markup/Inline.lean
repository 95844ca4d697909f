import Syndication.Proofs.Markup.Marks

/-!
# Tags within a line

The markup of a line makes tags of its own, for code, images, links and emphasis. It makes no
others, and it never cuts one in two: the text of a line is written without angle brackets, the
marks of Markdown do not occur in the tags, and what stands between two marks is moved as a whole.
So however the replacements of a line meet, no line opens or closes a block.

Main statements:

* `Marked.replace`: a replacement that puts in whole tags keeps whole the tags that are there.
* `marked_inline`: in the markup of a line every angle bracket opens one of its tags.
-/

namespace Syndication.Markup.Markdown

open Pattern

variable {html before after : List Char} {m : Match} {pattern : Pattern}

/-- What follows the angle bracket of the tags within a line. The tags of images and links go on
with an address. -/
def inlineTags : List (List Char) :=
  ["code>", "/code>", "img src=\"", "a href=\"", "/a>", "strong>", "/strong>", "em>",
    "/em>"].map String.toList

/-- **In this HTML every angle bracket opens a tag that stands within a line.** -/
def Marked (html : List Char) : Prop :=
  ∀ before after, html = before ++ '<' :: after → ∃ tag ∈ inlineTags, tag <+: after

/-- The characters that mark something up within a line. -/
def isMark (c : Char) : Bool :=
  ['\x60', '!', '[', ']', '(', ')', '*'].contains c

theorem isMark_eq_false {tag : List Char} (h : tag ∈ inlineTags) :
    ∀ c ∈ tag, isMark c = false := by
  have hall : ∀ tag ∈ inlineTags, tag.any isMark = false := by decide
  intro c hc
  exact Bool.eq_false_iff.2 (List.any_eq_false.1 (hall tag h) c hc)

theorem lt_notMem {tag : List Char} (h : tag ∈ inlineTags) : '<' ∉ tag := by
  revert tag
  decide

namespace Marked

theorem of_notMem (h : '<' ∉ html) : Marked html := by
  rintro before after rfl
  exact absurd (by simp) h

theorem nil : Marked [] :=
  of_notMem List.not_mem_nil

theorem append (hbefore : Marked before) (hafter : Marked after) : Marked (before ++ after) := by
  intro left right h
  rcases List.append_eq_append_iff.1 h with ⟨middle, rfl, hmiddle⟩ | ⟨middle, rfl, hmiddle⟩
  · exact hafter middle right hmiddle
  · cases middle with
    | nil => exact hafter [] right (by simpa using hmiddle.symm)
    | cons c middle =>
      obtain ⟨rfl, rfl⟩ := List.cons.inj hmiddle
      obtain ⟨tag, htag, hstarts⟩ := hbefore left middle rfl
      exact ⟨tag, htag, hstarts.trans (List.prefix_append middle after)⟩

/-- An end of marked HTML is marked. -/
theorem right (h : Marked (before ++ after)) : Marked after := fun left right hafter =>
  h (before ++ left) right (by rw [hafter, List.append_assoc])

/-- What stands before a mark in marked HTML is marked, since no tag has a mark in it. -/
theorem left {c : Char} (h : Marked (before ++ c :: after)) (hc : isMark c = true) :
    Marked before := by
  rintro left right rfl
  obtain ⟨tag, htag, rest, hrest⟩ := h left (right ++ c :: after) (by simp)
  have hnot : c ∉ tag := fun hmem => by
    rw [isMark_eq_false htag c hmem] at hc
    cases hc
  obtain ⟨middle, hmiddle, -⟩ := exists_append_of_notMem hrest hnot
  exact ⟨tag, htag, middle, hmiddle.symm⟩

/-- A tag is marked HTML. -/
theorem tag (hhead : html.head? = some '<') (h : html.tail ∈ inlineTags) : Marked html := by
  obtain ⟨tag, rfl⟩ := List.head?_eq_some_iff.1 hhead
  intro left right heq
  cases left with
  | nil => exact ⟨tag, h, (List.cons.inj heq).2 ▸ List.prefix_refl tag⟩
  | cons c left =>
    obtain ⟨-, rfl⟩ := List.cons.inj heq
    exact absurd (by simp) (lt_notMem h)

/-- An angle bracket that opens a tag of the HTML behind it. -/
theorem cons_lt {tag : List Char} (h : tag ∈ inlineTags) (hstarts : tag <+: html)
    (hhtml : Marked html) : Marked ('<' :: html) := by
  intro left right heq
  cases left with
  | nil => exact ⟨tag, h, (List.cons.inj heq).2 ▸ hstarts⟩
  | cons c left => exact hhtml left right (List.cons.inj heq).2

end Marked

/-! ### Replacing within marked HTML -/

/-- Text without marks lies in front of every match that begins with a mark. -/
theorem prefix_flatMap_render {pieces : List Piece} {replacement : Match → List Char}
    {tag : List Char} (hpieces : ∀ m, .hit m ∈ pieces → ∃ c ∈ m.text.head?, isMark c = true)
    (htag : ∀ c ∈ tag, isMark c = false) (h : tag <+: pieces.flatMap Piece.text) :
    tag <+: pieces.flatMap (Piece.render replacement) := by
  induction tag generalizing pieces with
  | nil => exact List.nil_prefix
  | cons c tag ih =>
    obtain ⟨hc, htag⟩ := List.forall_mem_cons.1 htag
    cases pieces with
    | nil => simp at h
    | cons piece pieces =>
      cases piece with
      | plain d =>
        rw [List.flatMap_cons, Piece.text, List.singleton_append] at h
        obtain ⟨rfl, htail⟩ := List.cons_prefix_cons.1 h
        rw [List.flatMap_cons, Piece.render, List.singleton_append]
        exact List.cons_prefix_cons.2
          ⟨rfl, ih (fun m hm => hpieces m (List.mem_cons_of_mem _ hm)) htag htail⟩
      | hit m =>
        -- the match would begin with a character of the tag
        obtain ⟨d, hhead, hd⟩ := hpieces m List.mem_cons_self
        obtain ⟨ds, hds⟩ := List.head?_eq_some_iff.1 hhead
        rw [List.flatMap_cons, Piece.text, hds, List.cons_append] at h
        rw [(List.cons_prefix_cons.1 h).1, hd] at hc
        cases hc

theorem marked_flatMap_render {pieces : List Piece} {replacement : Match → List Char}
    (hpieces : ∀ m, .hit m ∈ pieces →
      (∃ c ∈ m.text.head?, isMark c = true) ∧ Marked (replacement m))
    (h : Marked (pieces.flatMap Piece.text)) :
    Marked (pieces.flatMap (Piece.render replacement)) := by
  induction pieces with
  | nil => exact .nil
  | cons piece pieces ih =>
    have hrest : ∀ m, .hit m ∈ pieces →
        (∃ c ∈ m.text.head?, isMark c = true) ∧ Marked (replacement m) :=
      fun m hm => hpieces m (List.mem_cons_of_mem _ hm)
    rw [List.flatMap_cons] at h ⊢
    have htail := ih hrest h.right
    cases piece with
    | hit m => exact (hpieces m List.mem_cons_self).2.append htail
    | plain c =>
      by_cases hc : c = '<'
      · subst hc
        obtain ⟨tag, htag, hstarts⟩ := h [] _ rfl
        exact htail.cons_lt htag (prefix_flatMap_render (fun m hm => (hrest m hm).1)
          (isMark_eq_false htag) hstarts)
      · exact (Marked.of_notMem (by simpa [Piece.render] using fun h => hc h.symm)).append htail

/-- **A replacement that puts in whole tags keeps whole the tags that are there** when what it
replaces begins with a mark. -/
theorem Marked.replace {replacement : Match → List Char}
    (hmatch : ∀ p m, pattern.matchAt p = some m → Marked p.rest →
      (∃ c ∈ p.rest.head?, isMark c = true) ∧ Marked (replacement m))
    (h : Marked html) : Marked (pattern.replace replacement html) := by
  refine marked_flatMap_render (fun m hm => ?_) (by rwa [flatMap_text_scan])
  obtain ⟨front, back, hscan⟩ := List.append_of_mem hm
  obtain ⟨before, hback⟩ := exists_scanFrom_of_append hscan
  obtain ⟨hfound, hne⟩ := matchAt_of_hit hback
  have hrest : Marked (m.text ++ back.flatMap Piece.text) := by
    have htext := flatMap_text_scan pattern html
    rw [hscan, List.flatMap_append] at htext
    rw [← htext] at h
    exact h.right
  obtain ⟨⟨c, hhead, hc⟩, hreplacement⟩ := hmatch _ m hfound hrest
  obtain ⟨d, ds, hd⟩ := List.exists_cons_of_ne_nil hne
  refine ⟨⟨c, ?_, hc⟩, hreplacement⟩
  rw [List.flatMap_cons, Piece.text, hd, List.cons_append] at hhead
  rw [hd]
  exact hhead

/-! ### What the marks enclose -/

section Enclosed

variable {opening body closing : Pattern} {P : List Char → Prop} {os zs : List Char} {p : Place}

/-- A part of marked HTML that a mark follows is marked. -/
theorem Marked.middle {text : List Char} {c : Char}
    (h : Marked (before ++ (text ++ c :: after))) (hc : isMark c = true) : Marked text :=
  h.right.left hc

/-- Between two marks stands marked HTML. -/
theorem marked_group_of_matchAt (hopening : Recognizes (· = os) opening)
    (hos : ∃ c ∈ os.head?, isMark c = true) (hbody : Recognizes P body)
    (hclosing : Recognizes (· = zs) closing) (hzs : ∃ c ∈ zs.head?, isMark c = true)
    (h : (sequence [opening, .group 1 body, closing]).matchAt p = some m) (hp : Marked p.rest) :
    (∃ c ∈ p.rest.head?, isMark c = true) ∧ Marked (m.group 1) := by
  obtain ⟨text, rest, hrest, -, rfl, -⟩ := exists_between_of_matchAt hopening hbody hclosing h
  obtain ⟨c, hhead, hc⟩ := hos
  obtain ⟨cs, rfl⟩ := List.head?_eq_some_iff.1 hhead
  obtain ⟨d, hhead', hd⟩ := hzs
  obtain ⟨ds, rfl⟩ := List.head?_eq_some_iff.1 hhead'
  refine ⟨⟨c, by rw [hrest]; rfl, hc⟩, ?_⟩
  rw [hrest, List.append_assoc, List.append_assoc] at hp
  exact hp.middle hd

/-- The text and the destination of an image or a link are marked HTML. -/
theorem marked_groups_of_matchAt (hopening : Recognizes (· = os) opening)
    (hos : ∃ c ∈ os.head?, isMark c = true) (hbody : Recognizes P body)
    (h : (sequence [opening, .group 1 body, char ']', destination]).matchAt p = some m)
    (hp : Marked p.rest) :
    (∃ c ∈ p.rest.head?, isMark c = true) ∧ Marked (m.group 1) ∧ Marked (m.group 2) := by
  obtain ⟨text, address, rest, hrest, -, rfl, rfl, -⟩ := exists_address_of_matchAt hopening hbody h
  obtain ⟨c, hhead, hc⟩ := hos
  obtain ⟨cs, rfl⟩ := List.head?_eq_some_iff.1 hhead
  refine ⟨⟨c, by rw [hrest]; rfl, hc⟩, ?_⟩
  have htext : p.rest = (c :: cs) ++ (m.group 1 ++ ']' :: ('(' :: (m.group 2 ++ ')' :: rest))) := by
    rw [hrest]
    simp
  have haddress : p.rest = (c :: cs ++ m.group 1 ++ [']', '(']) ++ (m.group 2 ++ ')' :: rest) := by
    rw [hrest]
    simp
  exact ⟨(htext ▸ hp).middle rfl, (haddress ▸ hp).middle rfl⟩

end Enclosed

/-! ### The markup of a line -/

theorem marked_between {opening closing : String} (hopening : Marked opening.toList)
    (hclosing : Marked closing.toList) (hm : Marked (m.group 1)) :
    Marked (between opening closing m) :=
  (hopening.append hm).append hclosing

/-- Marks around a text become tags around it. -/
theorem Marked.replace_between {mark body : Pattern} {P : List Char → Prop} {os : List Char}
    {opening closing : String} (h : Marked html) (hmark : Recognizes (· = os) mark)
    (hos : ∃ c ∈ os.head?, isMark c = true) (hbody : Recognizes P body)
    (hopening : Marked opening.toList) (hclosing : Marked closing.toList) :
    Marked ((sequence [mark, .group 1 body, mark]).replace (between opening closing) html) :=
  h.replace fun _ _ hfound hp =>
    have ⟨hhead, hgroup⟩ := marked_group_of_matchAt hmark hos hbody hmark hos hfound hp
    ⟨hhead, marked_between hopening hclosing hgroup⟩

theorem marked_imageTag (h₁ : Marked (m.group 1)) (h₂ : Marked (m.group 2)) :
    Marked (imageTag m) :=
  have hopening : Marked "<img src=\"".toList := .tag rfl (by decide)
  have hnext : Marked "\" alt=\"".toList := .of_notMem (by decide)
  have hclosing : Marked "\">".toList := .of_notMem (by decide)
  (((hopening.append h₂).append hnext).append h₁).append hclosing

theorem marked_linkTags (h₁ : Marked (m.group 1)) (h₂ : Marked (m.group 2)) :
    Marked (linkTags m) :=
  have hopening : Marked "<a href=\"".toList := .tag rfl (by decide)
  have hnext : Marked "\">".toList := .of_notMem (by decide)
  have hclosing : Marked "</a>".toList := .tag rfl (by decide)
  (((hopening.append h₂).append hnext).append h₁).append hclosing

/-- **In the markup of a line every angle bracket opens a tag that stands within a line.** -/
theorem marked_inline (line : List Char) : Marked (inline line) := by
  have hcode : Marked (withCode line) :=
    (Marked.of_notMem (Entity.lt_not_mem_encode line)).replace_between (recognizes_char _)
      ⟨_, rfl, rfl⟩ (recognizes_many1 _) (.tag rfl (by decide)) (.tag rfl (by decide))
  have himage : Marked (withImages line) := hcode.replace fun _ _ hfound hp =>
    have ⟨hhead, h₁, h₂⟩ :=
      marked_groups_of_matchAt (recognizes_literal _) ⟨'!', rfl, rfl⟩ (recognizes_many _) hfound hp
    ⟨hhead, marked_imageTag h₁ h₂⟩
  have hlink : Marked (withLinks line) := himage.replace fun _ _ hfound hp =>
    have ⟨hhead, h₁, h₂⟩ :=
      marked_groups_of_matchAt (recognizes_char _) ⟨_, rfl, rfl⟩ (recognizes_many1 _) hfound hp
    ⟨hhead, marked_linkTags h₁ h₂⟩
  have hstrong : Marked (withStrong line) :=
    hlink.replace_between (recognizes_literal _) ⟨'*', rfl, rfl⟩ (recognizes_many1 _)
      (.tag rfl (by decide)) (.tag rfl (by decide))
  exact hstrong.replace_between (recognizes_char _) ⟨_, rfl, rfl⟩ (recognizes_many1 _)
    (.tag rfl (by decide)) (.tag rfl (by decide))

end Syndication.Markup.Markdown
