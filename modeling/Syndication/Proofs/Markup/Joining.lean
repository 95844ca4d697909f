import Syndication.Proofs.Markup.Elements

/-!
# What the deletion of event attributes puts together

Where an event attribute is deleted, the text before it and the text behind it come together. They
make up nothing new when the attribute stands apart from what follows it: a name never goes on
behind a blank or the end of a tag, and an equals sign is excluded.

Main statements:

* `HandlersApart.exists_word`: words behind angle brackets are those of the text.
* `opensNone_delete`, `commentsNone_delete`, `handlesNone_delete`: neither scripts nor comments nor
  event attributes come together.
-/

namespace Syndication.Markup

open Pattern

variable {text : List Char}

/-! ### Event attributes that stand apart -/

/-- **What follows an attribute is apart from it**: a blank or the end of the tag, and no equals
sign that would make the attribute before it one of another value. -/
def SetApart (after : List Char) : Prop :=
  (∀ c ∈ after.head?, Text.isBlank c = true ∨ c = '>' ∨ c = '/') ∧
    (Chars.trimStart after).head? ≠ some '='

/-- The end of a tag is apart from the attribute before it. -/
theorem setApart_gt (rest : List Char) : SetApart ('>' :: rest) := by
  refine ⟨?_, ?_⟩
  · rintro _ ⟨rfl⟩
    exact .inr (.inl rfl)
  · have hstart : Chars.trimStart ('>' :: rest) = '>' :: rest :=
      Chars.trimStart_eq_self_iff.2 (by rintro _ ⟨rfl⟩; decide)
    rw [hstart]
    simp

/-- **Event attributes stand apart** from what follows them. -/
def HandlersApart (text : List Char) : Prop :=
  ∀ m ∈ eventAttribute.allMatches text, SetApart m.whole.stop

section Joining

variable {front back : List Piece} {m : Match}

theorem isAttribute_of_hit (h : eventAttribute.scan text = front ++ .hit m :: back) :
    IsAttribute m.text (back.flatMap Piece.text) := by
  obtain ⟨before, hscan⟩ := exists_scanFrom_of_append h
  obtain ⟨cs, rest, hsplit, hattribute, hm⟩ :=
    exists_isAttribute_of_matchAt (matchAt_of_hit hscan).1
  rw [hsplit] at hm
  have htext : m.text = cs := by rw [Match.text, hm, Span.text_mk_append]
  have hrest : back.flatMap Piece.text = rest := by rw [← stop_of_hit h, hm]
  rw [htext, hrest]
  exact hattribute

theorem HandlersApart.setApart (h : HandlersApart text)
    (hscan : eventAttribute.scan text = front ++ .hit m :: back) :
    SetApart (back.flatMap Piece.text) := by
  have hmem : m ∈ eventAttribute.allMatches text := by
    rw [allMatches, hscan]
    exact List.mem_filterMap.2 ⟨.hit m, by simp, rfl⟩
  rw [← stop_of_hit hscan]
  exact h m hmem

/-- An event attribute begins with blanks and a letter. -/
theorem IsAttribute.exists_letter {cs rest : List Char} (h : IsAttribute cs rest) :
    ∃ gap c after, cs = gap ++ c :: after ∧ gap ≠ [] ∧ (∀ d ∈ gap, Text.isBlank d = true) ∧
      isLetterIgnoringCase c = true := by
  obtain ⟨head, gap, value, rfl, hhead, -⟩ := h
  cases hhead with
  | @intro gap₀ letters gap' o n hne hgap ho hn =>
    exact ⟨gap₀, o, n :: (letters ++ (gap' ++ ['='])) ++ (gap ++ value), by simp, hne, hgap,
      isLetter_of_eqIgnoringCase rfl ho⟩

/-- No event attribute begins at a plain character. -/
theorem not_begins_of_plain {c : Char}
    (h : eventAttribute.scan text = front ++ .plain c :: back) :
    ¬ BeginsAttribute (c :: back.flatMap Piece.text) := by
  intro hbegins
  obtain ⟨before, hscan⟩ := exists_scanFrom_of_append h
  obtain ⟨cs, rest, hsplit, hattribute⟩ := hbegins.exists_isAttribute
  have hfound := matchAt_eventAttribute hattribute before
  rw [← hsplit] at hfound
  have hnil := text_eq_nil_of_plain hscan hfound
  rw [Match.text, hsplit, Span.text_mk_append] at hnil
  obtain ⟨gap, c, after, hcs, -⟩ := hattribute.exists_letter
  rw [hcs] at hnil
  exact absurd hnil (by simp)

/-- **A word behind an angle bracket is not put together** by the deletion of event attributes that
stand apart: it was there before. -/
theorem HandlersApart.exists_word (h : HandlersApart text) {left word right : List Char}
    (hdelete : eventAttribute.delete text = left ++ '<' :: (word ++ right))
    (hword : ∀ c ∈ word, ¬ (Text.isBlank c = true ∨ c = '>' ∨ c = '/')) :
    ∃ left' right', text = left' ++ '<' :: (word ++ right') ∧
      ∀ c ∈ right'.head?, c ∈ right.head? ∨ Text.isBlank c = true := by
  rw [delete_eq] at hdelete
  obtain ⟨front, back, hscan, -, hback⟩ := exists_plain_of_kept_append hdelete
  obtain ⟨rest, rfl, hrest⟩ : ∃ rest, back = word.map Piece.plain ++ rest ∧
      rest.flatMap Piece.kept = right := by
    by_cases hne : word = []
    · subst hne
      exact ⟨back, rfl, hback⟩
    · obtain ⟨front', tail, rest, rfl, htail, hkept, hrest, rfl | ⟨front'', m, rfl⟩⟩ :=
        exists_front_of_kept_append hback hne
      · exact ⟨rest, by rw [← hkept]; rfl, hrest⟩
      · -- behind a deleted attribute the word would not go on
        have hcut : eventAttribute.scan text =
            (front ++ .plain '<' :: front'') ++ .hit m :: (tail.map Piece.plain ++ rest) := by
          rw [hscan]
          simp
        obtain ⟨c, tail, rfl⟩ := List.exists_cons_of_ne_nil htail
        have hc := (h.setApart hcut).1 c (by simp [Piece.text])
        exact absurd hc (hword c (by rw [← hkept]; simp))
  refine ⟨front.flatMap Piece.text, rest.flatMap Piece.text, ?_, ?_⟩
  · have htext := flatMap_text_scan eventAttribute text
    rw [hscan] at htext
    rw [← htext]
    simp [Piece.text]
  · intro c hc
    cases rest with
    | nil => cases hc
    | cons piece rest =>
      cases piece with
      | plain d =>
        obtain rfl : d = c := by simpa [Piece.text] using hc
        exact .inl (by rw [← hrest]; rfl)
      | hit m =>
        have hcut : eventAttribute.scan text =
            (front ++ .plain '<' :: word.map Piece.plain) ++ .hit m :: rest := by
          rw [hscan]
          simp
        obtain ⟨gap, d, after, hm, hne, hgap, -⟩ := (isAttribute_of_hit hcut).exists_letter
        obtain ⟨e, gap, rfl⟩ := List.exists_cons_of_ne_nil hne
        obtain rfl : e = c := by simpa [Piece.text, hm] using hc
        exact .inr (hgap e List.mem_cons_self)

theorem not_apart_of_isLetter {c : Char} (h : isLetterIgnoringCase c = true) :
    ¬ (Text.isBlank c = true ∨ c = '>' ∨ c = '/') := by
  rintro (hc | rfl | rfl)
  · rw [isBlank_eq_false_of_isLetter h] at hc
    cases hc
  · revert h
    decide
  · revert h
    decide

/-- **No script is opened** by the deletion of event attributes that stand apart. -/
theorem opensNone_delete (h : HandlersApart text) (hopens : OpensNone text) :
    OpensNone (eventAttribute.delete text) := by
  rintro left _ hdelete ⟨name, right, rfl, hname, hright⟩
  obtain ⟨left', right', htext, hright'⟩ := h.exists_word hdelete
    fun c hc => not_apart_of_isLetter (hname.isLetter c hc)
  refine hopens left' _ htext ⟨name, right', rfl, hname, fun c hc => ?_⟩
  rcases hright' c hc with hc | hc
  · exact hright c hc
  · exact isWordCharacter_eq_false_of_isBlank hc

/-- **No comment begins** by the deletion of event attributes that stand apart. -/
theorem commentsNone_delete (h : HandlersApart text) (hcomments : CommentsNone text) :
    CommentsNone (eventAttribute.delete text) := by
  intro left right hdelete
  have hword : ∀ c ∈ ['!', '-', '-'], ¬ (Text.isBlank c = true ∨ c = '>' ∨ c = '/') := by
    intro c hc
    have hcases : c = '!' ∨ c = '-' := by simpa using hc
    rcases hcases with rfl | rfl <;> decide
  have hsplit : eventAttribute.delete text = left ++ '<' :: (['!', '-', '-'] ++ right) := hdelete
  obtain ⟨left', right', htext, -⟩ := h.exists_word hsplit hword
  exact hcomments left' right' htext

/-- Where a value begins in what is left of a text, one began in the text. -/
theorem exists_bare_of_kept {pieces : List Piece} {gap rest : List Char} {c : Char}
    (hhits : ∀ m, .hit m ∈ pieces → ∃ rest, IsAttribute m.text rest)
    (h : pieces.flatMap Piece.kept = gap ++ c :: rest) (hgap : ∀ d ∈ gap, Text.isBlank d = true)
    (hc : isBare c = true) :
    ∃ gap' c' rest', pieces.flatMap Piece.text = gap' ++ c' :: rest' ∧
      (∀ d ∈ gap', Text.isBlank d = true) ∧ isBare c' = true := by
  induction pieces generalizing gap with
  | nil => exact absurd h (by simp)
  | cons piece pieces ih =>
    have hlater : ∀ m, .hit m ∈ pieces → ∃ rest, IsAttribute m.text rest :=
      fun m hm => hhits m (List.mem_cons_of_mem _ hm)
    cases piece with
    | plain d =>
      cases gap with
      | nil =>
        obtain ⟨rfl, -⟩ := List.cons.inj h
        exact ⟨[], d, pieces.flatMap Piece.text, rfl, List.forall_mem_nil _, hc⟩
      | cons e gap =>
        obtain ⟨rfl, htail⟩ := List.cons.inj h
        obtain ⟨he, hgap⟩ := List.forall_mem_cons.1 hgap
        obtain ⟨gap', c', rest', htext, hgap', hc'⟩ := ih hlater htail hgap
        refine ⟨d :: gap', c', rest', ?_, List.forall_mem_cons.2 ⟨he, hgap'⟩, hc'⟩
        rw [List.flatMap_cons, htext]
        rfl
    | hit m =>
      -- a deleted attribute begins as a value may, with a letter behind blanks
      obtain ⟨_, hattribute⟩ := hhits m List.mem_cons_self
      obtain ⟨gap', c', after, hm, -, hgap', hc'⟩ := hattribute.exists_letter
      have hne : c' ≠ '>' := ne_of_isLetter hc' (by decide)
      refine ⟨gap', c', after ++ pieces.flatMap Piece.text, ?_, hgap', ?_⟩
      · rw [List.flatMap_cons, Piece.text, hm, List.append_assoc]
        rfl
      · simp [isBare, isBlank_eq_false_of_isLetter hc', hne]

/-- What is left of the beginning of an attribute behind one that stands apart is nothing. -/
theorem SetApart.not_tail {letters gap front tail rest : List Char} (h : SetApart (tail ++ rest))
    (hletters : ∀ c ∈ letters, isLetterIgnoringCase c = true)
    (hgap : ∀ c ∈ gap, Text.isBlank c = true) (hne : tail ≠ []) :
    front ++ tail ≠ letters ++ (gap ++ ['=']) := by
  intro heq
  obtain ⟨c, cs, rfl⟩ := List.exists_cons_of_ne_nil hne
  have hc := h.1 c rfl
  have hnot : c ∉ letters := fun hmem => not_apart_of_isLetter (hletters c hmem) hc
  obtain ⟨middle, -, hgap'⟩ := exists_append_of_notMem heq.symm hnot
  -- so the rest of the beginning is blanks and the equals sign
  rcases List.eq_nil_or_concat (c :: cs) with hnil | ⟨blanks, last, hlast⟩
  · cases hnil
  · rw [List.concat_eq_append] at hlast
    rw [hlast, ← List.append_assoc] at hgap'
    obtain ⟨rfl, hlast'⟩ := List.append_inj' hgap' rfl
    obtain rfl : '=' = last := List.singleton_inj.1 hlast'
    have hblanks : ∀ d ∈ blanks, Text.isBlank d = true := fun d hd =>
      hgap d (List.mem_append_right _ hd)
    have hstart := h.2
    rw [hlast, List.append_assoc, Chars.trimStart_append_of_blank hblanks] at hstart
    exact hstart rfl

/-- **No event attribute comes together** by the deletion of event attributes that stand apart. -/
theorem handlesNone_delete (h : HandlersApart text) : HandlesNone (eventAttribute.delete text) := by
  rintro left _ hdelete ⟨head, gap, c, right, rfl, hhead, hgap, hc⟩
  cases hhead with
  | @intro gap₀ letters gap' o n hne hgap₀ ho hn hname hletters hgap' =>
    -- the last of the blanks before the name is enough
    obtain rfl | ⟨blanks, b, rfl⟩ := List.eq_nil_or_concat gap₀
    · exact absurd rfl hne
    have hb : Text.isBlank b = true := hgap₀ b (by simp)
    have hword : ∀ d ∈ o :: n :: letters, isLetterIgnoringCase d = true := by
      refine List.forall_mem_cons.2 ⟨isLetter_of_eqIgnoringCase rfl ho, ?_⟩
      exact List.forall_mem_cons.2 ⟨isLetter_of_eqIgnoringCase rfl hn, hletters⟩
    have hkept : (eventAttribute.scan text).flatMap Piece.kept = (left ++ blanks) ++
        b :: ((o :: n :: letters ++ (gap' ++ ['='])) ++ (gap ++ c :: right)) := by
      rw [← delete_eq, hdelete]
      simp
    obtain ⟨front, back, hscan, -, hback⟩ := exists_plain_of_kept_append hkept
    obtain ⟨front', tail, rest, rfl, htail, hsplit, hrest, rfl | ⟨front'', m, rfl⟩⟩ :=
      exists_front_of_kept_append hback (by simp)
    · have hhits : ∀ m, .hit m ∈ rest → ∃ after, IsAttribute m.text after := by
        intro m hm
        obtain ⟨before, after, rfl⟩ := List.append_of_mem hm
        have hcut : eventAttribute.scan text = (front ++ .plain b :: (tail.map Piece.plain ++
            before)) ++ .hit m :: after := by
          rw [hscan]
          simp
        exact ⟨_, isAttribute_of_hit hcut⟩
      obtain ⟨gap'', d, after, htext, hgap'', hd⟩ := exists_bare_of_kept hhits hrest hgap hc
      refine not_begins_of_plain hscan ⟨[b] ++ (o :: n :: (letters ++ (gap' ++ ['=']))), gap'', d,
        after, ?_, .intro (by simp) (by simpa using hb) ho hn hname hletters hgap', hgap'', hd⟩
      obtain rfl : tail = o :: n :: letters ++ (gap' ++ ['=']) := hsplit
      rw [List.nil_append, List.flatMap_append, flatMap_text_map_plain, htext]
      simp
    · have hcut : eventAttribute.scan text =
          (front ++ .plain b :: front'') ++ .hit m :: (tail.map Piece.plain ++ rest) := by
        rw [hscan]
        simp
      have hapart := h.setApart hcut
      rw [List.flatMap_append, flatMap_text_map_plain] at hapart
      exact hapart.not_tail hword hgap' htail hsplit

end Joining

end Syndication.Markup
