import Syndication.Proofs.Markup.EventAttribute

/-!
# Scripts, styles and comments

The clean-up of HTML deletes scripts and styles with all they hold, and then comments. What is
found as a script begins with an angle bracket and the name of a script, which no further character
of a word follows, and ends with the first tag that closes it; a comment goes from its beginning to
the first end of a comment.

Main statements:

* `matchAt_scriptOrStyle`: what is found where a script or a style stands.
* `matchAt_comment`: what is found where a comment stands.
* `allMatches_scriptOrStyle`, `allMatches_comment`, `allMatches_eventAttribute`: when there is
  nothing to delete.
-/

namespace Syndication.Markup

open Pattern

/-- The names of the elements that hold no text. -/
def IsElementName (cs : List Char) : Prop :=
  Spells "script" cs ∨ Spells "style" cs

instance (s : String) : DecidablePred (Spells s) := fun cs =>
  inferInstanceAs (Decidable (List.Forall₂ _ s.toList cs))

instance : DecidablePred IsElementName := fun _ =>
  inferInstanceAs (Decidable (_ ∨ _))

/-- **A script or a style is opened** behind an angle bracket: there stands its name, and no further
character of a word. -/
def OpensElement (cs : List Char) : Prop :=
  ∃ name rest, cs = name ++ rest ∧ IsElementName name ∧
    ∀ c ∈ rest.head?, Text.isWordCharacter c = false

/-- A script or a style is closed. -/
def ClosesElement (cs : List Char) : Prop :=
  ∃ name gap rest, cs = '<' :: '/' :: (name ++ (gap ++ '>' :: rest)) ∧ IsElementName name ∧
    ∀ c ∈ gap, Text.isBlank c = true

/-- **A script or a style**, with everything in it. -/
inductive IsElement : List Char → Prop
  | intro {name inside body name' gap : List Char} (hname : IsElementName name)
      (hedge : ∀ c ∈ inside.head?, Text.isWordCharacter c = false) (hinside : '>' ∉ inside)
      (hbody : ∀ front back, body = front ++ back → ¬ ClosesElement back)
      (hname' : IsElementName name') (hgap : ∀ c ∈ gap, Text.isBlank c = true) :
      IsElement ('<' :: (name ++ (inside ++ '>' :: (body ++
        '<' :: '/' :: (name' ++ (gap ++ ['>']))))))

/-- **A comment**, which its first end ends. -/
inductive IsComment : List Char → Prop
  | intro {body : List Char} (hbody : ∀ front back, body ≠ front ++ '-' :: '-' :: '>' :: back) :
      IsComment ("<!--".toList ++ (body ++ "-->".toList))

/-- **A text in which no script and no style is opened.** -/
def OpensNone (text : List Char) : Prop :=
  ∀ before after, text = before ++ '<' :: after → ¬ OpensElement after

/-- A text in which no comment begins. -/
def CommentsNone (text : List Char) : Prop :=
  ∀ before after, text ≠ before ++ '<' :: '!' :: '-' :: '-' :: after

/-- A text in which no event attribute begins. -/
def HandlesNone (text : List Char) : Prop :=
  ∀ before after, text = before ++ after → ¬ BeginsAttribute after

variable {cs rest name body text : List Char} {before : Option Char} {m : Match}

/-! ### Names -/

theorem isLetter_of_spells {s : String} (hs : s.toList.all Char.isLower = true)
    (h : Spells s cs) : ∀ c ∈ cs, isLetterIgnoringCase c = true := by
  unfold Spells at h
  generalize s.toList = letters at h hs
  induction h with
  | nil => exact List.forall_mem_nil _
  | cons hc _ ih =>
    obtain ⟨hletter, hletters⟩ := Bool.and_eq_true_iff.1 (List.all_cons.symm.trans hs)
    exact List.forall_mem_cons.2 ⟨isLetter_of_eqIgnoringCase hletter hc, ih hletters⟩

/-- A name has letters only. -/
theorem IsElementName.isLetter (h : IsElementName name) :
    ∀ c ∈ name, isLetterIgnoringCase c = true :=
  h.elim (isLetter_of_spells (by decide)) (isLetter_of_spells (by decide))

theorem IsElementName.ne_nil (h : IsElementName name) : name ≠ [] := by
  rintro rfl
  rcases h with h | h <;> cases h

theorem IsElementName.notMem (h : IsElementName name) {c : Char}
    (hc : isLetterIgnoringCase c = false) : c ∉ name := fun hmem => by
  rw [h.isLetter c hmem] at hc
  cases hc

/-- No text is the name of a script and begins with the name of a style. -/
theorem not_spells_both {cs' rest' : List Char} (h : Spells "script" cs) (h' : Spells "style" cs') :
    cs ++ rest ≠ cs' ++ rest' := by
  intro heq
  have hscript : "script".toList = ['s', 'c', 'r', 'i', 'p', 't'] := rfl
  have hstyle : "style".toList = ['s', 't', 'y', 'l', 'e'] := rfl
  rw [Spells, hscript] at h
  rw [Spells, hstyle] at h'
  cases h with
  | @cons _ _ _ cs _ hscript =>
    cases hscript with
    | @cons _ c _ cs hc hscript =>
      cases h' with
      | @cons _ _ _ cs' _ hstyle =>
        cases hstyle with
        | @cons _ d _ cs' hd hstyle =>
          simp only [List.cons_append] at heq
          obtain ⟨-, heq⟩ := List.cons.inj heq
          obtain ⟨rfl, -⟩ := List.cons.inj heq
          -- the second letters differ
          have hc' : c.toLower = 'c' := by simpa [eqIgnoringCase] using hc
          have hd' : c.toLower = 't' := by simpa [eqIgnoringCase] using hd
          rw [hc'] at hd'
          exact absurd hd' (by decide)

theorem isWordCharacter_of_isLetter {c : Char} (h : isLetterIgnoringCase c = true) :
    Text.isWordCharacter c = true := by
  simp only [isLetterIgnoringCase, Bool.or_eq_true, beq_iff_eq] at h
  rcases h with (h | rfl) | rfl
  · exact Text.isWordCharacter_of_isAlphanum (Bool.or_eq_true_iff.2 (.inl h))
  · decide +kernel
  · decide +kernel

/-- The codes of the blanks. -/
def blankCodes : List Nat :=
  [9, 10, 11, 12, 13, 0x20, 0x85, 0xA0, 0x1680, 0x2000, 0x2001, 0x2002, 0x2003, 0x2004, 0x2005,
    0x2006, 0x2007, 0x2008, 0x2009, 0x200A, 0x2028, 0x2029, 0x202F, 0x205F, 0x3000]

theorem isWordCharacter_eq_false_of_isBlank {c : Char} (h : Text.isBlank c = true) :
    Text.isWordCharacter c = false := by
  have hcode : c.toNat ∈ blankCodes := by
    simp only [Text.isBlank, Bool.or_eq_true, Bool.and_eq_true, decide_eq_true_eq,
      beq_iff_eq] at h
    simp only [blankCodes, List.mem_cons, List.not_mem_nil, or_false]
    omega
  have hall : ∀ n ∈ blankCodes, Text.isWordCharacter (Char.ofNat n) = false := by decide +kernel
  have hc := hall _ hcode
  rwa [Char.ofNat_toNat] at hc

theorem lastOf_of_ne_nil (before : Option Char) (h : cs ≠ []) :
    ∃ c ∈ cs, lastOf before cs = some c := by
  rcases List.eq_nil_or_concat cs with rfl | ⟨cs, c, rfl⟩
  · exact absurd rfl h
  · exact ⟨c, by simp, by rw [List.concat_eq_append, lastOf_append]; rfl⟩

/-- Behind a name stands the edge of a word unless the word goes on. -/
theorem IsElementName.isWordEdge_iff (h : IsElementName name) :
    (⟨lastOf before name, rest⟩ : Place).isWordEdge = true ↔
      ∀ c ∈ rest.head?, Text.isWordCharacter c = false := by
  obtain ⟨c, hc, hlast⟩ := lastOf_of_ne_nil before h.ne_nil
  have hword := isWordCharacter_of_isLetter (h.isLetter c hc)
  rw [hlast, Place.isWordEdge]
  cases rest with
  | nil => simp [hword]
  | cons d rest => simp [hword]

/-! ### What is found as a script or a style -/

/-- The pattern of a name. -/
def namePattern : Pattern :=
  .alt (literalIgnoringCase "script") (literalIgnoringCase "style")

/-- The pattern of a tag that closes a script or a style. -/
def closingPattern : Pattern :=
  .seq (literal "</") (.seq namePattern (.seq blanks (char '>')))

theorem scriptOrStyle_eq :
    scriptOrStyle = .seq (char '<') (.seq namePattern (.seq .wordEdge
      (.seq (.many (noneOf ['>'])) (.seq (char '>') (.seq (.few anyChar) closingPattern))))) := rfl

section Running

variable {α : Type} {next : Place → List (Nat × Span) → Option α}
  {groups groups' : List (Nat × Span)}

/-- A name is passed in one way. -/
theorem run_namePattern (h : IsElementName name) :
    namePattern.run ⟨before, name ++ rest⟩ groups next =
      next ⟨lastOf before name, rest⟩ groups := by
  rw [namePattern, run]
  rcases h with h | h
  · rw [run_literalIgnoringCase h]
    have hother : (literalIgnoringCase "style").run ⟨before, name ++ rest⟩ groups next = none := by
      refine run_eq_none fun q groups' hcovers => ?_
      obtain ⟨cs, hspells, hsplit, -⟩ := hcovers.literalIgnoringCase
      exact absurd hsplit (not_spells_both h hspells)
    rw [hother]
    cases next ⟨lastOf before name, rest⟩ groups <;> rfl
  · have hother : (literalIgnoringCase "script").run ⟨before, name ++ rest⟩ groups next = none := by
      refine run_eq_none fun q groups' hcovers => ?_
      obtain ⟨cs, hspells, hsplit, -⟩ := hcovers.literalIgnoringCase
      exact absurd hsplit.symm (not_spells_both hspells h)
    rw [hother]
    exact run_literalIgnoringCase h before rest

theorem exists_name_of_covers {p q : Place} (h : namePattern.Covers p groups q groups') :
    ∃ name, IsElementName name ∧ p.rest = name ++ q.rest ∧ q.before = lastOf p.before name ∧
      groups' = groups := by
  rcases h with h | h
  · obtain ⟨name, hname, hsplit⟩ := h.literalIgnoringCase
    exact ⟨name, .inl hname, hsplit⟩
  · obtain ⟨name, hname, hsplit⟩ := h.literalIgnoringCase
    exact ⟨name, .inr hname, hsplit⟩

theorem run_closingPattern {gap : List Char} (hname : IsElementName name)
    (hgap : ∀ c ∈ gap, Text.isBlank c = true) :
    closingPattern.run ⟨before, '<' :: '/' :: (name ++ (gap ++ '>' :: rest))⟩ groups next =
      next ⟨some '>', rest⟩ groups := by
  have hopening : '<' :: '/' :: (name ++ (gap ++ '>' :: rest)) =
      "</".toList ++ (name ++ (gap ++ '>' :: rest)) := rfl
  rw [closingPattern, hopening, run, run_literal, run, run_namePattern hname, run, blanks,
    run_many_of_exact hgap (by simp; decide), run_char]
  intro before c rest hc
  exact run_char_of_ne (ne_of_isBlank hc (by decide)) before rest

theorem closes_of_covers {p q : Place} (h : closingPattern.Covers p groups q groups') :
    ClosesElement p.rest := by
  obtain ⟨p₁, _, hopening, p₂, _, hname, p₃, _, ⟨hruns, -⟩, ⟨c, hrest, -, hc, -⟩⟩ := h
  obtain ⟨hrest₁, -⟩ := hopening.literal
  obtain ⟨name, hname, hrest₂, -⟩ := exists_name_of_covers hname
  obtain ⟨gap, hrest₃, hgap⟩ := hruns.exists_append
  refine ⟨name, gap, q.rest, ?_, hname, hgap⟩
  rw [hrest₁, hrest₂, hrest₃, hrest, eq_of_beq hc]
  rfl

end Running

/-- A closing tag begins with an angle bracket and has no other. -/
theorem ClosesElement.of_append {tail : List Char} (h : ClosesElement (cs ++ '<' :: tail))
    (hne : cs ≠ []) : ClosesElement cs := by
  obtain ⟨name, gap, rest, heq, hname, hgap⟩ := h
  obtain ⟨c, cs, rfl⟩ := List.exists_cons_of_ne_nil hne
  obtain ⟨rfl, hcs⟩ := List.cons.inj heq
  have hcs : cs ++ '<' :: tail = '/' :: (name ++ (gap ++ '>' :: rest)) := hcs
  have hnot : '<' ∉ '/' :: (name ++ (gap ++ ['>'])) := by
    simp only [List.mem_cons, List.mem_append, List.not_mem_nil, or_false, not_or]
    exact ⟨by decide, hname.notMem (by decide), fun h => ne_of_isBlank (hgap _ h) (by decide) rfl,
      by decide⟩
  have hsplit : ('/' :: (name ++ (gap ++ ['>']))) ++ rest = cs ++ '<' :: tail := by
    rw [hcs]
    simp
  obtain ⟨middle, rfl, -⟩ := exists_append_of_notMem hsplit hnot
  exact ⟨name, gap, middle, by simp, hname, hgap⟩

/-- A script or a style without attributes that holds no angle bracket. -/
theorem isElement_of_notMem (name body : List Char) (hname : IsElementName name)
    (hbody : '<' ∉ body) :
    IsElement ('<' :: (name ++ '>' :: (body ++ '<' :: '/' :: (name ++ ['>'])))) := by
  have hcloses : ∀ front back, body = front ++ back → ¬ ClosesElement back := by
    rintro front _ rfl ⟨name', gap, rest, rfl, -, -⟩
    simp at hbody
  have h : IsElement ('<' :: (name ++ ([] ++ '>' :: (body ++
      '<' :: '/' :: (name ++ ([] ++ ['>'])))))) :=
    .intro hname (by simp) (by simp) hcloses hname (by simp)
  exact h

/-- **What is found where a script or a style stands.** -/
theorem matchAt_scriptOrStyle (h : IsElement cs) (before : Option Char) :
    scriptOrStyle.matchAt ⟨before, cs ++ rest⟩ = some ⟨⟨cs ++ rest, rest⟩, []⟩ := by
  cases h with
  | @intro name inside body name' gap hname hedge hinside hbody hname' hgap =>
    have hword (tail : List Char) :
        (⟨lastOf (some '<') name, inside ++ '>' :: tail⟩ : Place).isWordEdge = true := by
      rw [hname.isWordEdge_iff]
      intro c hc
      cases inside with
      | nil =>
        obtain rfl : '>' = c := by simpa using hc
        decide
      | cons d inside => exact hedge c hc
    have hother : ∀ c ∈ inside, noneOf ['>'] c = true := fun c hc =>
      noneOf_iff.2 fun heq => hinside (heq ▸ hc)
    rw [matchAt, scriptOrStyle_eq]
    simp only [List.cons_append, List.append_assoc, List.nil_append]
    rw [run, run_char, run, run_namePattern hname, run, run, if_pos (hword _), run,
      run_many_of_exact hother (by simp [noneOf]), run, run_char, run, run]
    · refine passFew_of_shortest (fun _ _ => rfl) ?_ (run_closingPattern hname' hgap)
      intro before front c back hsplit
      refine run_eq_none fun q groups' hcovers => ?_
      -- what closes the element before its end would lie in the body
      have hcloses : ClosesElement ((c :: back) ++ '<' :: '/' :: (name' ++ (gap ++ '>' :: rest))) :=
        closes_of_covers hcovers
      exact absurd (hcloses.of_append (List.cons_ne_nil c back)) (hbody front (c :: back) hsplit)
    · intro before c rest hc
      exact run_seq_char_of_ne (noneOf_iff.1 hc) before rest

theorem opens_of_covers {p q : Place} {groups groups' : List (Nat × Span)}
    (h : scriptOrStyle.Covers p groups q groups') :
    ∃ after, p.rest = '<' :: after ∧ OpensElement after := by
  rw [scriptOrStyle_eq] at h
  obtain ⟨p₁, _, ⟨c, hrest, -, hc, rfl⟩, p₂, _, hname, p₃, _, ⟨hedge, rfl, rfl⟩, -⟩ := h
  obtain ⟨name, hname', hrest₁, hbefore, rfl⟩ := exists_name_of_covers hname
  refine ⟨p₁.rest, by rw [hrest, eq_of_beq hc], name, p₃.rest, hrest₁, hname', ?_⟩
  have hplace : p₃ = ⟨lastOf p₁.before name, p₃.rest⟩ := by rw [← hbefore]
  rw [hplace] at hedge
  exact hname'.isWordEdge_iff.1 hedge

theorem matchAt_scriptOrStyle_eq_none {c : Char} (h : c = '<' → ¬ OpensElement cs) :
    scriptOrStyle.matchAt ⟨before, c :: cs⟩ = none := by
  refine run_eq_none fun q groups' hcovers => ?_
  obtain ⟨after, heq, hopens⟩ := opens_of_covers hcovers
  obtain ⟨rfl, rfl⟩ := List.cons.inj heq
  exact absurd hopens (h rfl)

theorem unanchored_scriptOrStyle : scriptOrStyle.Unanchored := by
  intro before before' cs
  cases cs <;> rfl

/-- What is opened in a text that goes on with no letter is opened in the text. -/
theorem OpensElement.of_append {c : Char} (h : OpensElement (cs ++ c :: rest))
    (hc : isLetterIgnoringCase c = false) : OpensElement cs := by
  obtain ⟨name, after, heq, hname, hafter⟩ := h
  obtain ⟨middle, rfl, rfl⟩ := exists_append_of_notMem heq.symm (hname.notMem hc)
  refine ⟨name, middle, rfl, hname, fun d hd => ?_⟩
  cases middle with
  | nil => cases hd
  | cons e middle => exact hafter d hd

/-! ### What is found as a comment -/

theorem comment_eq : comment = .seq (literal "<!--") (.seq (.few anyChar) (literal "-->")) := rfl

/-- **What is found where a comment stands.** -/
theorem matchAt_comment (h : IsComment cs) (before : Option Char) :
    comment.matchAt ⟨before, cs ++ rest⟩ = some ⟨⟨cs ++ rest, rest⟩, []⟩ := by
  cases h with
  | @intro body hbody =>
    rw [matchAt, comment_eq, run, List.append_assoc, run_literal, run, run, List.append_assoc]
    refine passFew_of_shortest (fun _ _ => rfl) ?_ (run_literal _ _ _)
    intro before front c back hsplit
    refine run_eq_none fun q groups' hcovers => ?_
    obtain ⟨heq, -⟩ := hcovers.literal
    have heq : c :: (back ++ '-' :: '-' :: '>' :: rest) = '-' :: '-' :: '>' :: q.rest := heq
    -- an end of the comment before its last one would lie in the body
    rcases back with - | ⟨d, - | ⟨e, back⟩⟩
    · simp at heq
    · simp at heq
    · simp only [List.cons_append, List.cons.injEq] at heq
      obtain ⟨rfl, rfl, rfl, -⟩ := heq
      exact absurd hsplit (hbody front back)

/-- A text without hyphens ends no comment. -/
theorem isComment_of_notMem (body : List Char) (h : '-' ∉ body) :
    IsComment ("<!--".toList ++ (body ++ "-->".toList)) :=
  .intro fun front back hbody => h (by rw [hbody]; simp)

theorem matchAt_comment_eq_none (h : ∀ after, cs ≠ '<' :: '!' :: '-' :: '-' :: after) :
    comment.matchAt ⟨before, cs⟩ = none := by
  refine run_eq_none fun q groups' hcovers => ?_
  rw [comment_eq] at hcovers
  obtain ⟨p, _, hliteral, -⟩ := hcovers
  exact absurd hliteral.literal.1 (h p.rest)

theorem unanchored_comment : comment.Unanchored := by
  intro before before' cs
  cases cs <;> rfl

/-! ### Checking a text -/

/-- Whether a script or a style is opened can be tried. -/
theorem opensElement_iff :
    OpensElement cs ↔
      ((Pattern.seq namePattern .wordEdge).matchAt ⟨none, cs⟩).isSome = true := by
  constructor
  · rintro ⟨name, rest, rfl, hname, hrest⟩
    have hedge : (⟨lastOf none name, rest⟩ : Place).isWordEdge = true :=
      hname.isWordEdge_iff.2 hrest
    rw [matchAt, run, run_namePattern hname, run, if_pos hedge]
    rfl
  · intro h
    obtain ⟨m, hm⟩ := Option.isSome_iff_exists.1 h
    obtain ⟨q, ⟨p, _, hname, hedge, rfl, -⟩, -⟩ := exists_covers_of_matchAt hm
    obtain ⟨name, hname', hrest, hbefore, -⟩ := exists_name_of_covers hname
    refine ⟨name, q.rest, hrest, hname', ?_⟩
    have hplace : q = ⟨lastOf none name, q.rest⟩ := by rw [← hbefore]
    rw [hplace] at hedge
    exact hname'.isWordEdge_iff.1 hedge

instance : DecidablePred OpensElement := fun _ =>
  decidable_of_iff _ opensElement_iff.symm

theorem opensNone_cons {c : Char} :
    OpensNone (c :: cs) ↔ (c = '<' → ¬ OpensElement cs) ∧ OpensNone cs := by
  constructor
  · intro h
    refine ⟨?_, fun before after hcs => h (c :: before) after (by rw [hcs]; rfl)⟩
    rintro rfl
    exact h [] cs rfl
  · rintro ⟨hc, hcs⟩ before after h
    cases before with
    | nil =>
      obtain ⟨rfl, rfl⟩ := List.cons.inj h
      exact hc rfl
    | cons d before => exact hcs before after (List.cons.inj h).2

instance decidableOpensNone : DecidablePred OpensNone
  | [] => isTrue fun before _ h => by simp at h
  | _ :: cs =>
    have := decidableOpensNone cs
    decidable_of_iff _ opensNone_cons.symm

/-! ### When there is nothing to delete -/

theorem allMatches_scriptOrStyle (h : OpensNone text) : scriptOrStyle.allMatches text = [] := by
  refine allMatches_eq_nil fun front c back htext before => ?_
  refine matchAt_scriptOrStyle_eq_none ?_
  rintro rfl
  exact h front back htext

theorem allMatches_comment (h : CommentsNone text) : comment.allMatches text = [] := by
  refine allMatches_eq_nil fun front c back htext before => ?_
  refine matchAt_comment_eq_none fun after hback => ?_
  exact h front after (by rw [htext, hback])

theorem allMatches_eventAttribute (h : HandlesNone text) : eventAttribute.allMatches text = [] := by
  refine allMatches_eq_nil fun front c back htext before => ?_
  exact matchAt_eventAttribute_eq_none_iff.2 (h front (c :: back) htext)

end Syndication.Markup
