import Syndication.Markup.Clean
import Syndication.Proofs.Text.Choosing

/-!
# Event attributes

The clean-up of HTML looks for event attributes in the whole text, whether inside a tag or not.
What it finds can be said without a search: blanks, a name that begins with `on`, an equals sign,
and a value. The value is what stands between two quotation marks, when there are two; otherwise
it goes as far as the next blank or the end of the tag.

Main statements:

* `matchAt_eventAttribute`: what is found where an event attribute stands.
* `exists_isAttribute_of_matchAt`: nothing else is found.
* `matchAt_eventAttribute_eq_none_iff`: where an event attribute is found.
-/

namespace Syndication.Markup

open Pattern

/-- A quotation mark around the value of an attribute. -/
def IsQuotationMark (c : Char) : Prop :=
  c = '"' ∨ c = '\''

/-- **The beginning of an event attribute**: blanks, its name, and the equals sign. -/
inductive AttributeHead : List Char → Prop
  | intro {gap letters gap' : List Char} {o n : Char} (hne : gap ≠ [])
      (hgap : ∀ c ∈ gap, Text.isBlank c = true) (ho : eqIgnoringCase 'o' o = true)
      (hn : eqIgnoringCase 'n' n = true) (hname : letters ≠ [])
      (hletters : ∀ c ∈ letters, isLetterIgnoringCase c = true)
      (hgap' : ∀ c ∈ gap', Text.isBlank c = true) :
      AttributeHead (gap ++ (o :: n :: (letters ++ (gap' ++ ['=']))))

/-- A character of a value that is not quoted. -/
def isBare (c : Char) : Bool :=
  !Text.isBlank c && c != '>'

/-- **The value of an attribute**, with what follows it. -/
inductive AttributeValue : List Char → List Char → Prop
  | quoted {mark : Char} {value rest : List Char} (hmark : IsQuotationMark mark)
      (hvalue : mark ∉ value) : AttributeValue (mark :: (value ++ [mark])) rest
  | bare {c : Char} {value rest : List Char} (hvalue : ∀ d ∈ c :: value, isBare d = true)
      (hrest : ∀ d ∈ rest.head?, isBare d = false)
      (hquote : IsQuotationMark c → c ∉ value ++ rest) : AttributeValue (c :: value) rest

/-- **An event attribute**, with what follows it. -/
def IsAttribute (cs rest : List Char) : Prop :=
  ∃ head gap value, cs = head ++ (gap ++ value) ∧ AttributeHead head ∧
    (∀ c ∈ gap, Text.isBlank c = true) ∧ AttributeValue value rest

/-- **A text begins with an event attribute.** -/
def BeginsAttribute (cs : List Char) : Prop :=
  ∃ head gap c rest, cs = head ++ (gap ++ c :: rest) ∧ AttributeHead head ∧
    (∀ c ∈ gap, Text.isBlank c = true) ∧ isBare c = true

/-- **A quiet text**: in it stands no beginning of an event attribute. -/
def Quiet (text : List Char) : Prop :=
  ∀ left head right, text = left ++ (head ++ right) → ¬ AttributeHead head

variable {cs rest : List Char} {before : Option Char} {m : Match}

/-! ### Characters of an event attribute -/

theorem isLetter_of_eqIgnoringCase {letter c : Char} (hletter : letter.isLower = true)
    (h : eqIgnoringCase letter c = true) : isLetterIgnoringCase c = true := by
  simp only [eqIgnoringCase, Bool.or_eq_true, Bool.and_eq_true, beq_iff_eq] at h
  rcases h with (h | ⟨rfl, -⟩) | ⟨rfl, -⟩
  · have halpha : c.isAlpha = true := by
      by_cases hupper : c.isUpper = true
      · exact Bool.or_eq_true_iff.2 (.inl hupper)
      · have hsame : c.toLower = c := dif_neg fun hrange => hupper (decide_eq_true hrange)
        rw [← hsame, h]
        exact Bool.or_eq_true_iff.2 (.inr hletter)
    simp [isLetterIgnoringCase, halpha]
  · decide
  · decide

theorem isBlank_eq_false_of_isLetter {c : Char} (h : isLetterIgnoringCase c = true) :
    Text.isBlank c = false := by
  simp only [isLetterIgnoringCase, Bool.or_eq_true, beq_iff_eq] at h
  rcases h with (h | rfl) | rfl
  · exact Text.isBlank_eq_false_of_isAlphanum (Bool.or_eq_true_iff.2 (.inl h))
  · decide
  · decide

theorem ne_of_isLetter {c d : Char} (hc : isLetterIgnoringCase c = true)
    (hd : isLetterIgnoringCase d = false) : c ≠ d := by
  rintro rfl
  rw [hc] at hd
  cases hd

theorem ne_of_isBlank {c d : Char} (hc : Text.isBlank c = true) (hd : Text.isBlank d = false) :
    c ≠ d := by
  rintro rfl
  rw [hc] at hd
  cases hd

namespace AttributeHead

variable {head : List Char}

/-- The beginning of an event attribute has no characters but blanks, letters and an equals
sign. -/
theorem cases_of_mem (h : AttributeHead head) {c : Char} (hc : c ∈ head) :
    Text.isBlank c = true ∨ isLetterIgnoringCase c = true ∨ c = '=' := by
  cases h with
  | intro _ hgap ho hn _ hletters hgap' =>
    simp only [List.mem_append, List.mem_cons, List.not_mem_nil, or_false] at hc
    rcases hc with hc | rfl | rfl | hc | hc | rfl
    · exact .inl (hgap _ hc)
    · exact .inr (.inl (isLetter_of_eqIgnoringCase rfl ho))
    · exact .inr (.inl (isLetter_of_eqIgnoringCase rfl hn))
    · exact .inr (.inl (hletters _ hc))
    · exact .inl (hgap' _ hc)
    · exact .inr (.inr rfl)

theorem notMem (h : AttributeHead head) {c : Char} (hblank : Text.isBlank c = false)
    (hletter : isLetterIgnoringCase c = false) (heq : c ≠ '=') : c ∉ head := by
  intro hc
  rcases h.cases_of_mem hc with hc | hc | rfl
  · rw [hblank] at hc
    cases hc
  · rw [hletter] at hc
    cases hc
  · exact heq rfl

/-- The beginning of an event attribute goes from a blank to an equals sign. -/
theorem exists_between (h : AttributeHead head) :
    ∃ b name, head = b :: (name ++ ['=']) ∧ Text.isBlank b = true := by
  cases h with
  | @intro gap letters gap' o n hne hgap =>
    obtain ⟨b, gap, rfl⟩ := List.exists_cons_of_ne_nil hne
    exact ⟨b, gap ++ (o :: n :: (letters ++ gap')), by simp, hgap b List.mem_cons_self⟩

end AttributeHead

/-- A text without an equals sign is quiet. -/
theorem quiet_of_notMem (h : '=' ∉ cs) : Quiet cs := by
  rintro left head right rfl hhead
  obtain ⟨b, name, rfl, -⟩ := hhead.exists_between
  simp at h

/-! ### What is found -/

/-- A text between two equal quotation marks. -/
def quotedBy (mark : Char) : Pattern :=
  .seq (char mark) (.seq (.many (noneOf [mark])) (char mark))

/-- The pattern of a value. -/
def valuePattern : Pattern :=
  .alt (quotedBy '"') (.alt (quotedBy '\'') (many1 isBare))

theorem eventAttribute_eq :
    eventAttribute = .seq blanks1 (.seq (literalIgnoringCase "on")
      (.seq (many1 isLetterIgnoringCase) (.seq blanks (.seq (char '=') (.seq blanks
        valuePattern))))) := rfl

theorem noneOf_iff {mark c : Char} : noneOf [mark] c = true ↔ c ≠ mark := by
  simp [noneOf]

section Running

variable {α : Type} {next : Place → List (Nat × Span) → Option α} {groups : List (Nat × Span)}

theorem run_quotedBy {mark : Char} {value : List Char} (h : mark ∉ value) :
    (quotedBy mark).run ⟨before, mark :: (value ++ [mark]) ++ rest⟩ groups next =
      next ⟨some mark, rest⟩ groups := by
  have hvalue : ∀ c ∈ value, noneOf [mark] c = true := fun c hc =>
    noneOf_iff.2 fun heq => h (heq ▸ hc)
  rw [quotedBy, run, List.cons_append, run_char, run, List.append_assoc,
    run_many_of_exact hvalue (by simp [noneOf])]
  · exact run_char mark _ rest
  · intro before c rest hc
    exact run_char_of_ne (noneOf_iff.1 hc) before rest

/-- Nothing is quoted where no second quotation mark follows. -/
theorem run_quotedBy_eq_none {mark c : Char} {cs : List Char} (h : c = mark → mark ∉ cs) :
    (quotedBy mark).run ⟨before, c :: cs⟩ groups next = none := by
  refine run_eq_none fun q groups' hcovers => ?_
  obtain ⟨p₁, _, ⟨d, hrest, -, hd, rfl⟩, p₂, _, ⟨hruns, rfl⟩, ⟨e, hrest', -, he, rfl⟩⟩ := hcovers
  obtain ⟨value, hvalue, -⟩ := hruns.exists_append
  obtain ⟨rfl, rfl⟩ := List.cons.inj hrest
  refine absurd ?_ (h (eq_of_beq hd))
  rw [hvalue, hrest', eq_of_beq he]
  simp

/-- **What is found as the value of an attribute.** -/
theorem run_valuePattern {value : List Char} (h : AttributeValue value rest)
    (f : Place → List (Nat × Span) → α) :
    valuePattern.run ⟨before, value ++ rest⟩ groups (fun q groups => some (f q groups)) =
      some (f ⟨lastOf before value, rest⟩ groups) := by
  rw [valuePattern, run, run]
  cases h with
  | @quoted mark value rest hmark hvalue =>
    have hlast : lastOf before (mark :: (value ++ [mark])) = some mark := by
      rw [lastOf, lastOf_append]
      rfl
    rcases hmark with rfl | rfl
    · rw [run_quotedBy hvalue, hlast]
    · rw [List.cons_append, run_quotedBy_eq_none (fun heq => absurd heq (by decide)),
        ← List.cons_append,
        run_quotedBy hvalue, hlast]
  | @bare c value rest hvalue hrest hquote =>
    rw [List.cons_append, run_quotedBy_eq_none fun heq => heq ▸ hquote (.inl heq),
      run_quotedBy_eq_none fun heq => heq ▸ hquote (.inr heq), ← List.cons_append,
      run_many1_of_longest (List.cons_ne_nil c value) hvalue hrest rfl]

/-- No value begins with a blank. -/
theorem run_valuePattern_eq_none {c : Char} (hc : Text.isBlank c = true) :
    valuePattern.run ⟨before, c :: rest⟩ groups next = none := by
  have hbare : isBare c = false := by simp [isBare, hc]
  rw [valuePattern, run, run,
    run_quotedBy_eq_none fun heq => absurd heq (ne_of_isBlank hc (by decide)),
    run_quotedBy_eq_none fun heq => absurd heq (ne_of_isBlank hc (by decide)), many1, run, run]
  simp [hbare]

/-- The beginning of an event attribute is passed in one way. -/
theorem run_eventAttribute {head : List Char} (h : AttributeHead head) :
    eventAttribute.run ⟨before, head ++ rest⟩ groups next =
      (Pattern.seq blanks valuePattern).run ⟨some '=', rest⟩ groups next := by
  obtain ⟨hne, hgap, ho, hn, hname, hletters, hgap'⟩ := h
  rename_i gap letters gap' o n
  have hon : Spells "on" [o, n] := .cons ho (.cons hn .nil)
  have hsplit : gap ++ (o :: n :: (letters ++ (gap' ++ ['=']))) ++ rest =
      gap ++ ([o, n] ++ (letters ++ (gap' ++ ('=' :: rest)))) := by simp
  have hstart : ∀ c ∈ ([o, n] ++ (letters ++ (gap' ++ ('=' :: rest)))).head?,
      Text.isBlank c = false := by
    rintro _ ⟨rfl⟩
    exact isBlank_eq_false_of_isLetter (isLetter_of_eqIgnoringCase rfl ho)
  have hbehind : ∀ c ∈ (gap' ++ ('=' :: rest)).head?, isLetterIgnoringCase c = false := by
    intro c hc
    cases gap' with
    | nil =>
      obtain rfl : '=' = c := by simpa using hc
      decide
    | cons d gap' =>
      obtain rfl : d = c := by simpa using hc
      rw [← Bool.not_eq_true]
      intro hletter
      have hblank := hgap' d List.mem_cons_self
      rw [isBlank_eq_false_of_isLetter hletter] at hblank
      cases hblank
  rw [eventAttribute_eq, run, hsplit, blanks1, run_many1_of_exact hne hgap hstart, run,
    run_literalIgnoringCase hon, run, run_many1_of_exact hname hletters hbehind, run, blanks,
    run_many_of_exact hgap' (by simp; decide), run, run_char]
  · intro before c rest hc
    exact run_seq_char_of_ne (ne_of_isBlank hc (by decide)) before rest
  · intro before c rest hc
    have hblank := isBlank_eq_false_of_isLetter hc
    rw [run, blanks]
    exact (run_many_of_exact (List.forall_mem_nil _) (by simpa using hblank)
      (fun before d rest hd => run_seq_char_of_ne (ne_of_isBlank hd (by decide)) before rest)).trans
      (run_seq_char_of_ne (ne_of_isLetter hc (by decide)) _ rest)
  · intro before c rest hc
    refine run_literalIgnoringCase_of_ne (fun letter hletter => ?_) (by decide) before rest
    obtain rfl : 'o' = letter := by simpa using hletter
    rw [← Bool.not_eq_true]
    intro heq
    have hblank := isBlank_eq_false_of_isLetter (isLetter_of_eqIgnoringCase rfl heq)
    rw [hc] at hblank
    cases hblank

end Running

/-- The value of an attribute begins with a bare character. -/
theorem AttributeValue.exists_cons {value : List Char} (h : AttributeValue value rest) :
    ∃ c cs, value = c :: cs ∧ isBare c = true := by
  cases h with
  | quoted hmark =>
    refine ⟨_, _, rfl, ?_⟩
    rcases hmark with rfl | rfl <;> decide
  | bare hvalue => exact ⟨_, _, rfl, hvalue _ List.mem_cons_self⟩

/-- **What is found where an event attribute stands.** -/
theorem matchAt_eventAttribute (h : IsAttribute cs rest) (before : Option Char) :
    eventAttribute.matchAt ⟨before, cs ++ rest⟩ = some ⟨⟨cs ++ rest, rest⟩, []⟩ := by
  obtain ⟨head, gap, value, rfl, hhead, hgap, hvalue⟩ := h
  have hstart : ∀ c ∈ (value ++ rest).head?, Text.isBlank c = false := by
    obtain ⟨c, cs, rfl, hc⟩ := hvalue.exists_cons
    rintro _ ⟨rfl⟩
    simp only [isBare, Bool.and_eq_true, Bool.not_eq_true'] at hc
    exact hc.1
  rw [matchAt, List.append_assoc, run_eventAttribute hhead, List.append_assoc, run, blanks,
    run_many_of_exact hgap hstart, run_valuePattern hvalue]
  intro before c rest hc
  exact run_valuePattern_eq_none hc

/-- Where the beginning of an event attribute is followed by a value, there is an attribute. -/
theorem BeginsAttribute.exists_isAttribute (h : BeginsAttribute cs) :
    ∃ text rest, cs = text ++ rest ∧ IsAttribute text rest := by
  obtain ⟨head, gap, c, rest, rfl, hhead, hgap, hc⟩ := h
  suffices hvalue : ∃ value rest', c :: rest = value ++ rest' ∧ AttributeValue value rest' by
    obtain ⟨value, rest', hsplit, hvalue⟩ := hvalue
    refine ⟨head ++ (gap ++ value), rest', ?_, head, gap, value, rfl, hhead, hgap, hvalue⟩
    rw [hsplit]
    simp only [List.append_assoc]
  by_cases hquote : IsQuotationMark c ∧ c ∈ rest
  · -- the value goes as far as the same mark occurs again
    obtain ⟨value, rest', rfl, hvalue⟩ := List.eq_append_cons_of_mem hquote.2
    exact ⟨c :: (value ++ [c]), rest', by simp, .quoted hquote.1 hvalue⟩
  · refine ⟨c :: rest.takeWhile isBare, rest.dropWhile isBare, ?_, .bare ?_ ?_ ?_⟩
    · rw [List.cons_append, List.takeWhile_append_dropWhile]
    · exact List.forall_mem_cons.2 ⟨hc, List.all_eq_true.1 List.all_takeWhile⟩
    · intro d hd
      have hstop := List.head?_dropWhile_not isBare rest
      rw [hd] at hstop
      exact hstop
    · intro hmark
      rw [List.takeWhile_append_dropWhile]
      exact fun hmem => hquote ⟨hmark, hmem⟩

/-- An event attribute begins with the beginning of one, and a bare character behind it. -/
theorem begins_of_covers {p q : Place} {groups groups' : List (Nat × Span)}
    (h : eventAttribute.Covers p groups q groups') : BeginsAttribute p.rest := by
  rw [eventAttribute_eq] at h
  obtain ⟨p₁, _, hgap, p₂, _, hon, p₃, _, hletters, p₄, _, hgap', p₅, _, ⟨c, hrest₄, -, hc, rfl⟩,
    p₆, _, hgap'', hvalue⟩ := h
  obtain ⟨gap, hne, hall, hrest, rfl⟩ := hgap.exists_many1
  obtain ⟨on, hspells, hrest₁, -, rfl⟩ := hon.literalIgnoringCase
  obtain ⟨letters, hname, hall₂, hrest₂, rfl⟩ := hletters.exists_many1
  obtain ⟨hruns, rfl⟩ := hgap'
  obtain ⟨gap', hrest₃, hall₃⟩ := hruns.exists_append
  obtain ⟨hruns', rfl⟩ := hgap''
  obtain ⟨gap'', hrest₅, hall₅⟩ := hruns'.exists_append
  obtain ⟨d, rest, hrest₆, hd⟩ : ∃ d rest, p₆.rest = d :: rest ∧ isBare d = true := by
    rcases hvalue with ⟨_, _, ⟨d, hrest, -, hd, -⟩, -⟩ | ⟨_, _, ⟨d, hrest, -, hd, -⟩, -⟩ | hvalue
    · exact ⟨d, _, hrest, by rw [eq_of_beq hd]; decide⟩
    · exact ⟨d, _, hrest, by rw [eq_of_beq hd]; decide⟩
    · obtain ⟨d, hrest, -, hd, -⟩ := hvalue.choose_spec.choose_spec.1
      exact ⟨d, _, hrest, hd⟩
  cases hspells with
  | @cons _ o _ on ho hspells =>
    cases hspells with
    | @cons _ n _ on hn hspells =>
      cases hspells
      refine ⟨gap ++ (o :: n :: (letters ++ (gap' ++ ['=']))), gap'', d, rest, ?_,
        .intro hne hall ho hn hname hall₂ hall₃, hall₅, hd⟩
      rw [hrest, hrest₁, hrest₂, hrest₃, hrest₄, hrest₅, hrest₆, eq_of_beq hc]
      simp

/-- **Nothing but event attributes is found.** -/
theorem exists_isAttribute_of_matchAt (h : eventAttribute.matchAt ⟨before, cs⟩ = some m) :
    ∃ text rest, cs = text ++ rest ∧ IsAttribute text rest ∧ m = ⟨⟨cs, rest⟩, []⟩ := by
  obtain ⟨q, hcovers, -⟩ := exists_covers_of_matchAt h
  obtain ⟨text, rest, hcs, hattribute⟩ := (begins_of_covers hcovers).exists_isAttribute
  have hcs' : cs = text ++ rest := hcs
  subst hcs'
  have hfound := matchAt_eventAttribute hattribute before
  rw [h] at hfound
  exact ⟨text, rest, rfl, hattribute, Option.some.inj hfound⟩

/-- **Where an event attribute is found.** -/
theorem matchAt_eventAttribute_eq_none_iff :
    eventAttribute.matchAt ⟨before, cs⟩ = none ↔ ¬ BeginsAttribute cs := by
  constructor
  · intro h hbegins
    obtain ⟨text, rest, rfl, hattribute⟩ := hbegins.exists_isAttribute
    rw [matchAt_eventAttribute hattribute] at h
    cases h
  · intro h
    cases hfound : eventAttribute.matchAt ⟨before, cs⟩ with
    | none => rfl
    | some m =>
      obtain ⟨q, hcovers, -⟩ := exists_covers_of_matchAt hfound
      exact absurd (begins_of_covers hcovers) h

theorem unanchored_eventAttribute : eventAttribute.Unanchored := by
  intro before before' cs
  cases cs <;> rfl

end Syndication.Markup
