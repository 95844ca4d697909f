import Syndication.Markup.Html
import Syndication.Proofs.Markup.EventAttribute

/-!
# Texts without tags

Behind the preformatted text, each pattern that turns HTML into Markdown looks for a tag: an angle
bracket, something in the tag, and later the bracket that ends a tag. A text in which nothing of
that kind stands passes all of these replacements as it is, and so does text whose angle brackets
never meet, as those of a comparison.

Main statements:

* `TagLike.allMatches_eq_nil`: a pattern of tags finds nothing in a text without tags.
* `Html.markUp_eq`: only preformatted text is replaced in a text without tags.
-/

namespace Syndication

namespace Pattern

/-- **Every way to match passes a certain character.** -/
def Needs (c : Char) : Pattern → Prop
  | .one accepts => ∀ d, accepts d = true → d = c
  | .seq first second => first.Needs c ∨ second.Needs c
  | .alt first second => first.Needs c ∧ second.Needs c
  | .group _ body => body.Needs c
  | _ => False

/-- **Every way to match begins with a character of a class.** -/
def Begins (P : Char → Prop) : Pattern → Prop
  | .one accepts => ∀ d, accepts d = true → P d
  | .seq first _ => first.Begins P
  | .alt first second => first.Begins P ∧ second.Begins P
  | .group _ body => body.Begins P
  | _ => False

variable {pattern : Pattern} {p q : Place} {groups groups' : List (Nat × Span)} {c : Char}
  {P : Char → Prop}

theorem Needs.mem_rest (h : pattern.Needs c) (hcovers : pattern.Covers p groups q groups') :
    c ∈ p.rest := by
  induction pattern generalizing p groups q groups' with
  | one accepts =>
    obtain ⟨d, hrest, -, hd, -⟩ := hcovers
    rw [hrest, h d hd]
    exact List.mem_cons_self
  | seq first second ih₁ ih₂ =>
    obtain ⟨m, between, hfirst, hsecond⟩ := hcovers
    rcases h with h | h
    · exact ih₁ h hfirst
    · obtain ⟨cs, hrest, -⟩ := hfirst.exists_append
      rw [hrest]
      exact List.mem_append_right cs (ih₂ h hsecond)
  | alt first second ih₁ ih₂ =>
    rcases hcovers with hcovers | hcovers
    · exact ih₁ h.1 hcovers
    · exact ih₂ h.2 hcovers
  | group number body ih =>
    obtain ⟨inner, hbody, -⟩ := hcovers
    exact ih h hbody
  | empty | many accepts | few accepts | wordEdge | textStart | textEnd => exact h.elim

theorem Begins.exists_cons (h : pattern.Begins P) (hcovers : pattern.Covers p groups q groups') :
    ∃ d rest, p.rest = d :: rest ∧ P d := by
  induction pattern generalizing p groups q groups' with
  | one accepts =>
    obtain ⟨d, hrest, -, hd, -⟩ := hcovers
    exact ⟨d, q.rest, hrest, h d hd⟩
  | seq first second ih₁ ih₂ =>
    obtain ⟨m, between, hfirst, -⟩ := hcovers
    exact ih₁ h hfirst
  | alt first second ih₁ ih₂ =>
    rcases hcovers with hcovers | hcovers
    · exact ih₁ h.1 hcovers
    · exact ih₂ h.2 hcovers
  | group number body ih =>
    obtain ⟨inner, hbody, -⟩ := hcovers
    exact ih h hbody
  | empty | many accepts | few accepts | wordEdge | textStart | textEnd => exact h.elim

theorem needs_char (c : Char) : (char c).Needs c :=
  fun _ hd => eq_of_beq hd

end Pattern

namespace Markup

open Pattern

/-- **A text begins like a tag**: with something behind an angle bracket, and a bracket that ends a
tag. -/
def BeginsTag (cs : List Char) : Prop :=
  ∃ d rest, cs = '<' :: d :: rest ∧ d ≠ '>' ∧ '>' ∈ rest

/-- **A text in which nothing looks like a tag.** -/
def TagFree (text : List Char) : Prop :=
  ∀ before after, text = before ++ after → ¬ BeginsTag after

/-- **A pattern of tags**: it matches only what begins like a tag. -/
def TagLike (pattern : Pattern) : Prop :=
  ∀ p groups q groups', pattern.Covers p groups q groups' → BeginsTag p.rest

variable {text : List Char} {pattern rest : Pattern}

/-- **A pattern of tags finds nothing in a text without tags.** -/
theorem TagLike.allMatches_eq_nil (h : TagLike pattern) (htext : TagFree text) :
    pattern.allMatches text = [] := by
  refine Pattern.allMatches_eq_nil fun front c back hsplit before => ?_
  refine run_eq_none fun q groups' hcovers => ?_
  exact absurd (h _ _ _ _ hcovers) (htext front (c :: back) hsplit)

theorem TagFree.append {front back : List Char} (h : TagFree text) (hfront : '<' ∉ front)
    (hback : '>' ∉ back) : TagFree (front ++ (text ++ back)) := by
  rintro before _ hsplit ⟨d, rest, rfl, hd, hrest⟩
  obtain ⟨inside, after, rfl⟩ := List.append_of_mem hrest
  have htag : front ++ (text ++ back) = before ++ '<' :: (d :: inside ++ '>' :: after) := hsplit
  obtain ⟨left, right, htext⟩ := exists_append_between htag hfront hback
  exact h left _ htext ⟨d, inside ++ '>' :: right, rfl, hd, by simp⟩

/-- A text without an angle bracket that ends a tag has no tags. -/
theorem tagFree_of_notMem (h : '>' ∉ text) : TagFree text := by
  rintro before _ rfl ⟨d, rest, rfl, -, hrest⟩
  exact h (by simp [hrest])

/-! ### Patterns of tags -/

theorem eq_lt_of_eqIgnoringCase {c : Char} (h : eqIgnoringCase '<' c = true) : c = '<' := by
  have hlower : c.toLower = '<' := by simpa [eqIgnoringCase] using h
  by_cases hupper : c.val ≥ 'A'.val ∧ c.val ≤ 'Z'.val
  · -- a capital letter in lower case lies behind the angle bracket
    have hval : c.val + ('a'.val - 'A'.val) = '<'.val := by
      have hshift : c.toLower = ⟨c.val + ('a'.val - 'A'.val), _⟩ := dif_pos hupper
      rw [← hlower, hshift]
    have hnat := congrArg UInt32.toNat hval
    rw [UInt32.toNat_add] at hnat
    have hleast : 65 ≤ c.val.toNat := UInt32.le_iff_toNat_le.1 hupper.1
    have hgreatest : c.val.toNat ≤ 90 := UInt32.le_iff_toNat_le.1 hupper.2
    have hdistance : ('a'.val - 'A'.val).toNat = 32 := rfl
    have hbracket : '<'.val.toNat = 60 := rfl
    omega
  · have hsame : c.toLower = c := dif_neg hupper
    rw [← hsame, hlower]

theorem ne_gt_of_eqIgnoringCase {letter c : Char} (hletter : letter.isLower = true)
    (h : eqIgnoringCase letter c = true) : c ≠ '>' :=
  ne_of_isLetter (isLetter_of_eqIgnoringCase hletter h) (by decide)

/-- A tag that begins with its bracket. -/
theorem tagLike_char (hbegins : rest.Begins (· ≠ '>')) (hneeds : rest.Needs '>') :
    TagLike (.seq (char '<') rest) := by
  rintro p groups q groups' ⟨m, _, ⟨c, hopening, -, hc, rfl⟩, hrest⟩
  obtain ⟨d, after, hm, hd⟩ := hbegins.exists_cons hrest
  have hmem := hneeds.mem_rest hrest
  rw [hm] at hmem
  refine ⟨d, after, by rw [hopening, hm, eq_of_beq hc], hd, ?_⟩
  exact (List.mem_cons.1 hmem).resolve_left hd.symm

/-- A tag that begins with its bracket and a letter. -/
theorem tagLike_literalIgnoringCase {s : String} {letter : Char} {letters : List Char}
    (hs : s.toList = '<' :: letter :: letters) (hletter : letter.isLower = true)
    (hneeds : rest.Needs '>') : TagLike (.seq (literalIgnoringCase s) rest) := by
  rintro p groups q groups' ⟨m, _, hopening, hrest⟩
  obtain ⟨cs, hspells, hp, -⟩ := hopening.literalIgnoringCase
  rw [Spells, hs] at hspells
  cases hspells with
  | @cons _ bracket _ cs hbracket hspells =>
    cases hspells with
    | @cons _ d _ cs hd hspells =>
      obtain rfl := eq_lt_of_eqIgnoringCase hbracket
      exact ⟨d, cs ++ m.rest, by rw [hp]; rfl, ne_gt_of_eqIgnoringCase hletter hd,
        List.mem_append_right cs (hneeds.mem_rest hrest)⟩

theorem begins_literalIgnoringCase {s : String} (hs : s.toList.head?.any Char.isLower = true) :
    (literalIgnoringCase s).Begins (· ≠ '>') := by
  unfold literalIgnoringCase
  generalize s.toList = letters at hs
  cases letters with
  | nil => cases hs
  | cons letter letters => exact fun d hd => ne_gt_of_eqIgnoringCase hs hd

namespace Html

theorem needs_tagRest : tagRest.Needs '>' :=
  .inr (needs_char '>')

theorem tagLike_heading : TagLike heading :=
  tagLike_literalIgnoringCase rfl rfl (.inr (.inl needs_tagRest))

theorem tagLike_image : TagLike image :=
  tagLike_literalIgnoringCase rfl rfl (.inr (.inr (.inr needs_tagRest)))

theorem tagLike_link : TagLike link :=
  tagLike_literalIgnoringCase rfl rfl (.inr (.inr (.inr (.inl needs_tagRest))))

/-- Between two tags of one of two names. -/
theorem tagLike_paired {long short : String} (hlong : long.toList.head?.any Char.isLower = true)
    (hshort : short.toList.head?.any Char.isLower = true) : TagLike (paired long short) :=
  tagLike_char ⟨begins_literalIgnoringCase hlong, begins_literalIgnoringCase hshort⟩
    (.inr (.inl (needs_char '>')))

theorem tagLike_tagged {name : String} (hname : name.toList.head?.any Char.isLower = true) :
    TagLike (tagged name) :=
  tagLike_char (begins_literalIgnoringCase hname) (.inr (.inl needs_tagRest))

theorem tagLike_lineBreak : TagLike lineBreak :=
  tagLike_literalIgnoringCase rfl rfl (.inr (.inr (needs_char '>')))

theorem tagLike_blockEnd : TagLike blockEnd := by
  rintro p groups q groups' ⟨m, _, hopening, hrest⟩
  obtain ⟨hp, -⟩ := hopening.literal
  have hneeds : (Pattern.seq (choice [literalIgnoringCase "p", literalIgnoringCase "div",
      literalIgnoringCase "ul", literalIgnoringCase "ol", literalIgnoringCase "blockquote",
      .seq (literalIgnoringCase "h") headingDigit]) (char '>')).Needs '>' := .inr (needs_char '>')
  exact ⟨'/', m.rest, hp, by decide, hneeds.mem_rest hrest⟩

theorem tagLike_anyTag : TagLike anyTag :=
  tagLike_char (fun _ hd => noneOf_iff.1 hd) (.inr (needs_char '>'))

/-- **Only preformatted text is replaced in a text without tags.** -/
theorem markUp_eq {html : List Char} (hcode : preformatted.replace fenced html = text)
    (h : TagFree text) : markUp html = text := by
  have hleft {pattern : Pattern} (hpattern : TagLike pattern) (replacement : Match → List Char) :
      pattern.replace replacement text = text :=
    replace_of_allMatches_eq_nil (hpattern.allMatches_eq_nil h)
  have hstrong := hleft (tagLike_paired (by decide) (by decide) : TagLike (paired "strong" "b"))
  have hem := hleft (tagLike_paired (by decide) (by decide) : TagLike (paired "em" "i"))
  have hspan := hleft (tagLike_tagged (by decide) : TagLike (tagged "code"))
  have hitem := hleft (tagLike_tagged (by decide) : TagLike (tagged "li"))
  rw [markUp, hcode]
  simp only [hleft tagLike_heading, hleft tagLike_image, hleft tagLike_link, hstrong, hem, hspan,
    hitem, hleft tagLike_lineBreak, hleft tagLike_blockEnd]
  exact hleft tagLike_anyTag _

end Html

end Markup

end Syndication
