import Syndication.Proofs.Markup.Marks
import Syndication.Proofs.Markup.Tokens

/-!
# Replacing within tokens

Each replacement within a line turns some of the characters of the line into the tokens that they
stand for. It does so wherever a mark that it replaces stands between tokens and not inside of one,
and what the mark encloses fits in its place: then the HTML that is left is again that of tokens,
which show the same code and leave the same elements open.

Main statements:

* `exists_becomes_of_replace`: a replacement that keeps apart from tags makes tokens of tokens.
* `marksUp_image`, `marksUp_link`, `marksUp_emphasis`: what the replacements do at a match.
-/

namespace Syndication.Markup.Markdown

open Pattern

variable {pattern : Pattern} {replacement : Match → List Char} {m : Match}
  {fits : List Char → List Char → Prop}
  {tokens tokens' old new old' new' inner front back : List Token} {cs rest text : List Char}
  {pieces : List Piece} {before : Option Char} {p : Place}

/-! ### Tokens in the place of others -/

/-- **Tokens that may take the place of others**: they show the same code, their texts are in their
places, and they leave open what the others leave open. -/
structure Becomes (old new : List Token) : Prop where
  spelled_eq : spelled new = spelled old
  sound : Sound new
  unclosed_eq : ∀ stack stack', unclosed stack old = some stack' → unclosed stack new = some stack'

namespace Becomes

theorem refl (h : Sound tokens) : Becomes tokens tokens where
  spelled_eq := rfl
  sound := h
  unclosed_eq := fun _ _ => id

theorem append (h : Becomes old new) (h' : Becomes old' new') :
    Becomes (old ++ old') (new ++ new') where
  spelled_eq := by rw [spelled_append, spelled_append, h.spelled_eq, h'.spelled_eq]
  sound := List.forall_mem_append.2 ⟨h.sound, h'.sound⟩
  unclosed_eq := fun stack stack' hold => by
    rw [unclosed_append] at hold ⊢
    obtain ⟨between, hfirst, hsecond⟩ := Option.bind_eq_some_iff.1 hold
    rw [h.unclosed_eq stack between hfirst]
    exact h'.unclosed_eq between stack' hsecond

theorem trans (h : Becomes old new) (h' : Becomes new new') : Becomes old new' where
  spelled_eq := h'.spelled_eq.trans h.spelled_eq
  sound := h'.sound
  unclosed_eq := fun stack stack' hold =>
    h'.unclosed_eq stack stack' (h.unclosed_eq stack stack' hold)

/-- The characters of an image become the image. -/
theorem image {description address : List Char} (h : (Token.image description address).Sound) :
    Becomes ((Token.image description address).source.map Token.char)
      [.image description address] where
  spelled_eq := by
    rw [spelled_map_char]
    exact List.append_nil _
  sound := List.forall_mem_singleton.2 h
  unclosed_eq := fun stack stack' hold => by
    rw [unclosed_map_char] at hold
    exact hold

/-- **The marks around nested tokens become the beginning and the end of an element.** -/
theorem element {e : Element} (he : e.Sound) (hinner : Sound inner) (halike : Alike inner tokens)
    (hnested : Nested tokens) :
    Becomes (e.opens.map Token.char ++ (inner ++ e.closes.map Token.char))
      (.opening e :: (inner ++ [.closing e])) where
  spelled_eq := by
    have hopens : Token.spelled (.opening e) = e.opens.map Token.char := rfl
    have hcloses : Token.spelled (.closing e) = e.closes.map Token.char := rfl
    simp [hopens, hcloses]
  sound := by
    refine List.forall_mem_cons.2 ⟨he, List.forall_mem_append.2 ⟨hinner, ?_⟩⟩
    exact List.forall_mem_singleton.2 he
  unclosed_eq := fun stack stack' hold => by
    -- a link within the element may end at another address, but `hold` says that it does end
    have hsome : (unclosed ([] ++ stack) inner).isSome = true := by
      rw [unclosed_append, unclosed_map_char, Option.bind_some, unclosed_append] at hold
      obtain ⟨between, hinner, -⟩ := Option.bind_eq_some_iff.1 hold
      exact Option.isSome_iff_exists.2 ⟨between, hinner⟩
    have hkeep (open_ : List Element) : unclosed open_ inner = some open_ :=
      unclosed_of_alike halike hnested hsome open_
    rw [unclosed_append, unclosed_map_char, Option.bind_some, unclosed_append, hkeep,
      Option.bind_some, unclosed_map_char] at hold
    rw [unclosed_cons, Token.step, Option.bind_some, unclosed_append, hkeep, Option.bind_some,
      unclosed_cons, Token.step, if_pos rfl, ← hold]
    rfl

end Becomes

/-! ### Replacing from match to match -/

/-- **A text that consists of whole tokens.** -/
def Whole (text : List Char) : Prop :=
  ∃ tokens, Sound tokens ∧ html tokens = text

/-- A match in a text: what stands before it, and what its two groups cover. -/
structure Finding where
  before : List Char
  text : List Char
  address : List Char
deriving DecidableEq, Repr

/-- The matches among pieces that stand behind some text. -/
def findingsFrom : List Char → List Piece → List Finding
  | _, [] => []
  | before, .plain c :: pieces => findingsFrom (before ++ [c]) pieces
  | before, .hit m :: pieces =>
    ⟨before, m.group 1, m.group 2⟩ :: findingsFrom (before ++ m.text) pieces

/-- The matches of a pattern in a text. -/
def findings (pattern : Pattern) (text : List Char) : List Finding :=
  findingsFrom [] (pattern.scan text)

theorem mem_findingsFrom (front back : List Piece) (m : Match) (before : List Char) :
    ⟨before ++ front.flatMap Piece.text, m.group 1, m.group 2⟩ ∈
      findingsFrom before (front ++ .hit m :: back) := by
  induction front generalizing before with
  | nil => simp [findingsFrom]
  | cons piece front ih =>
    rw [List.flatMap_cons, ← List.append_assoc, List.cons_append]
    cases piece with
    | plain c => exact ih (before ++ [c])
    | hit m' => exact List.mem_cons_of_mem _ (ih (before ++ m'.text))

/-- **Every match keeps apart from tags**: it stands between tokens, and what it encloses fits. -/
def Apart (pattern : Pattern) (fits : List Char → List Char → Prop) (text : List Char) : Prop :=
  ∀ found ∈ findings pattern text, Whole found.before ∧ fits found.text found.address

/-- **A replacement marks up tokens**: at a match between tokens it puts others in the place of
some. -/
def MarksUp (pattern : Pattern) (replacement : Match → List Char)
    (fits : List Char → List Char → Prop) : Prop :=
  ∀ p m tokens, pattern.matchAt p = some m → fits (m.group 1) (m.group 2) → Sound tokens →
    html tokens = p.rest →
    ∃ old new later, tokens = old ++ later ∧ html old = m.text ∧ html new = replacement m ∧
      Becomes old new

/-- A place between tokens behind some of them is a place between those that follow. -/
theorem exists_append_of_between {a b : List Token} (h : front ++ back = a ++ b)
    (hhtml : html a = html front ++ text) : ∃ middle, back = middle ++ b ∧ html middle = text := by
  rcases List.append_eq_append_iff.1 h with ⟨middle, rfl, hback⟩ | ⟨middle, rfl, rfl⟩
  · refine ⟨middle, hback, ?_⟩
    rw [html_append] at hhtml
    exact List.append_cancel_left hhtml
  · rw [html_append, List.append_assoc] at hhtml
    obtain ⟨hmiddle, htext⟩ := List.append_eq_nil_iff.1 (List.self_eq_append_right.1 hhtml)
    cases middle with
    | nil => exact ⟨[], rfl, htext.symm⟩
    | cons t middle => exact absurd (List.append_eq_nil_iff.1 hmiddle).1 t.html_ne_nil

/-- From a place between tokens on, a replacement makes tokens of tokens. -/
theorem exists_becomes_of_pieces (hmarks : MarksUp pattern replacement fits)
    (htokens : Sound tokens) (hscan : pattern.scanFrom 0 before (html tokens) = pieces)
    (hapart : ∀ front m back, pieces = front ++ .hit m :: back →
      (∃ a b, tokens = a ++ b ∧ html a = front.flatMap Piece.text) ∧
        fits (m.group 1) (m.group 2)) :
    ∃ new, html new = pieces.flatMap (Piece.render replacement) ∧ Becomes tokens new := by
  -- the pieces up to the first match are passed at once, since tokens need not end between them
  induction hlength : pieces.length using Nat.strongRecOn
    generalizing pieces before tokens with | ind n ih
  have htext := flatMap_text_scanFrom pattern 0 before (html tokens)
  rw [hscan, List.drop_zero] at htext
  obtain ⟨cs, rfl⟩ | ⟨cs, m, back, rfl⟩ := exists_first_hit pieces
  · refine ⟨tokens, ?_, .refl htokens⟩
    rw [← htext, flatMap_text_map_plain, flatMap_render_map_plain]
  obtain ⟨⟨a, b, rfl, ha⟩, hfits⟩ := hapart _ m back rfl
  obtain ⟨hsound, hsound'⟩ := List.forall_mem_append.1 htokens
  rw [html_append, ha, List.flatMap_append] at htext
  have hb := List.append_cancel_left htext
  obtain ⟨before', hback⟩ := exists_scanFrom_of_append hscan
  obtain ⟨hfound, -⟩ := matchAt_of_hit hback
  obtain ⟨old, new, later, rfl, hold, hnew, hbecomes⟩ := hmarks _ m b hfound hfits hsound' hb.symm
  -- the search goes on between tokens
  have hlater : html later = back.flatMap Piece.text := by
    rw [html_append, hold] at hb
    exact (List.append_cancel_left hb).symm
  obtain ⟨before'', hnext⟩ := exists_scanFrom_of_append
    (show _ = (cs.map Piece.plain ++ [.hit m]) ++ back by rw [hscan]; simp)
  rw [← hlater] at hnext
  obtain ⟨new', hnew', hbecomes'⟩ := ih back.length (by simp [← hlength]; omega)
    (List.forall_mem_append.1 hsound').2 hnext (fun front m' back' hsplit => by
      obtain ⟨⟨a', b', htokens', ha'⟩, hfits'⟩ :=
        hapart (cs.map Piece.plain ++ .hit m :: front) m' back' (by rw [hsplit]; simp)
      rw [← List.append_assoc] at htokens'
      have hbetween : html a' = html (a ++ old) ++ front.flatMap Piece.text := by
        rw [ha', html_append, ha, hold]
        simp [Piece.text]
      obtain ⟨middle, rfl, hmiddle⟩ := exists_append_of_between htokens' hbetween
      exact ⟨⟨middle, b', rfl, hmiddle⟩, hfits'⟩) rfl
  refine ⟨a ++ (new ++ new'), ?_, .append (.refl hsound) (hbecomes.append hbecomes')⟩
  rw [html_append, html_append, ha, hnew, hnew']
  simp [Piece.render]

/-- **A replacement that keeps apart from tags makes tokens of tokens.** -/
theorem exists_becomes_of_replace (hmarks : MarksUp pattern replacement fits)
    (htokens : Sound tokens) (hapart : Apart pattern fits (html tokens)) :
    ∃ new, html new = pattern.replace replacement (html tokens) ∧ Becomes tokens new := by
  refine exists_becomes_of_pieces hmarks htokens rfl fun front m back hsplit => ?_
  have hscan : pattern.scan (html tokens) = front ++ .hit m :: back := hsplit
  obtain ⟨⟨a, hsound, ha⟩, hfits⟩ :=
    hapart _ (by rw [findings, hscan]; exact mem_findingsFrom front back m [])
  have ha : html a = front.flatMap Piece.text := ha
  have htext : (pattern.scan (html tokens)).flatMap Piece.text = html tokens :=
    flatMap_text_scan pattern (html tokens)
  rw [hscan, List.flatMap_append, ← ha] at htext
  obtain ⟨a', b, rfl, halike, -⟩ := exists_append_of_html htokens hsound htext.symm
  exact ⟨⟨a', b, rfl, by rw [halike.html_eq, ha]⟩, hfits⟩

/-! ### What the replacements of a line do -/

/-- **A text in which elements are nested.** -/
def WellFormed (text : List Char) : Prop :=
  ∃ tokens, Sound tokens ∧ html tokens = text ∧ Nested tokens

/-- Marks around a text in which elements are nested become an element. -/
theorem exists_element {e : Element} (he : e.Sound) (htext : WellFormed text)
    (htokens : Sound tokens)
    (h : html tokens = Entity.encode e.opens ++ (text ++ Entity.encode e.closes) ++ rest) :
    ∃ old new later, tokens = old ++ later ∧
      html old = Entity.encode e.opens ++ (text ++ Entity.encode e.closes) ∧
      html new = e.startTag ++ (text ++ e.endTag) ∧ Becomes old new := by
  obtain ⟨within, hwithin, rfl, hnested⟩ := htext
  rw [List.append_assoc, List.append_assoc] at h
  obtain ⟨back, rfl, hsound, hback⟩ := exists_append_of_encode htokens h
  obtain ⟨inner, back, rfl, hinner, hback⟩ := exists_append_of_html hsound hwithin hback
  obtain ⟨hinside, hsound⟩ := List.forall_mem_append.1 hsound
  obtain ⟨later, rfl, -, -⟩ := exists_append_of_encode hsound hback
  refine ⟨e.opens.map Token.char ++ (inner ++ e.closes.map Token.char),
    .opening e :: (inner ++ [.closing e]), later, by simp, ?_, ?_,
    .element he hinside hinner hnested⟩
  · rw [html_append, html_append, html_map_char, html_map_char, hinner.html_eq]
  · rw [html_cons, html_append, hinner.html_eq, html_cons, html_nil, List.append_nil]
    rfl

/-- Emphasis, strong or plain, marks up what stands between its marks. -/
theorem marksUp_emphasis {e : Element} {opening closing : String} {mark body : Pattern}
    {P : List Char → Prop} (he : e.Sound) (hopens : Recognizes (· = Entity.encode e.opens) mark)
    (hcloses : Recognizes (· = Entity.encode e.closes) mark) (hbody : Recognizes P body)
    (hopening : opening.toList = e.startTag) (hclosing : closing.toList = e.endTag) :
    MarksUp (sequence [mark, .group 1 body, mark]) (between opening closing)
      (fun text _ => WellFormed text) := by
  intro p m tokens hfound hfits htokens hhtml
  obtain ⟨text, rest, hrest, hwhole, rfl, -⟩ :=
    exists_between_of_matchAt hopens hbody hcloses hfound
  rw [hrest] at hhtml hwhole
  obtain ⟨old, new, later, rfl, hold, hnew, hbecomes⟩ :=
    exists_element he hfits htokens hhtml
  refine ⟨old, new, later, rfl, by rw [hold, text_of_whole hwhole], ?_, hbecomes⟩
  rw [hnew, between, hopening, hclosing, List.append_assoc]

theorem marksUp_strong : MarksUp strong (between "<strong>" "</strong>")
    (fun text _ => WellFormed text) :=
  marksUp_emphasis (e := .strong) trivial (recognizes_literal "**") (recognizes_literal "**")
    (recognizes_many1 _) rfl rfl

theorem marksUp_plain : MarksUp emphasis (between "<em>" "</em>")
    (fun text _ => WellFormed text) :=
  marksUp_emphasis (e := .emphasis) trivial (recognizes_char '*') (recognizes_char '*')
    (recognizes_many1 _) rfl rfl

/-- An address that fits in its place as it is written fits in its place. -/
theorem isAddress_of_encode {address : List Char} (hne : Entity.encode address ≠ [])
    (h : ∀ c ∈ Entity.encode address, c ≠ ')' ∧ Text.isBlank c = false) : IsAddress address where
  ne_nil := fun hnil => hne (by rw [hnil]; rfl)
  fits := fun c hc => by
    by_cases hreference : c ∈ referenceChars
    · have hbracket : ')' ∉ referenceChars := by decide
      have hnone : referenceChars.any Text.isBlank = false := by decide
      exact ⟨fun heq => hbracket (heq ▸ hreference),
        Bool.eq_false_iff.2 (List.any_eq_false.1 hnone c hreference)⟩
    · exact h c ((mem_encode_iff hreference).2 hc)

/-- What stands in the parentheses behind tokens is the written form of an address. -/
theorem exists_address {address : List Char} (htokens : Sound tokens) (hfront : Sound front)
    (h : html tokens = html front ++ ']' :: '(' :: (address ++ [')']) ++ rest)
    (htag : '<' ∉ address) (hne : address ≠ [])
    (haddress : ∀ c ∈ address, c ≠ ')' ∧ Text.isBlank c = false) :
    ∃ written, Entity.encode written = address ∧ IsAddress written := by
  have hmarks : Sound (front ++ [']', '('].map Token.char) :=
    List.forall_mem_append.2 ⟨hfront, sound_map_char _⟩
  have hsplit : html tokens =
      html (front ++ [']', '('].map Token.char) ++ (address ++ ')' :: rest) := by
    have hencode : Entity.encode [']', '('] = [']', '('] := rfl
    rw [h, html_append, html_map_char, hencode]
    simp
  obtain ⟨-, back, -, -, hback⟩ := exists_append_of_html htokens hmarks hsplit
  obtain ⟨written, -, rfl, -, -⟩ :=
    exists_chars_of_html (by decide) hback htag
  exact ⟨written, rfl, isAddress_of_encode hne haddress⟩

theorem encode_closes_link (address : List Char) :
    Entity.encode (Element.link address).closes =
      ']' :: '(' :: (Entity.encode address ++ [')']) := by
  have hcloses : (Element.link address).closes = [']', '('] ++ (address ++ [')']) := rfl
  rw [hcloses, Entity.encode_append, Entity.encode_append]
  rfl

theorem marksUp_link : MarksUp link linkTags
    (fun text address => WellFormed text ∧ '<' ∉ address) := by
  rintro p m tokens hfound ⟨hfits, htag⟩ htokens hhtml
  obtain ⟨text, address, rest, hrest, hwhole, rfl, rfl, -, hne, haddress⟩ :=
    exists_address_of_matchAt (recognizes_char '[') (recognizes_many1 _) hfound
  rw [hrest] at hhtml hwhole
  -- the tokens of the text say where the address begins; the element is made of them further down
  obtain ⟨within, hwithin, hgroup, -⟩ := id hfits
  obtain ⟨written, hwritten, hsound⟩ := exists_address htokens
    (List.forall_mem_cons.2 ⟨trivial, hwithin⟩ : Sound (.char '[' :: within))
    (by rw [hhtml, ← hgroup, ← List.append_assoc]; rfl) htag hne haddress
  have hcloses := encode_closes_link written
  rw [hwritten] at hcloses
  obtain ⟨old, new, later, rfl, hold, hnew, hbecomes⟩ :=
    exists_element (e := .link written) hsound hfits htokens (by rw [hhtml, hcloses]; rfl)
  refine ⟨old, new, later, rfl, ?_, ?_, hbecomes⟩
  · rw [hold, text_of_whole hwhole, hcloses]
    rfl
  · have htags : linkTags m = "<a href=\"".toList ++ m.group 2 ++ "\">".toList ++ m.group 1 ++
        "</a>".toList := rfl
    have hend : (Element.link written).endTag = "</a>".toList := rfl
    rw [hnew, htags, Element.startTag_link, hend, hwritten]
    simp only [List.append_assoc]

theorem encode_source_image (description address : List Char) :
    Entity.encode (Token.image description address).source =
      "![".toList ++ (Entity.encode description ++ ']' :: '(' ::
        (Entity.encode address ++ [')'])) := by
  have hsource : (Token.image description address).source =
      "![".toList ++ (description ++ ([']', '('] ++ (address ++ [')']))) := rfl
  rw [hsource, Entity.encode_append, Entity.encode_append, Entity.encode_append,
    Entity.encode_append]
  rfl

theorem marksUp_image : MarksUp image imageTag
    (fun description address => '<' ∉ description ∧ '<' ∉ address) := by
  rintro p m tokens hfound ⟨hfits, htag⟩ htokens hhtml
  obtain ⟨text, address, rest, hrest, hwhole, rfl, rfl, hdescription, hne, haddress⟩ :=
    exists_address_of_matchAt (recognizes_literal "![") (recognizes_many _) hfound
  rw [hrest] at hhtml hwhole
  have hmarks : Entity.encode "![".toList = "![".toList := rfl
  -- no tag stands in the description, so it is the written form of characters
  obtain ⟨description, hwritten⟩ : ∃ description, Entity.encode description = m.group 1 := by
    have hsplit : html tokens = Entity.encode "![".toList ++
        (m.group 1 ++ ']' :: ('(' :: (m.group 2 ++ [')']) ++ rest)) := by
      rw [hhtml, hmarks, List.append_assoc, List.append_assoc]
      rfl
    obtain ⟨back, -, -, hback⟩ := exists_append_of_encode htokens hsplit
    obtain ⟨description, -, hdescription, -, -⟩ :=
      exists_chars_of_html (by decide) hback hfits
    exact ⟨description, hdescription⟩
  obtain ⟨address, hwritten', haddress⟩ := exists_address htokens
    (sound_map_char ("![".toList ++ description)) (by
      rw [html_map_char, Entity.encode_append, hmarks, hwritten, hhtml, ← List.append_assoc])
    htag hne haddress
  have hsource := encode_source_image description address
  rw [hwritten, hwritten'] at hsource
  obtain ⟨later, rfl, -, -⟩ := exists_append_of_encode htokens (hhtml.trans (by rw [← hsource]))
  refine ⟨_, _, later, rfl, ?_, ?_, .image ⟨fun hmem => ?_, haddress⟩⟩
  · rw [html_map_char, hsource, text_of_whole hwhole]
  · have htag : imageTag m = "<img src=\"".toList ++ m.group 2 ++ "\" alt=\"".toList ++ m.group 1 ++
        "\">".toList := rfl
    rw [html_cons, html_nil, List.append_nil, Token.html_image, htag, hwritten, hwritten']
    simp only [List.append_assoc]
  · have hbracket := hdescription ']' (hwritten ▸ (mem_encode_iff (by decide)).2 hmem)
    cases hbracket

end Syndication.Markup.Markdown
