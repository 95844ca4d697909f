import Mathlib.Data.List.Forall2
import Syndication.Markup.Markdown
import Syndication.Proofs.Text.Scanning

/-!
# Tokens within a line

What the markup of a line ought to make of it is a list of tokens: characters, code, images, and
the beginnings and ends of links and of emphasis. The tokens say how the line was written in
Markdown and what it is in HTML. In HTML no token begins another one, so a text can be read as
tokens in one way only, but for the destination at the end of a link, which HTML does not repeat.

Main statements:

* `Renders`: a text is the HTML of a line.
* `Token.alike_of_append`: in HTML no token begins another one.
* `exists_append_of_html`: a part of a text that consists of whole tokens is a part of its tokens.
* `exists_chars_of_html`: what stands before a mark, if no tag does, consists of characters.
* `unclosed_of_alike`: what is nested on its own is nested wherever it stands.
-/

namespace Syndication.Markup.Markdown

open Pattern

/-- An element with a beginning and an end within a line. -/
inductive Element where
  | strong
  | emphasis
  | link (address : List Char)
deriving DecidableEq, Repr

/-- The marks with which an element begins. -/
def Element.opens : Element → List Char
  | .strong => ['*', '*']
  | .emphasis => ['*']
  | .link _ => ['[']

/-- The marks with which an element ends. -/
def Element.closes : Element → List Char
  | .strong => ['*', '*']
  | .emphasis => ['*']
  | .link address => ']' :: '(' :: (address ++ [')'])

/-- The tag with which an element begins. -/
def Element.startTag : Element → List Char
  | .strong => "<strong>".toList
  | .emphasis => "<em>".toList
  | .link address => "<a href=\"".toList ++ (Entity.encode address ++ "\">".toList)

/-- The tag with which an element ends. -/
def Element.endTag : Element → List Char
  | .strong => "</strong>".toList
  | .emphasis => "</em>".toList
  | .link _ => "</a>".toList

theorem Element.startTag_link (address : List Char) : (Element.link address).startTag =
    "<a href=\"".toList ++ (Entity.encode address ++ "\">".toList) := rfl

/-- **A token**: a part of a line that cannot be divided. -/
inductive Token where
  | char (c : Char)
  | code (text : List Char)
  | image (description address : List Char)
  | opening (e : Element)
  | closing (e : Element)
deriving DecidableEq, Repr

/-- A token in Markdown. -/
def Token.source : Token → List Char
  | .char c => [c]
  | .code text => '\x60' :: (text ++ ['\x60'])
  | .image description address => '!' :: '[' :: (description ++ ']' :: '(' :: (address ++ [')']))
  | .opening e => e.opens
  | .closing e => e.closes

/-- A token in HTML. -/
def Token.html : Token → List Char
  | .char c => Entity.encodeChar c
  | .code text => "<code>".toList ++ (Entity.encode text ++ "</code>".toList)
  | .image description address => "<img src=\"".toList ++ (Entity.encode address ++
      ("\" alt=\"".toList ++ (Entity.encode description ++ "\">".toList)))
  | .opening e => e.startTag
  | .closing e => e.endTag

/-- Tokens in Markdown. -/
def source (tokens : List Token) : List Char :=
  tokens.flatMap Token.source

/-- Tokens in HTML. -/
def html (tokens : List Token) : List Char :=
  tokens.flatMap Token.html

/-- **An address fits in its place**, which is in parentheses. -/
structure IsAddress (address : List Char) : Prop where
  ne_nil : address ≠ []
  fits : ∀ c ∈ address, c ≠ ')' ∧ Text.isBlank c = false

instance : DecidablePred IsAddress := fun address =>
  decidable_of_iff
    (address ≠ [] ∧ address.all (fun c => c ≠ ')' ∧ Text.isBlank c = false) = true)
    ⟨fun h => ⟨h.1, by simpa using h.2⟩, fun h => ⟨h.ne_nil, by simpa using h.fits⟩⟩

/-- The address of an element fits in its place. -/
def Element.Sound : Element → Prop
  | .link address => IsAddress address
  | _ => True

instance : DecidablePred Element.Sound
  | .link address => inferInstanceAs (Decidable (IsAddress address))
  | .strong | .emphasis => inferInstanceAs (Decidable True)

/-- **The texts of a token fit in their places.** -/
def Token.Sound : Token → Prop
  | .char _ => True
  | .code text => text ≠ [] ∧ '\x60' ∉ text
  | .image description address => ']' ∉ description ∧ IsAddress address
  | .opening e => e.Sound
  | .closing e => e.Sound

instance : DecidablePred Token.Sound
  | .char _ => inferInstanceAs (Decidable True)
  | .code text => inferInstanceAs (Decidable (text ≠ [] ∧ '\x60' ∉ text))
  | .image description address =>
    inferInstanceAs (Decidable (']' ∉ description ∧ IsAddress address))
  | .opening e | .closing e => inferInstanceAs (Decidable e.Sound)

/-- The texts of all tokens fit in their places. -/
def Sound (tokens : List Token) : Prop :=
  ∀ t ∈ tokens, t.Sound

instance : DecidablePred Sound := fun tokens =>
  inferInstanceAs (Decidable (∀ t ∈ tokens, t.Sound))

/-- The elements that are open behind a token, the last one first. An element ends only when it is
the last one that is open. -/
def Token.step : Token → List Element → Option (List Element)
  | .opening e, stack => some (e :: stack)
  | .closing e, e' :: stack => if e = e' then some stack else none
  | .closing _, [] => none
  | _, stack => some stack

/-- The elements that are open behind tokens. -/
def unclosed (stack : List Element) (tokens : List Token) : Option (List Element) :=
  tokens.foldlM (fun stack t => t.step stack) stack

/-- **Elements are properly nested** in tokens. -/
def Nested (tokens : List Token) : Prop :=
  unclosed [] tokens = some []

instance : DecidablePred Nested := fun tokens =>
  inferInstanceAs (Decidable (unclosed [] tokens = some []))

/-- A token that is not code, taken apart. -/
def Token.spelled : Token → List Token
  | .code text => [.code text]
  | t => t.source.map Token.char

/-- Tokens of which only code is left together. -/
def spelled (tokens : List Token) : List Token :=
  tokens.flatMap Token.spelled

/-- **All the code of a line is code in its tokens**: no backtick that is left as it stands has
some text and another backtick behind it. -/
def ShowsCode (tokens : List Token) : Prop :=
  ∀ front back text rest, spelled tokens = front ++ .char '\x60' :: back →
    source back = text ++ '\x60' :: rest → '\x60' ∉ text → text = []

/-- **A text is the HTML of a line**: of tokens that make up the line in Markdown, which show its
code, in which elements are nested and all texts are in their places. -/
def Renders (line text : List Char) : Prop :=
  ∃ tokens, source tokens = line ∧ html tokens = text ∧ ShowsCode tokens ∧ Nested tokens ∧
    Sound tokens

variable {t t' : Token} {tokens tokens' front back later : List Token} {cs rest xs ys : List Char}
  {stack stack' closed : List Element}

@[simp] theorem Token.source_char (c : Char) : (Token.char c).source = [c] := rfl

theorem Token.html_code (text : List Char) : (Token.code text).html =
    "<code>".toList ++ (Entity.encode text ++ "</code>".toList) := rfl

theorem Token.html_image (description address : List Char) :
    (Token.image description address).html = "<img src=\"".toList ++ (Entity.encode address ++
      ("\" alt=\"".toList ++ (Entity.encode description ++ "\">".toList))) := rfl

theorem Token.html_opening (e : Element) : (Token.opening e).html = e.startTag := rfl

@[simp] theorem source_append : source (front ++ back) = source front ++ source back :=
  List.flatMap_append

@[simp] theorem source_cons : source (t :: tokens) = t.source ++ source tokens := rfl

@[simp] theorem source_nil : source [] = [] := rfl

@[simp] theorem html_append : html (front ++ back) = html front ++ html back :=
  List.flatMap_append

@[simp] theorem html_cons : html (t :: tokens) = t.html ++ html tokens := rfl

@[simp] theorem html_nil : html [] = [] := rfl

@[simp] theorem spelled_append : spelled (front ++ back) = spelled front ++ spelled back :=
  List.flatMap_append

@[simp] theorem spelled_cons : spelled (t :: tokens) = t.spelled ++ spelled tokens := rfl

@[simp] theorem spelled_nil : spelled [] = [] := rfl

@[simp] theorem unclosed_append (stack : List Element) (front back : List Token) :
    unclosed stack (front ++ back) = (unclosed stack front).bind (unclosed · back) :=
  List.foldlM_append

@[simp] theorem unclosed_cons (stack : List Element) (t : Token) (tokens : List Token) :
    unclosed stack (t :: tokens) = (t.step stack).bind (unclosed · tokens) := rfl

@[simp] theorem unclosed_nil (stack : List Element) : unclosed stack [] = some stack := rfl

/-! ### Characters -/

@[simp] theorem source_map_char (cs : List Char) : source (cs.map Token.char) = cs := by
  induction cs with
  | nil => rfl
  | cons c cs ih => exact congrArg (c :: ·) ih

@[simp] theorem html_map_char (cs : List Char) : html (cs.map Token.char) = Entity.encode cs := by
  induction cs with
  | nil => rfl
  | cons c cs ih => exact congrArg (Entity.encodeChar c ++ ·) ih

@[simp] theorem spelled_map_char (cs : List Char) :
    spelled (cs.map Token.char) = cs.map Token.char := by
  induction cs with
  | nil => rfl
  | cons c cs ih => exact congrArg (Token.char c :: ·) ih

@[simp] theorem unclosed_map_char (stack : List Element) (cs : List Char) :
    unclosed stack (cs.map Token.char) = some stack := by
  induction cs with
  | nil => rfl
  | cons c cs ih => exact ih

theorem sound_map_char (cs : List Char) : Sound (cs.map Token.char) := by
  intro t ht
  obtain ⟨c, -, rfl⟩ := List.mem_map.1 ht
  exact trivial

/-- Taking tokens apart leaves the line as it is. -/
theorem source_spelled (tokens : List Token) : source (spelled tokens) = source tokens := by
  induction tokens with
  | nil => rfl
  | cons t tokens ih =>
    rw [spelled_cons, source_append, ih, source_cons]
    cases t with
    | code text => simp [Token.spelled]
    | _ => simp [Token.spelled]

/-! ### Written text -/

section Written

open Entity

/-- The characters that are written otherwise, and those that they are written with. -/
def referenceChars : List Char :=
  "&<>ampltg;".toList

theorem eq_of_mem_encodeChar {c d : Char} (hc : c ∉ referenceChars) (h : c ∈ encodeChar d) :
    c = d := by
  have hnot : ∀ reference ∈ ["&amp;", "&lt;", "&gt;"].map String.toList,
      reference ⊆ referenceChars := by
    decide
  unfold encodeChar at h
  split at h
  · exact absurd (hnot _ (by decide) h) hc
  · split at h
    · exact absurd (hnot _ (by decide) h) hc
    · split at h
      · exact absurd (hnot _ (by decide) h) hc
      · exact List.mem_singleton.1 h

theorem encodeChar_of_notMem {c : Char} (hc : c ∉ referenceChars) : encodeChar c = [c] := by
  refine encodeChar_of_ne ?_ ?_ ?_ <;>
    · rintro rfl
      exact hc (by decide)

theorem mem_encode_iff {c : Char} (hc : c ∉ referenceChars) : c ∈ encode cs ↔ c ∈ cs := by
  rw [encode, List.mem_flatMap]
  constructor
  · rintro ⟨d, hd, hmem⟩
    rwa [eq_of_mem_encodeChar hc hmem]
  · exact fun h => ⟨c, h, by rw [encodeChar_of_notMem hc]; exact List.mem_singleton_self c⟩

theorem gt_notMem_encode (cs : List Char) : '>' ∉ encode cs := by
  rw [encode, List.mem_flatMap]
  rintro ⟨c, -, hmem⟩
  unfold encodeChar at hmem
  split at hmem
  · revert hmem
    decide
  · split at hmem
    · revert hmem
      decide
    · split at hmem
      · revert hmem
        decide
      · rename_i hgt
        exact hgt (List.mem_singleton.1 hmem).symm

theorem encode_injective {cs ds : List Char} (h : encode cs = encode ds) : cs = ds := by
  have hdecode := decode_encode_append cs []
  rwa [h, decode_encode_append, List.append_left_inj, eq_comm] at hdecode

theorem encodeChar_ne_nil (c : Char) : encodeChar c ≠ [] := by
  unfold encodeChar
  repeat' split
  all_goals exact List.cons_ne_nil _ _

/-- No character is written as another one begins. -/
theorem encodeChar_inj {c d : Char} (h : encodeChar c ++ xs = encodeChar d ++ ys) : c = d := by
  have hwritten : encode [c] ++ xs = encode [d] ++ ys := by
    simpa [encode] using h
  have hdecode := decode_encode_append [c] xs
  rw [hwritten, decode_encode_append] at hdecode
  exact (List.cons.inj hdecode).1.symm

end Written

/-! ### No token begins another one -/

/-- **Tokens that HTML does not tell apart**: a token and itself, or the ends of two links. -/
inductive Token.Alike : Token → Token → Prop
  | refl (t : Token) : Alike t t
  | link (address address' : List Char) :
      Alike (.closing (.link address)) (.closing (.link address'))

theorem blank_notMem_encode {address : List Char} (h : IsAddress address) :
    ' ' ∉ Entity.encode address := by
  rw [mem_encode_iff (by decide)]
  intro hmem
  cases (h.fits _ hmem).2

/-- The beginning of a token that is a tag, as far as it says which one it is. -/
def Token.lead : Token → List Char
  | .char _ => []
  | .code _ => ['<', 'c']
  | .image _ _ => ['<', 'i']
  | .opening .strong => ['<', 's']
  | .opening .emphasis => ['<', 'e']
  | .opening (.link _) => ['<', 'a']
  | .closing .strong => ['<', '/', 's']
  | .closing .emphasis => ['<', '/', 'e']
  | .closing (.link _) => ['<', '/', 'a']

/-- The beginnings of the tokens that are tags. -/
def leads : List (List Char) :=
  [['<', 'c'], ['<', 'i'], ['<', 's'], ['<', 'e'], ['<', 'a'], ['<', '/', 's'], ['<', '/', 'e'],
    ['<', '/', 'a']]

theorem Token.lead_isPrefix (t : Token) : t.lead <+: t.html := by
  have htags : ['<', 'c'] <+: "<code>".toList ∧ ['<', 'i'] <+: "<img src=\"".toList ∧
      ['<', 'a'] <+: "<a href=\"".toList := by
    decide
  cases t with
  | char c => exact List.nil_prefix
  | code text => exact htags.1.trans (List.prefix_append _ _)
  | image description address => exact htags.2.1.trans (List.prefix_append _ _)
  | opening e =>
    cases e with
    | strong | emphasis => exact List.isPrefixOf_iff_prefix.1 (by decide)
    | link address => exact htags.2.2.trans (List.prefix_append _ _)
  | closing e =>
    cases e with
    | strong | emphasis => exact List.isPrefixOf_iff_prefix.1 (by decide)
    | link address => exact (show ['<', '/', 'a'] <+: "</a>".toList by decide)

/-- A token is a character, or it begins with one of the tags. -/
theorem Token.char_or_lead_mem (t : Token) : (∃ c, t = .char c) ∨ t.lead ∈ leads := by
  cases t with
  | char c => exact .inl ⟨c, rfl⟩
  | opening e | closing e => cases e <;> exact .inr (by simp [Token.lead, leads])
  | _ => exact .inr (by simp [Token.lead, leads])

/-- No tag begins with another one. -/
theorem eq_of_lead_append {lead lead' : List Char} (hlead : lead ∈ leads) (hlead' : lead' ∈ leads)
    (h : lead ++ xs = lead' ++ ys) : lead = lead' := by
  have hall : ∀ lead ∈ leads, ∀ lead' ∈ leads, lead <+: lead' → lead = lead' := by decide
  rcases List.append_eq_append_iff.1 h with ⟨rest, rfl, -⟩ | ⟨rest, rfl, -⟩
  · exact hall _ hlead _ hlead' (List.prefix_append _ _)
  · exact (hall _ hlead' _ hlead (List.prefix_append _ _)).symm

/-- A character is not written as a tag begins. -/
theorem encodeChar_append_ne {lead : List Char} {c : Char} (hlead : lead ∈ leads) :
    Entity.encodeChar c ++ xs ≠ lead ++ ys := by
  intro h
  have hhead : ∀ lead ∈ leads, lead.head? = some '<' := by decide
  obtain ⟨rest, rfl⟩ := List.head?_eq_some_iff.1 (hhead _ hlead)
  obtain ⟨d, ds, hc⟩ := List.exists_cons_of_ne_nil (encodeChar_ne_nil c)
  rw [hc] at h
  obtain rfl := (List.cons.inj h).1
  refine Entity.lt_not_mem_encode [c] ?_
  rw [Entity.encode, List.flatMap_singleton, hc]
  exact List.mem_cons_self

/-- Written texts end before a text with a character that is not in them. -/
theorem encode_append_inj {cs ds close : List Char} {d : Char} (hclose : d ∈ close)
    (hcs : d ∉ Entity.encode cs) (hds : d ∉ Entity.encode ds)
    (h : Entity.encode cs ++ (close ++ xs) = Entity.encode ds ++ (close ++ ys)) :
    cs = ds ∧ xs = ys := by
  obtain ⟨front, inner, rfl, hfront⟩ := List.eq_append_cons_of_mem hclose
  have hends : (Entity.encode cs ++ front) ++ d :: (inner ++ xs) =
      (Entity.encode ds ++ front) ++ d :: (inner ++ ys) := by
    simpa using h
  obtain ⟨hwritten, hrest⟩ := append_cons_inj (by simp [hcs, hfront]) (by simp [hds, hfront]) hends
  exact ⟨encode_injective (List.append_cancel_right hwritten), List.append_cancel_left hrest⟩

/-- **In HTML no token begins another one.** -/
theorem Token.alike_of_append (ht : t.Sound) (ht' : t'.Sound)
    (h : t.html ++ xs = t'.html ++ ys) : t.Alike t' := by
  obtain ⟨inner, hinner⟩ := t.lead_isPrefix
  obtain ⟨inner', hinner'⟩ := t'.lead_isPrefix
  have hleads : t.lead ++ (inner ++ xs) = t'.lead ++ (inner' ++ ys) := by
    rw [← List.append_assoc, ← List.append_assoc, hinner, hinner', h]
  rcases t.char_or_lead_mem with ⟨c, rfl⟩ | hmem
  · rcases t'.char_or_lead_mem with ⟨d, rfl⟩ | hmem'
    · rw [encodeChar_inj h]
      exact .refl _
    · rw [← hinner', List.append_assoc] at h
      exact absurd h (encodeChar_append_ne hmem')
  rcases t'.char_or_lead_mem with ⟨d, rfl⟩ | hmem'
  · rw [← hinner, List.append_assoc] at h
    exact absurd h.symm (encodeChar_append_ne hmem)
  have hlead := eq_of_lead_append hmem hmem' hleads
  -- the tags with which they begin say which tokens they are
  match t, t', ht, ht', hlead with
  | .char c, .char _, _, _, _ => exact absurd hmem (show [] ∉ leads by decide)
  | .code text, .code text', _, _, _ =>
    simp only [Token.html_code, List.append_assoc] at h
    obtain ⟨rfl, -⟩ := encode_append_inj (by decide) (Entity.lt_not_mem_encode _)
      (Entity.lt_not_mem_encode _) (List.append_cancel_left h)
    exact .refl _
  | .image description address, .image description' address', ⟨_, ha⟩, ⟨_, ha'⟩, _ =>
    -- an address has no blanks, so it ends before the next attribute
    simp only [Token.html_image, List.append_assoc] at h
    obtain ⟨rfl, hrest⟩ := encode_append_inj (by decide) (blank_notMem_encode ha)
      (blank_notMem_encode ha') (List.append_cancel_left h)
    obtain ⟨rfl, -⟩ := encode_append_inj (by decide) (gt_notMem_encode _) (gt_notMem_encode _)
      hrest
    exact .refl _
  | .opening .strong, .opening .strong, _, _, _ => exact .refl _
  | .opening .emphasis, .opening .emphasis, _, _, _ => exact .refl _
  | .opening (.link address), .opening (.link address'), _, _, _ =>
    simp only [Token.html_opening, Element.startTag_link, List.append_assoc] at h
    obtain ⟨rfl, -⟩ := encode_append_inj (by decide) (gt_notMem_encode _) (gt_notMem_encode _)
      (List.append_cancel_left h)
    exact .refl _
  | .closing .strong, .closing .strong, _, _, _ => exact .refl _
  | .closing .emphasis, .closing .emphasis, _, _, _ => exact .refl _
  | .closing (.link address), .closing (.link address'), _, _, _ => exact .link address address'

theorem Token.Alike.html_eq (h : t.Alike t') : t.html = t'.html := by
  cases h <;> rfl

theorem Token.html_ne_nil (t : Token) : t.html ≠ [] := by
  rcases t.char_or_lead_mem with ⟨c, rfl⟩ | hmem
  · exact encodeChar_ne_nil c
  · have hall : ∀ lead ∈ leads, lead ≠ [] := by decide
    exact fun h => hall _ hmem (List.prefix_nil.1 (h ▸ t.lead_isPrefix))

/-- A token that does not begin with an angle bracket is a character. -/
theorem Token.exists_char {c : Char} (h : t.html = c :: cs) (hc : c ≠ '<') : ∃ d, t = .char d := by
  refine t.char_or_lead_mem.resolve_right fun hmem => hc ?_
  have hhead : ∀ lead ∈ leads, lead.head? = some '<' := by decide
  obtain ⟨rest, hrest⟩ := List.head?_eq_some_iff.1 (hhead _ hmem)
  obtain ⟨inner, hinner⟩ := t.lead_isPrefix
  rw [hrest, h] at hinner
  exact (List.cons.inj hinner).1.symm

/-! ### Reading a text as tokens -/

/-- **Lists of tokens that HTML does not tell apart.** -/
abbrev Alike (tokens tokens' : List Token) : Prop :=
  List.Forall₂ Token.Alike tokens tokens'

theorem Alike.html_eq (h : Alike tokens tokens') : html tokens = html tokens' := by
  induction h with
  | nil => rfl
  | cons ht _ ih => rw [html_cons, html_cons, ht.html_eq, ih]

theorem Alike.eq_map_char (h : Alike tokens (cs.map Token.char)) : tokens = cs.map Token.char := by
  induction cs generalizing tokens with
  | nil => exact List.forall₂_nil_right_iff.1 h
  | cons c cs ih =>
    cases h with
    | cons ht htokens =>
      rw [ih htokens]
      cases ht
      rfl

/-- **A text that begins with whole tokens** begins with them in whatever way it is read. -/
theorem exists_append_of_html (htokens : Sound tokens) (hfront : Sound front)
    (h : html tokens = html front ++ rest) :
    ∃ front' back, tokens = front' ++ back ∧ Alike front' front ∧ html back = rest := by
  induction front generalizing tokens with
  | nil => exact ⟨[], tokens, rfl, .nil, h⟩
  | cons t front ih =>
    rw [html_cons, List.append_assoc] at h
    cases tokens with
    | nil => exact absurd (List.append_eq_nil_iff.1 h.symm).1 t.html_ne_nil
    | cons t' tokens =>
      obtain ⟨ht, hfront⟩ := List.forall_mem_cons.1 hfront
      obtain ⟨ht', htokens⟩ := List.forall_mem_cons.1 htokens
      have halike := Token.alike_of_append ht' ht h
      rw [html_cons, halike.html_eq] at h
      obtain ⟨front', back, rfl, hfront', hback⟩ := ih htokens hfront (List.append_cancel_left h)
      exact ⟨t' :: front', back, rfl, .cons halike hfront', hback⟩

/-- A text that begins as characters are written begins with these characters. -/
theorem exists_append_of_encode (htokens : Sound tokens)
    (h : html tokens = Entity.encode cs ++ rest) :
    ∃ back, tokens = cs.map Token.char ++ back ∧ Sound back ∧ html back = rest := by
  rw [← html_map_char] at h
  obtain ⟨front, back, rfl, hfront, hback⟩ :=
    exists_append_of_html htokens (sound_map_char cs) h
  exact ⟨back, by rw [hfront.eq_map_char], (List.forall_mem_append.1 htokens).2, hback⟩

/-- **What stands before a mark, if no tag does, consists of characters.** -/
theorem exists_chars_of_html {c : Char} (hc : c ∉ referenceChars)
    (h : html tokens = cs ++ c :: rest) (hcs : '<' ∉ cs) :
    ∃ text back, Entity.encode text = cs ∧ tokens = text.map Token.char ++ back ∧
      html back = c :: rest := by
  induction tokens generalizing cs with
  | nil => simp at h
  | cons t tokens ih =>
    rcases cs with _ | ⟨d, cs⟩
    · exact ⟨[], t :: tokens, rfl, rfl, h⟩
    · obtain ⟨e, es, hhtml⟩ := List.exists_cons_of_ne_nil t.html_ne_nil
      obtain rfl : e = d := by
        rw [html_cons, hhtml] at h
        exact (List.cons.inj h).1
      obtain ⟨x, rfl⟩ := Token.exists_char hhtml fun heq => hcs (heq ▸ List.mem_cons_self)
      -- the character is written within what stands before the mark
      obtain ⟨middle, hmiddle, hrest⟩ : ∃ middle, e :: cs = Entity.encodeChar x ++ middle ∧
          html tokens = middle ++ c :: rest := by
        by_cases hmem : c ∈ Entity.encodeChar x
        · obtain rfl := eq_of_mem_encodeChar hc hmem
          rw [html_cons] at h
          have hx : (Token.char c).html = [c] := encodeChar_of_notMem hc
          rw [hx] at h
          obtain ⟨rfl, hrest⟩ := List.cons.inj h
          exact ⟨cs, by rw [encodeChar_of_notMem hc]; rfl, hrest⟩
        · exact exists_append_of_notMem h hmem
      obtain ⟨text, back, rfl, rfl, hback⟩ :=
        ih hrest fun hlt => hcs (by rw [hmiddle]; exact List.mem_append_right _ hlt)
      exact ⟨x :: text, back, hmiddle.symm, rfl, hback⟩

/-! ### Nesting -/

/-- A token that takes the elements of its own text further does so whatever is open outside. -/
theorem Token.Alike.step_append (h : t.Alike t') (hstep : t'.step stack = some stack')
    (ht : (t.step (stack ++ closed)).isSome = true) (open_ : List Element) :
    t.step (stack ++ open_) = some (stack' ++ open_) := by
  cases h with
  | refl t =>
    cases t with
    | closing e =>
      cases stack with
      | nil => cases hstep
      | cons e' stack =>
        simp only [Token.step, Option.ite_none_right_eq_some, Option.some.injEq] at hstep
        obtain ⟨rfl, rfl⟩ := hstep
        exact if_pos rfl
    | _ => cases hstep; rfl
  | link address address' =>
    cases stack with
    | nil => cases hstep
    | cons e stack =>
      simp only [Token.step, Option.ite_none_right_eq_some, Option.some.injEq] at hstep
      obtain ⟨rfl, rfl⟩ := hstep
      -- the address is that of the link which is open
      simp only [List.cons_append, Token.step] at ht ⊢
      split at ht
      · rename_i heq
        rw [if_pos heq]
      · cases ht

/-- **What is nested on its own is nested wherever it stands.** -/
theorem unclosed_of_alike (h : Alike tokens tokens')
    (hnested : unclosed stack tokens' = some stack')
    (hsome : (unclosed (stack ++ closed) tokens).isSome = true) (open_ : List Element) :
    unclosed (stack ++ open_) tokens = some (stack' ++ open_) := by
  induction h generalizing stack with
  | nil =>
    cases hnested
    rfl
  | cons ht _ ih =>
    rw [unclosed_cons] at hnested hsome ⊢
    obtain ⟨between, hstep, hnested⟩ := Option.bind_eq_some_iff.1 hnested
    obtain ⟨stack', hsome⟩ := Option.isSome_iff_exists.1 hsome
    obtain ⟨between', hstep', hsome⟩ := Option.bind_eq_some_iff.1 hsome
    have hforward := ht.step_append hstep (Option.isSome_iff_exists.2 ⟨between', hstep'⟩)
    rw [hforward closed] at hstep'
    cases hstep'
    rw [hforward open_]
    exact ih hnested (Option.isSome_iff_exists.2 ⟨stack', hsome⟩)

end Syndication.Markup.Markdown
