import Syndication.Proofs.Markup.EventAttribute
import Syndication.Workflow.Images

/-!
# Where the images of a content stand

The address of an image is the value of the attribute `src` of an `img` tag, or the destination of
an image in Markdown. A content is not parsed to find the addresses: it is looked through for texts
that look like them. What looks like the address of an image is told here without a search, and so
is what one is; the first is more than the second, since a name like `data-src` ends in `src` as
well.

* `IsSource`, `IsDestination`: the addresses of images.
* `LooksLikeSource`, `LooksLikeDestination`: what is taken for them.
* `exists_looksLikeSource`, `exists_looksLikeDestination`: nothing else is found.
-/

namespace Syndication.Images

open Pattern
open Markup (IsQuotationMark)

/-! ### Tags -/

/-- The blanks between the parts of a tag. -/
def isTagBlank (c : Char) : Bool :=
  [' ', '\t', '\n', '\r', '\x0c'].contains c

theorem isBlank_of_isTagBlank {c : Char} (h : isTagBlank c = true) : Text.isBlank c = true := by
  have hall : [' ', '\t', '\n', '\r', '\x0c'].all Text.isBlank = true := by decide
  exact List.all_eq_true.1 hall c (List.contains_iff_mem.1 h)

/-- A character in the name of an attribute. -/
def isNameCharacter (c : Char) : Bool :=
  !(isTagBlank c || ['"', '\'', '>', '/', '='].contains c)

/-- A character in a value without quotation marks. -/
def isBareCharacter (c : Char) : Bool :=
  !(isTagBlank c || ['"', '\'', '<', '=', '>', '\x60'].contains c)

/-- **An attribute**: a name, perhaps with a value, which may be quoted. -/
inductive Attribute : List Char → Prop
  | empty {name : List Char} (hne : name ≠ []) (hname : ∀ c ∈ name, isNameCharacter c = true) :
      Attribute name
  | bare {name gap gap' value : List Char} (hne : name ≠ [])
      (hname : ∀ c ∈ name, isNameCharacter c = true) (hgap : ∀ c ∈ gap, isTagBlank c = true)
      (hgap' : ∀ c ∈ gap', isTagBlank c = true) (hne' : value ≠ [])
      (hvalue : ∀ c ∈ value, isBareCharacter c = true) :
      Attribute (name ++ (gap ++ '=' :: (gap' ++ value)))
  | quoted {name gap gap' value : List Char} {mark : Char} (hne : name ≠ [])
      (hname : ∀ c ∈ name, isNameCharacter c = true) (hgap : ∀ c ∈ gap, isTagBlank c = true)
      (hgap' : ∀ c ∈ gap', isTagBlank c = true) (hmark : IsQuotationMark mark)
      (hvalue : mark ∉ value) :
      Attribute (name ++ (gap ++ '=' :: (gap' ++ mark :: (value ++ [mark]))))

/-- **Attributes**, each with blanks before it. -/
inductive Attributes : List Char → Prop
  | nil : Attributes []
  | cons {gap first rest : List Char} (hne : gap ≠ []) (hgap : ∀ c ∈ gap, isTagBlank c = true)
      (hfirst : Attribute first) (hrest : Attributes rest) : Attributes (gap ++ (first ++ rest))

/-- Whether a tag, a comment or a declaration begins with an angle bracket and this character. -/
def startsTag (c : Char) : Bool :=
  c.isAlpha || ['/', '!', '?'].contains c

/-- **Behind this text no tag is open.** -/
def Outside (left : List Char) : Prop :=
  ∀ before c after, left = before ++ '<' :: c :: after → startsTag c = true → '>' ∈ after

/-- **A value is that of the attribute `src` of an `img` tag**, between these parts of a text. -/
inductive IsSource : List Char → List Char → List Char → Prop
  | intro {before attributes gap gap₁ gap₂ value later gap₃ slash after : List Char} {mark : Char}
      (hbefore : Outside before) (hattributes : Attributes attributes) (hne : gap ≠ [])
      (hgap : ∀ c ∈ gap, isTagBlank c = true) (hgap₁ : ∀ c ∈ gap₁, isTagBlank c = true)
      (hgap₂ : ∀ c ∈ gap₂, isTagBlank c = true) (hmark : IsQuotationMark mark)
      (hvalue : mark ∉ value) (hlater : Attributes later)
      (hgap₃ : ∀ c ∈ gap₃, isTagBlank c = true) (hslash : slash = [] ∨ slash = ['/']) :
      IsSource (before ++ ("<img".toList ++ (attributes ++ (gap ++ ("src".toList ++
        (gap₁ ++ '=' :: (gap₂ ++ [mark]))))))) value
        (mark :: (later ++ (gap₃ ++ (slash ++ '>' :: after))))

/-- A blank stands before the name of the attribute, and no letter of the tag's name behind it. -/
theorem IsSource.exists_blank {left value right : List Char} (h : IsSource left value right) :
    ∃ xs c ys, left = xs ++ c :: ("src".toList ++ ys) ∧ isTagBlank c = true ∧
      'g' ∉ "src".toList ++ ys := by
  obtain ⟨-, -, hne, hgap, hgap₁, hgap₂, hmark, -, -, -, -⟩ := h
  rename_i before attributes gap gap₁ gap₂ _ _ _ _ mark
  obtain ⟨gap, c, rfl⟩ := (List.eq_nil_or_concat gap).resolve_left hne
  refine ⟨before ++ ("<img".toList ++ (attributes ++ gap)), c, gap₁ ++ '=' :: (gap₂ ++ [mark]),
    by simp, hgap c (by simp), ?_⟩
  have h₁ : 'g' ∉ gap₁ := fun hmem => by cases hgap₁ 'g' hmem
  have h₂ : 'g' ∉ gap₂ := fun hmem => by cases hgap₂ 'g' hmem
  have hmark' : 'g' ≠ mark := by
    rintro rfl
    simp [IsQuotationMark] at hmark
  simp [h₁, h₂, hmark']

/-! ### Images in Markdown -/

/-- A character of a destination. -/
def isDestinationCharacter (c : Char) : Bool :=
  !(Text.isBlank c || ['(', ')', '<', '>'].contains c)

/-- **The title of an image**, if there is one. -/
inductive Title : List Char → Prop
  | none : Title []
  | quoted {gap title : List Char} {mark : Char} (hne : gap ≠ [])
      (hgap : ∀ c ∈ gap, Text.isBlank c = true) (hmark : IsQuotationMark mark)
      (htitle : mark ∉ title) : Title (gap ++ mark :: (title ++ [mark]))

/-- The angle brackets around a destination, if there are any. -/
inductive Angles : List Char → List Char → Prop
  | none : Angles [] []
  | some : Angles ['<'] ['>']

/-- **An address is the destination of an image in Markdown**, between these parts of a text. -/
inductive IsDestination : List Char → List Char → List Char → Prop
  | intro {left before alt gap opening address closing title gap' after : List Char}
      (hleft : left = before ++ ("![".toList ++ (alt ++ ("](".toList ++ (gap ++ opening)))))
      (hbefore : before.getLast? ≠ some '\\') (houtside : Outside left) (hopens : '[' ∉ alt)
      (hcloses : ']' ∉ alt) (hgap : ∀ c ∈ gap, Text.isBlank c = true)
      (hangles : Angles opening closing) (hne : address ≠ [])
      (haddress : ∀ c ∈ address, isDestinationCharacter c = true) (htitle : Title title)
      (hgap' : ∀ c ∈ gap', Text.isBlank c = true) :
      IsDestination left address (closing ++ (title ++ (gap' ++ ')' :: after)))

theorem IsDestination.exists_mark {left address right : List Char}
    (h : IsDestination left address right) : ∃ xs ys, left = xs ++ '!' :: ys := by
  obtain ⟨hleft, -, -, -, -, -, -, -, -, -, -⟩ := h
  exact ⟨_, _, hleft⟩

theorem IsDestination.outside {left address right : List Char}
    (h : IsDestination left address right) : Outside left := by
  obtain ⟨-, -, houtside, -, -, -, -, -, -, -, -⟩ := h
  exact houtside

/-! ### What is taken for an address -/

/-- **`src` with a value**, which is quoted. -/
inductive Assigns : List Char → List Char → List Char → Prop
  | intro {gap gap' value after : List Char} {mark mark' : Char}
      (hgap : ∀ c ∈ gap, Text.isBlank c = true) (hgap' : ∀ c ∈ gap', Text.isBlank c = true)
      (hmark : IsQuotationMark mark) (hne : value ≠ [])
      (hvalue : ∀ c ∈ value, ¬ IsQuotationMark c) (hmark' : IsQuotationMark mark') :
      Assigns ("src".toList ++ (gap ++ '=' :: (gap' ++ [mark]))) value (mark' :: after)

/-- A word ends before this text and another one may begin behind it. -/
def Parts (front : List Char) : Prop :=
  (∃ c ∈ front.head?, Text.isWordCharacter c = false) ∧
    ∃ c ∈ front.getLast?, Text.isWordCharacter c = false

/-- **A `src` in a tag**: between `<img` and it the tag does not end, and no earlier `src` that
begins a word has a value. -/
structure FirstSource (front sign value right : List Char) : Prop where
  open_tag : '>' ∉ front
  parts : Parts front
  assigns : Assigns sign value right
  first : ∀ early late sign' value' right', front = early ++ late → late ≠ [] → Parts early →
    Assigns sign' value' right' → late ++ (sign ++ (value ++ right)) ≠ sign' ++ (value' ++ right')

/-- **What is taken for a source**: the value of a `src` behind `<img`. -/
def LooksLikeSource (left value right : List Char) : Prop :=
  ∃ before front sign, left = before ++ ("<img".toList ++ (front ++ sign)) ∧
    FirstSource front sign value right

/-- Whether what is taken for a destination goes on with a character. -/
def goesOn (c : Char) : Bool :=
  !(c == ')' || c == '>' || Text.isBlank c)

/-- **What is taken for a destination**: behind `![`, a text and `](`, all up to a blank or a
bracket. An angle bracket with which it begins is left out when there is more. -/
def LooksLikeDestination (left address right : List Char) : Prop :=
  ∃ before alt gap opening,
    left = before ++ ("![".toList ++ (alt ++ ("](".toList ++ (gap ++ opening)))) ∧ ']' ∉ alt ∧
    (∀ c ∈ gap, Text.isBlank c = true) ∧
    (opening = ['<'] ∨ opening = [] ∧ (address.head? = some '<' → address = ['<'])) ∧
    address ≠ [] ∧ (∀ c ∈ address, goesOn c = true) ∧ ∀ c ∈ right.head?, goesOn c = false

/-! ### What is found -/

variable {p : Place} {m : Match}

/-- What stands behind the other attributes of a tag: `src` and a value in quotation marks. -/
def sourcePattern : Pattern :=
  let quote : Pattern := .one fun c => c == '"' || c == '\''
  sequence [.wordEdge, literal "src", blanks, char '=', blanks, quote,
    .group 1 (many1 (noneOf ['"', '\''])), quote]

theorem htmlImage_eq :
    htmlImage = sequence [literal "<img", .wordEdge, .few (noneOf ['>']), sourcePattern] := rfl

theorem noneOf_quotes_iff {c : Char} : noneOf ['"', '\''] c = true ↔ ¬ IsQuotationMark c := by
  simp [noneOf, IsQuotationMark]

theorem Covers.exists_quote {p q : Place} {groups groups' : List (Nat × Span)}
    (h : (Pattern.one fun c => c == '"' || c == '\'').Covers p groups q groups') :
    ∃ c, IsQuotationMark c ∧ p.rest = c :: q.rest ∧ groups' = groups := by
  obtain ⟨c, hrest, -, hc, rfl⟩ := h
  exact ⟨c, by simpa [IsQuotationMark] using hc, hrest, rfl⟩

/-- Where an assignment is found, one stands, and a word ends before it. -/
theorem exists_assigns_of_covers {p q : Place} {groups groups' : List (Nat × Span)}
    (h : sourcePattern.Covers p groups q groups') :
    ∃ sign value right, p.rest = sign ++ (value ++ right) ∧ Assigns sign value right ∧
      (∀ c ∈ p.before, Text.isWordCharacter c = false) ∧
      groups' = (1, ⟨value ++ right, right⟩) :: groups ∧ q.rest = right.tail := by
  obtain ⟨p₁, _, ⟨hedge, rfl, rfl⟩, p₂, _, hname, p₃, _, hgap, p₄, _, ⟨c, hsign, -, hc, rfl⟩, p₅, _,
    hgap', p₆, _, hquote, p₇, _, ⟨_, hvalue, rfl⟩, hquote'⟩ := h
  obtain rfl := eq_of_beq hc
  obtain ⟨hrest₁, rfl⟩ := hname.literal
  obtain ⟨gap, hall, hrest₂, rfl⟩ := exists_blanks_of_covers hgap
  obtain ⟨gap', hall', hrest₄, rfl⟩ := exists_blanks_of_covers hgap'
  obtain ⟨mark, hmark, hrest₅, rfl⟩ := Covers.exists_quote hquote
  obtain ⟨value, hne, hclass, hrest₆, rfl⟩ := hvalue.exists_many1
  obtain ⟨mark', hmark', hrest₇, rfl⟩ := Covers.exists_quote hquote'
  have hassigns : Assigns ("src".toList ++ (gap ++ '=' :: (gap' ++ [mark]))) value
      (mark' :: q.rest) :=
    .intro hall hall' hmark hne (fun c hc => noneOf_quotes_iff.1 (hclass c hc)) hmark'
  refine ⟨_, value, mark' :: q.rest, ?_, hassigns, fun c hbefore => ?_, ?_, rfl⟩
  · rw [hrest₁, hrest₂, hsign, hrest₄, hrest₅, hrest₆, hrest₇]
    simp
  · rw [Place.isWordEdge, hrest₁, hbefore] at hedge
    simpa [show Text.isWordCharacter 's' = true from rfl] using hedge
  · rw [hrest₆, hrest₇]

/-- Where an assignment stands and a word ends before it, one is found. -/
theorem exists_covers_of_assigns {sign value right : List Char} {before : Option Char}
    (h : Assigns sign value right) (hbefore : ∀ c ∈ before, Text.isWordCharacter c = false)
    (groups : List (Nat × Span)) :
    ∃ q groups', sourcePattern.Covers ⟨before, sign ++ (value ++ right)⟩ groups q groups' := by
  obtain ⟨hgap, hgap', hmark, hne, hvalue, hmark'⟩ := h
  rename_i gap gap' after mark mark'
  have hquote {c : Char} {rest : List Char} (hc : IsQuotationMark c) :
      (Pattern.one fun c => c == '"' || c == '\'').Passes [c] rest := fun before groups =>
    ⟨some c, groups, c, rfl, rfl, by simpa [IsQuotationMark] using hc, rfl⟩
  have hclosing : (Pattern.one fun c => c == '"' || c == '\'').Passes [mark'] after := hquote hmark'
  have hpasses := (passes_literal "src").seq ((passes_many hgap).seq
    ((passes_char '=').seq ((passes_many hgap').seq ((hquote hmark).seq
      (((passes_many1 hne fun c hc => noneOf_quotes_iff.2 (hvalue c hc)).group 1).seq hclosing)))))
  obtain ⟨before', groups', hcovers⟩ := hpasses before groups
  refine ⟨⟨before', after⟩, groups', _, groups, ⟨?_, rfl, rfl⟩, ?_⟩
  · have hname : Text.isWordCharacter 's' = true := rfl
    cases before with
    | none => simp [Place.isWordEdge, hname]
    | some c => simp [Place.isWordEdge, hbefore c rfl, hname]
  · simpa [Pattern.sequence, blanks] using hcovers

/-- Where a word ends behind `<img` and another one begins later, the text between parts them. -/
theorem parts_of_edges {front cs : List Char} {before : Option Char}
    (hopening : (⟨lastOf before "<img".toList, front ++ 's' :: cs⟩ : Place).isWordEdge = true)
    (hlast : ∀ c ∈ lastOf (lastOf before "<img".toList) front, Text.isWordCharacter c = false) :
    Parts front := by
  have hg : lastOf before "<img".toList = some 'g' := rfl
  have hwords : Text.isWordCharacter 'g' = true ∧ Text.isWordCharacter 's' = true := ⟨rfl, rfl⟩
  rw [hg] at hopening hlast
  cases front with
  | nil => simp [Place.isWordEdge, hwords] at hopening
  | cons d front =>
    rw [lastOf_of_ne_nil (List.cons_ne_nil d front)] at hlast
    refine ⟨⟨d, rfl, ?_⟩, ?_⟩
    · simpa [Place.isWordEdge, hwords] using hopening
    · exact ⟨_, List.getLast?_eq_some_getLast (List.cons_ne_nil d front),
        hlast _ (List.getLast?_eq_some_getLast _)⟩

/-- **Nothing is found in a tag that does not look like a source.** -/
theorem exists_looksLikeSource (h : htmlImage.matchAt p = some m) :
    ∃ front sign value right, p.rest = "<img".toList ++ (front ++ (sign ++ (value ++ right))) ∧
      FirstSource front sign value right ∧ m.groups = [(1, ⟨value ++ right, right⟩)] ∧
      m.whole.stop = right.tail := by
  rw [htmlImage_eq] at h
  simp only [matchAt, Pattern.sequence, run] at h
  obtain ⟨cs, hrest, hedge⟩ := exists_of_run_literal h
  split at hedge
  · rename_i hopening
    obtain ⟨front, rest, rfl, hfront, hlast, hearlier⟩ := exists_shortest_of_passFew hedge
    obtain ⟨q, groups, hcovers, hm⟩ := exists_covers_of_run hlast
    cases hm
    obtain ⟨sign, value, right, rfl, hassigns, hbefore, rfl, hstop⟩ :=
      exists_assigns_of_covers hcovers
    refine ⟨front, sign, value, right, hrest, ⟨?_, ?_, hassigns, ?_⟩, rfl, hstop⟩
    · exact fun hmem => by simpa [noneOf] using hfront '>' hmem
    · obtain ⟨hgap, hgap', hmark, hne, hvalue, hmark'⟩ := hassigns
      exact parts_of_edges hopening hbefore
    · -- an earlier assignment would have been found before
      rintro early late sign' value' right' rfl hlate hearly hassigns' htext
      have hnone := hearlier early late rfl hlate
      obtain ⟨c, hc, hword⟩ := hearly.2
      have hne : early ≠ [] := by
        rintro rfl
        cases hc
      have hbefore' : ∀ c ∈ lastOf (lastOf p.before "<img".toList) early,
          Text.isWordCharacter c = false := by
        rw [lastOf_of_ne_nil hne, hc]
        rintro _ ⟨⟩
        exact hword
      obtain ⟨q', groups', hcovers'⟩ := exists_covers_of_assigns hassigns' hbefore' []
      rw [← htext] at hcovers'
      have hsome : (sourcePattern.run _ [] fun q groups =>
        some (⟨⟨p.rest, q.rest⟩, groups⟩ : Match)).isSome = true :=
          isSome_run_of_covers hcovers' rfl
      rw [hnone] at hsome
      cases hsome
  · cases hedge

/-- What stands behind the angle bracket before a destination, if there is one. -/
def destinationPattern : Pattern :=
  sequence [.group 1 (many1 goesOn), maybe (char '>')]

theorem markdownImage_eq :
    markdownImage = sequence [literal "![", .many (noneOf [']']), literal "](", blanks,
      maybe (char '<'), destinationPattern] := rfl

section Destination

variable {start rest : List Char} {before : Option Char}

/-- An angle bracket behind a destination is passed, and nothing else. -/
theorem run_closing (start : List Char) (before : Option Char) (right : List Char)
    (groups : List (Nat × Span)) :
    ∃ tail stop, right = tail ++ stop ∧ (maybe (char '>')).run ⟨before, right⟩ groups
      (fun q groups => some (⟨⟨start, q.rest⟩, groups⟩ : Match)) =
        some ⟨⟨start, stop⟩, groups⟩ := by
  rcases right with _ | ⟨c, right⟩
  · exact ⟨[], [], rfl, rfl⟩
  · by_cases hc : c = '>'
    · subst hc
      exact ⟨['>'], right, rfl, rfl⟩
    · exact ⟨[], c :: right, rfl, by rw [maybe, run, run_char_of_ne hc]; rfl⟩

/-- A destination goes as far as it can. -/
theorem exists_address_of_run
    (h : destinationPattern.run ⟨before, rest⟩ []
      (fun q groups => some (⟨⟨start, q.rest⟩, groups⟩ : Match)) = some m) :
    ∃ address tail, rest = address ++ (tail ++ m.whole.stop) ∧ address ≠ [] ∧
      (∀ c ∈ address, goesOn c = true) ∧ (∀ c ∈ (tail ++ m.whole.stop).head?, goesOn c = false) ∧
      m.groups = [(1, ⟨rest, tail ++ m.whole.stop⟩)] := by
  have hsplit := List.takeWhile_append_dropWhile (p := goesOn) (l := rest)
  have haddress : ∀ c ∈ rest.takeWhile goesOn, goesOn c = true :=
    List.all_eq_true.1 List.all_takeWhile
  have hright : ∀ c ∈ (rest.dropWhile goesOn).head?, goesOn c = false := fun c hc => by
    have hnot := List.head?_dropWhile_not goesOn rest
    rw [hc] at hnot
    simpa using hnot
  have hne : rest.takeWhile goesOn ≠ [] := by
    intro hnil
    obtain ⟨q, groups, ⟨_, _, ⟨_, hmany, -⟩, -⟩, -⟩ := exists_covers_of_run h
    obtain ⟨cs, hcs, hall, hrest, -⟩ := hmany.exists_many1
    obtain ⟨c, cs, rfl⟩ := List.exists_cons_of_ne_nil hcs
    have hcons : rest = c :: (cs ++ _) := hrest
    rw [hcons, List.takeWhile_cons_of_pos (hall c List.mem_cons_self)] at hnil
    cases hnil
  generalize rest.takeWhile goesOn = address at hsplit haddress hne
  generalize rest.dropWhile goesOn = right at hsplit hright
  subst hsplit
  obtain ⟨tail, stop, hstop, hclosing⟩ :=
    run_closing start (lastOf before address) right [(1, ⟨address ++ right, right⟩)]
  have hrun : destinationPattern.run ⟨before, address ++ right⟩ [] (fun q groups =>
      some (⟨⟨start, q.rest⟩, groups⟩ : Match)) =
        some ⟨⟨start, stop⟩, [(1, ⟨address ++ right, right⟩)]⟩ :=
    run_many1_of_longest hne haddress hright hclosing
  cases hrun.symm.trans h
  subst hstop
  exact ⟨address, tail, rfl, hne, haddress, hright, rfl⟩

/-- A destination is found where one can begin. -/
theorem isSome_run_destination {c : Char} (start : List Char) (before : Option Char)
    (rest : List Char) (hc : goesOn c = true) :
    (destinationPattern.run ⟨before, c :: rest⟩ []
      (fun q groups => some (⟨⟨start, q.rest⟩, groups⟩ : Match))).isSome = true := by
  have hclosing : (maybe (char '>')).Passes [] rest :=
    Passes.right (char '>') fun before groups => ⟨before, groups, rfl, rfl⟩
  have haddress : (many1 goesOn).Passes [c] ([] ++ rest) :=
    passes_many1 (List.cons_ne_nil c []) (by simpa using hc)
  obtain ⟨before', groups', hcovers⟩ := (haddress.group 1).seq hclosing before []
  exact isSome_run_of_covers hcovers rfl

/-- An angle bracket is passed when there is more behind it. -/
theorem exists_opening_of_run
    (h : (maybe (char '<')).run ⟨before, rest⟩ [] (fun p groups => destinationPattern.run p groups
      (fun q groups => some (⟨⟨start, q.rest⟩, groups⟩ : Match))) = some m) :
    ∃ opening address tail, rest = opening ++ (address ++ (tail ++ m.whole.stop)) ∧
      (opening = ['<'] ∨ opening = [] ∧ (address.head? = some '<' → address = ['<'])) ∧
      address ≠ [] ∧ (∀ c ∈ address, goesOn c = true) ∧
      (∀ c ∈ (tail ++ m.whole.stop).head?, goesOn c = false) ∧
      m.groups = [(1, ⟨address ++ (tail ++ m.whole.stop), tail ++ m.whole.stop⟩)] := by
  rw [maybe, run] at h
  split at h
  · rename_i found hfound
    cases h
    obtain ⟨q, groups, ⟨c, hrest, -, hc, rfl⟩, hrun⟩ := exists_covers_of_run hfound
    obtain rfl := eq_of_beq hc
    obtain ⟨address, tail, hq, hne, haddress, hright, hgroups⟩ := exists_address_of_run hrun
    exact ⟨['<'], address, tail, by rw [show rest = _ from hrest, hq]; rfl, .inl rfl, hne, haddress,
      hright, hq ▸ hgroups⟩
  · rename_i hnone
    obtain ⟨address, tail, rfl, hne, haddress, hright, hgroups⟩ := exists_address_of_run h
    refine ⟨[], address, tail, rfl, .inr ⟨rfl, fun hhead => ?_⟩, hne, haddress, hright, hgroups⟩
    -- had there been more, the bracket would have been passed
    obtain ⟨cs, rfl⟩ := List.head?_eq_some_iff.1 hhead
    cases cs with
    | nil => rfl
    | cons d cs =>
      have hsome := isSome_run_destination start (some '<') (cs ++ (tail ++ m.whole.stop))
        (haddress d (by simp))
      rw [List.cons_append, run_char, List.cons_append] at hnone
      rw [hnone] at hsome
      cases hsome

end Destination

/-- **Nothing is found in Markdown that does not look like a destination.** -/
theorem exists_looksLikeDestination (h : markdownImage.matchAt p = some m) :
    ∃ lead address tail, p.rest = lead ++ (address ++ (tail ++ m.whole.stop)) ∧
      (∀ before, LooksLikeDestination (before ++ lead) address (tail ++ m.whole.stop)) ∧
      m.groups = [(1, ⟨address ++ (tail ++ m.whole.stop), tail ++ m.whole.stop⟩)] := by
  rw [markdownImage_eq] at h
  simp only [matchAt, Pattern.sequence, run] at h
  obtain ⟨cs₁, hrest₁, h⟩ := exists_of_run_literal h
  obtain ⟨q₁, hruns₁, h⟩ := exists_runs_of_passMany h
  obtain ⟨alt, hrest₂, halt⟩ := hruns₁.exists_append
  obtain ⟨cs₂, hrest₃, h⟩ := exists_of_run_literal h
  obtain ⟨q₂, hruns₂, h⟩ := exists_runs_of_passMany h
  obtain ⟨gap, hrest₄, hgap⟩ := hruns₂.exists_append
  obtain ⟨opening, address, tail, hrest₅, hopening, hne, haddress, hright, hgroups⟩ :=
    exists_opening_of_run h
  simp only at hrest₂ hrest₄
  refine ⟨"![".toList ++ (alt ++ ("](".toList ++ (gap ++ opening))), address, tail, ?_,
    fun before => ⟨before, alt, gap, opening, rfl, ?_, hgap, hopening, hne, haddress, hright⟩,
    hgroups⟩
  · rw [hrest₁, hrest₂, hrest₃, hrest₄, hrest₅]
    simp
  · exact fun hmem => by simpa [noneOf] using halt ']' hmem

end Syndication.Images
