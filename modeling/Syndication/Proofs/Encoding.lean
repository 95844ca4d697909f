import Syndication.Article.Basic
import Syndication.Proofs.Definition.Encoding

/-!
# What is decoded is decoded again

A definition or an article that is decoded from a text is written with all its fields under their
own names, and what is written is decoded again. As a value, it is what it was. As a text, an
article is what it was, and so is a definition, but for numbers of double precision in the bodies of
its endpoints: a number is written with the shortest digits that are nearest to it, and these are
read by a division or a multiplication that rounds once more, so that a neighbour may be read.

* `Article.ofDocument?_write`, `Article.decode?_compact_write`: articles.
* `decode?_encode`: definitions and articles that are decoded.
* `decode?_encode_changes`: a number that is not read back from its text.
-/

namespace Syndication

open Document (NamesApart Record exists_record? ofJson)
open Json (Lists readable_ofOption readable_ofStrings)

variable {object : List (String × Json) → Json}

/-! ### Articles -/

namespace Article

theorem namesApart_layout : NamesApart layout := by decide

/-- **An article is read back from its document.** -/
theorem ofDocument?_write (hobject : Lists object) (a : Article) :
    ofDocument? (ofJson (object a.members)) = some a := by
  have hnames : a.members.map (·.1) = layout.map (·.name) := rfl
  obtain ⟨r, hr, hfields⟩ := exists_record? hobject namesApart_layout hnames
  simp only [members, List.forall_mem_cons, List.not_mem_nil, false_imp_iff,
    implies_true] at hfields
  obtain ⟨htitle, hmarkdown, hhtml, hsummary, hcover, htags, hcategories, hsource, -⟩ := hfields
  rw [ofDocument?, hr, Option.bind_eq_bind, Option.bind_some,
    Record.withDefault?_bind htitle (Document.string?_ofJson _),
    Record.withDefault?_bind hmarkdown (Document.optional?_ofOption _),
    Record.withDefault?_bind hhtml (Document.optional?_ofOption _),
    Record.withDefault?_bind hsummary (Document.optional?_ofOption _),
    Record.withDefault?_bind hcover (Document.optional?_ofOption _),
    Record.withDefault?_bind htags (Document.list?_ofStrings _),
    Record.withDefault?_bind hcategories (Document.list?_ofStrings _),
    Record.withDefault?_bind hsource (Document.optional?_ofOption _)]
  rfl

/-- No number stands in what is written for an article. -/
theorem reread_write (hobject : Lists object) (a : Article) :
    (object a.members).reread = object a.members := by
  have hmembers : KeyMap.mapValues Json.reread a.members = a.members := by
    simp only [members, KeyMap.mapValues_cons, KeyMap.mapValues_nil, Json.mapNumbers_string,
      Json.mapNumbers_of_numbers (Json.numbers_ofOption _),
      Json.mapNumbers_of_numbers (Json.numbers_ofStrings _)]
  rw [Json.reread, hobject.mapNumbers]
  exact congrArg object hmembers

theorem readable_write (hobject : Lists object) (a : Article) : (object a.members).Readable 0 := by
  refine hobject.readable namesApart_layout.1 (by decide) ?_
  simp only [members, List.forall_mem_cons, List.not_mem_nil, false_imp_iff, implies_true, and_true]
  exact ⟨.string _, readable_ofOption _, readable_ofOption _, readable_ofOption _,
    readable_ofOption _, readable_ofStrings _ (by decide), readable_ofStrings _ (by decide),
    readable_ofOption _⟩

/-- **An article is read back from its text.** -/
theorem decode?_compact_write (hobject : Lists object) (a : Article) :
    decode? (object a.members).compact = some a := by
  rw [decode?, Json.document?_compact (readable_write hobject a), Option.bind_some,
    reread_write hobject]
  exact ofDocument?_write hobject a

end Article

/-! ### What is decoded -/

/-- A definition that is decoded can be written, and its bodies can be read in their places. -/
theorem DefinitionSpec.writable_of_decode? {text : String} {s : DefinitionSpec}
    (h : DefinitionSpec.decode? text = some s) : s.Writable ∧ s.Fits := by
  obtain ⟨d, hd, hs⟩ := Option.bind_eq_some_iff.1 h
  exact writable_of_ofDocument? (Json.scanned_of_document? hd) hs

/-- **What is decoded is decoded again.** A definition that is decoded from any text is read back
from its value. From its text, whether its fields stand in their own order or in that of their
names, a definition is decoded that differs from it at most in the numbers of its bodies, each of
which is what its own text is read as; integers stay as they are, and the definition is the same
just when all its numbers do. Every article is read back from its value and from its text. -/
theorem decode?_encode :
    (∀ (text : String) (s : DefinitionSpec), DefinitionSpec.decode? text = some s →
      DefinitionSpec.ofDocument? (ofJson s.toJson) = some s ∧
      DefinitionSpec.decode? s.encode = some s.reread ∧
      DefinitionSpec.decode? s.toJson.compact = some s.reread ∧
      (∀ n ∈ s.numbers, Json.parse? n.text = some (.number n.reread)) ∧
      (∀ i, .integer i ∈ s.numbers → (Json.Number.integer i).reread = .integer i) ∧
      (s.reread = s ↔ ∀ n ∈ s.numbers, n.reread = n)) ∧
    ∀ a : Article,
      Article.ofDocument? (ofJson a.toJson) = some a ∧
      Article.decode? a.encode = some a ∧
      Article.decode? a.toJson.compact = some a := by
  refine ⟨fun text s h => ?_, fun a => ?_⟩
  · obtain ⟨hwritable, hfits⟩ := DefinitionSpec.writable_of_decode? h
    have hrange := DefinitionSpec.inRange_of_mem_numbers hfits
    refine ⟨DefinitionSpec.ofDocument?_write Json.lists_ofMembers hwritable,
      DefinitionSpec.decode?_compact_write Json.lists_object hwritable hfits,
      DefinitionSpec.decode?_compact_write Json.lists_ofMembers hwritable hfits,
      fun n hn => Json.parse?_text (hrange n hn), fun i hi => Json.reread_integer (hrange _ hi),
      s.reread_eq_self_iff⟩
  · exact ⟨Article.ofDocument?_write Json.lists_ofMembers a,
      Article.decode?_compact_write Json.lists_object a,
      Article.decode?_compact_write Json.lists_ofMembers a⟩

/-- A definition with other names of its fields, null, an endpoint that is written as a list, and
numbers in a body. -/
def aliasedText : String :=
  "\x7b\"displayName\":\"D\",\"icon\":null,\"authCheck\":[\"/me\"],\"endpoints\":\x7b\"p\":\x7b" ++
    "\"body\":[1,0.5],\"response\":\x7b\"successExpr\":\"ok\"\x7d\x7d\x7d\x7d"

/-- What that text says. -/
def aliasedSpec : DefinitionSpec where
  id := ""
  name := "D"
  icon := none
  homepage := ""
  capabilities := []
  contentFormat := none
  auth := some ⟨"/me", none, [], none, none, [], .empty⟩
  endpoints := [("p", ⟨"", none, [], none, some (.array [.number (.integer 1),
    .number (.double ⟨false, 4503599627370496, -53⟩)]), [], ⟨some "ok", none, []⟩⟩)]
  draftUrl := none
  postUrl := none
  requestDelayMs := none
  hooks := []

/-- The definition with the other names is decoded, and it is decoded again as it was. -/
theorem decode?_encode_aliased :
    DefinitionSpec.decode? aliasedText = some aliasedSpec ∧
      DefinitionSpec.decode? aliasedSpec.encode = some aliasedSpec := by
  have hdecode : DefinitionSpec.decode? aliasedText = some aliasedSpec := by decide +kernel
  obtain ⟨-, hencode, -, -, -, hsame⟩ := decode?_encode.1 aliasedText aliasedSpec hdecode
  have hnumbers : ∀ n ∈ aliasedSpec.numbers, n.reread = n := by decide +kernel
  rw [hsame.2 hnumbers] at hencode
  exact ⟨hdecode, hencode⟩

/-- A definition with a number that is not read back from its own digits. -/
def degreeText : String :=
  "\x7b\"auth\":\x7b\"body\":57.29577951308232087\x7d\x7d"

/-- What that text says. -/
def degreeSpec : DefinitionSpec where
  id := ""
  name := ""
  icon := none
  homepage := ""
  capabilities := []
  contentFormat := none
  auth := some ⟨"", none, [], none, some (.number (.double ⟨false, 8063664102031863, -47⟩)), [],
    .empty⟩
  endpoints := []
  draftUrl := none
  postUrl := none
  requestDelayMs := none
  hooks := []

/-- **A number may change on the way**: the digits that are written for it are read as the number
after it. -/
theorem decode?_encode_changes :
    DefinitionSpec.decode? degreeText = some degreeSpec ∧
      DefinitionSpec.decode? degreeSpec.encode ≠ some degreeSpec := by
  have hdecode : DefinitionSpec.decode? degreeText = some degreeSpec := by decide +kernel
  obtain ⟨hwritable, hfits⟩ := DefinitionSpec.writable_of_decode? hdecode
  have hencode : DefinitionSpec.decode? degreeSpec.encode = some degreeSpec.reread :=
    DefinitionSpec.decode?_compact_write Json.lists_object hwritable hfits
  have hreread : degreeSpec.reread ≠ degreeSpec := by decide +kernel
  exact ⟨hdecode, fun hsame => hreread (Option.some.inj (hencode.symm.trans hsame))⟩

end Syndication
