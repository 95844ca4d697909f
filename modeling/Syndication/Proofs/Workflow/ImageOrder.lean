import Mathlib.Data.List.Nodup
import Mathlib.Data.List.Pairwise
import Mathlib.Data.Nat.Find
import Syndication.Proofs.Workflow.Rewriting

/-!
# The order in which images are listed

The addresses of the images of a content are looked for twice, in HTML and in Markdown, and listed
once each. Each of the two lists goes through the content from its beginning to its end, but the
second comes behind the first as a whole. So the order of the addresses is that of the content as
long as no image in Markdown stands ahead of one in HTML that is listed before it.

* `placed`: the addresses that a pattern finds, with the places where they stand.
* `pairwise_distinct`: of the items of a list, those that are kept are in the order of their first
  occurrences.
* `imageSources_lists`: which addresses are listed, and in which order.
* `imageSources_disordered`: a content whose images are not listed in their order.
-/

namespace Syndication.Images

open Pattern
open Markup (IsQuotationMark)

/-! ### Places -/

/-- The text from the beginning of a group on. -/
def from? (m : Match) (number : Nat) : Option (List Char) :=
  (m.groups.find? (·.1 == number)).map fun g => g.2.start

/-- **The addresses that a pattern finds in a content**, from which images can be fetched, each with
the number of characters that stand before it. -/
def placed (pattern : Pattern) (content : String) : List (Nat × String) :=
  ((pattern.allMatches content.toList).map fun m =>
    (content.toList.length - ((from? m 1).getD []).length, String.ofList (m.group 1))).filter
      fun image => isRemote image.2

/-- The addresses of the images in HTML. -/
abbrev inHtml (content : String) : List (Nat × String) :=
  placed htmlImage content

/-- The addresses of the images in Markdown. -/
abbrev inMarkdown (content : String) : List (Nat × String) :=
  placed markdownImage content

/-- **An address stands before all places of another one.** -/
def Leads (images : List (Nat × String)) (a b : String) : Prop :=
  ∃ n, (n, a) ∈ images ∧ ∀ k, (k, b) ∈ images → n < k

theorem imageSources_eq (content : String) :
    imageSources content = distinct ((inHtml content ++ inMarkdown content).map (·.2)) := by
  have hsources (pattern : Pattern) :
      ((pattern.allMatches content.toList).map fun m => String.ofList (m.group 1)).filter isRemote =
        (placed pattern content).map (·.2) := by
    unfold placed
    rw [List.filter_map, List.filter_map, List.map_map]
    rfl
  rw [List.map_append, ← hsources, ← hsources, ← List.filter_append]
  rfl

section Places

variable {pattern : Pattern} {Found : List Char → List Char → List Char → List Char → Prop}
  {content : String} {n : Nat} {a : String}

/-- A match in a text is one that a pattern locates there. -/
theorem exists_found_of_mem (hpattern : Locates pattern Found) {text : List Char} {m : Match}
    (h : m ∈ pattern.allMatches text) :
    ∃ left lead value tail, text = left ++ (lead ++ (value ++ (tail ++ m.whole.stop))) ∧
      Found lead value tail m.whole.stop ∧
      m.groups = [(1, ⟨value ++ (tail ++ m.whole.stop), tail ++ m.whole.stop⟩)] := by
  obtain ⟨piece, hmem, hpiece⟩ := List.mem_filterMap.1 h
  obtain rfl : piece = .hit m := by
    cases piece with
    | plain c => cases hpiece
    | hit m' => cases hpiece; rfl
  obtain ⟨front, back, hscan⟩ := List.append_of_mem hmem
  obtain ⟨before, hback⟩ := exists_scanFrom_of_append hscan
  obtain ⟨lead, value, tail, hrest, hfound, hgroups⟩ := hpattern _ m (matchAt_of_hit hback).1
  refine ⟨front.flatMap Piece.text, lead, value, tail, ?_, hfound, hgroups⟩
  rw [← hrest, ← List.flatMap_append, ← hscan, flatMap_text_scan]

/-- **Where an address is placed it stands**, with what the pattern has passed before it. -/
theorem exists_found_of_placed (hpattern : Locates pattern Found)
    (h : (n, a) ∈ placed pattern content) :
    ∃ left lead tail stop, content.toList = left ++ (lead ++ (a.toList ++ (tail ++ stop))) ∧
      n = (left ++ lead).length ∧ Found lead a.toList tail stop := by
  obtain ⟨m, hm, himage⟩ := List.mem_map.1 (List.mem_filter.1 h).1
  obtain ⟨left, lead, value, tail, htext, hfound, hgroups⟩ := exists_found_of_mem hpattern hm
  have hgroup : m.group 1 = value := by
    rw [Match.group, hgroups]
    exact Span.text_mk_append value (tail ++ m.whole.stop)
  have hfrom : from? m 1 = some (value ++ (tail ++ m.whole.stop)) := by
    rw [from?, hgroups]
    rfl
  obtain ⟨rfl, rfl⟩ := Prod.mk.inj himage
  refine ⟨left, lead, tail, m.whole.stop, ?_, ?_, ?_⟩
  · rw [String.toList_ofList, hgroup, htext]
  · rw [hfrom, htext, ← List.append_assoc]
    exact Nat.sub_eq_of_eq_add List.length_append
  · rwa [String.toList_ofList, hgroup]

/-- Each later match has its address further on. -/
theorem pairwise_from_of_pieces (hpattern : Locates pattern Found)
    (hne : ∀ lead value tail stop, Found lead value tail stop → value ≠ [])
    {before : Option Char} {pieces : List Piece}
    (h : pattern.scanFrom 0 before (pieces.flatMap Piece.text) = pieces) :
    ((pieces.filterMap Piece.match?).map fun m => ((from? m 1).getD []).length).Pairwise (· > ·) ∧
      ∀ m ∈ pieces.filterMap Piece.match?,
        ((from? m 1).getD []).length ≤ (pieces.flatMap Piece.text).length := by
  induction pieces generalizing before with
  | nil => exact ⟨List.Pairwise.nil, List.forall_mem_nil _⟩
  | cons piece pieces ih =>
    obtain ⟨before', hlater⟩ := exists_scanFrom_of_append (h.trans List.singleton_append.symm)
    obtain ⟨hpairwise, hle⟩ := ih hlater
    have hshorter : (pieces.flatMap Piece.text).length ≤
        ((piece :: pieces).flatMap Piece.text).length := by
      rw [List.flatMap_cons, List.length_append]
      exact Nat.le_add_left _ _
    cases piece with
    | plain c => exact ⟨hpairwise, fun m hm => Nat.le_trans (hle m hm) hshorter⟩
    | hit m =>
      have hstop : m.whole.stop = pieces.flatMap Piece.text :=
        stop_of_hit (h.trans (List.nil_append _).symm)
      obtain ⟨lead, value, tail, hrest, hfound, hgroups⟩ := hpattern _ m (matchAt_of_hit h).1
      have hfrom : (from? m 1).getD [] = value ++ (tail ++ pieces.flatMap Piece.text) := by
        rw [from?, hgroups, hstop]
        rfl
      have hlength : ((from? m 1).getD []).length ≤
          ((Piece.hit m :: pieces).flatMap Piece.text).length := by
        rw [show (Piece.hit m :: pieces).flatMap Piece.text = _ from hrest, hfrom, hstop]
        simp only [List.length_append]
        omega
      -- behind the match there is less than from its address on
      have hpos : 0 < value.length := List.length_pos_iff.2 (hne lead value tail _ hfound)
      have hbehind : (pieces.flatMap Piece.text).length < ((from? m 1).getD []).length := by
        rw [hfrom, List.length_append, List.length_append]
        omega
      refine ⟨List.pairwise_cons.2 ⟨?_, hpairwise⟩, List.forall_mem_cons.2 ⟨hlength, ?_⟩⟩
      · intro k hk
        obtain ⟨m', hm', rfl⟩ := List.mem_map.1 hk
        exact Nat.lt_of_le_of_lt (hle m' hm') hbehind
      · exact fun m' hm' => Nat.le_trans (hle m' hm') hshorter

/-- **The addresses that a pattern finds are in the order of the content.** -/
theorem pairwise_placed (hpattern : Locates pattern Found)
    (hne : ∀ lead value tail stop, Found lead value tail stop → value ≠ []) (content : String) :
    (placed pattern content).Pairwise (·.1 < ·.1) := by
  have hscan : pattern.scanFrom 0 none ((pattern.scan content.toList).flatMap Piece.text) =
      pattern.scan content.toList := by
    rw [flatMap_text_scan]
    rfl
  obtain ⟨hpairwise, hle⟩ := pairwise_from_of_pieces hpattern hne hscan
  rw [flatMap_text_scan] at hle
  refine List.Pairwise.filter _ (List.pairwise_map.2 ?_)
  refine List.Pairwise.imp_of_mem ?_ (List.pairwise_map.1 hpairwise)
  intro m m' hm hm' hlt
  have hm := hle m hm
  show _ - _ < _ - _
  omega

end Places

/-! ### The two kinds of images -/

theorem Assigns.ne_nil {sign value right : List Char} (h : Assigns sign value right) :
    value ≠ [] := by
  cases h with
  | intro _ _ _ hne _ _ => exact hne

/-- The value of a `src` is behind a quotation mark. -/
theorem Assigns.exists_mark {sign value right : List Char} (h : Assigns sign value right) :
    ∃ c, sign.getLast? = some c ∧ IsQuotationMark c := by
  cases h with
  | @intro gap gap' _ _ mark _ _ _ hmark _ _ _ =>
    refine ⟨mark, ?_, hmark⟩
    show (("src".toList ++ (gap ++ '=' :: (gap' ++ [mark]))).getLast?) = some mark
    rw [← List.cons_append, ← List.append_assoc, ← List.append_assoc]
    exact List.getLast?_concat

theorem ne_nil_of_foundSource (lead value tail stop : List Char)
    (h : FoundSource lead value tail stop) : value ≠ [] := by
  obtain ⟨-, front, sign, -, hfirst⟩ := h
  exact hfirst.assigns.ne_nil

theorem ne_nil_of_foundDestination (lead value tail stop : List Char)
    (h : FoundDestination lead value tail stop) : value ≠ [] := by
  obtain ⟨_, _, _, _, -, -, -, -, hne, -⟩ := h []
  exact hne

/-- A quotation mark stands before the address of an image in HTML. -/
theorem exists_mark_before (left : List Char) {lead value tail stop : List Char}
    (h : FoundSource lead value tail stop) :
    ∃ c, (left ++ lead).getLast? = some c ∧ IsQuotationMark c := by
  obtain ⟨-, front, sign, rfl, hfirst⟩ := h
  obtain ⟨c, hlast, hmark⟩ := hfirst.assigns.exists_mark
  refine ⟨c, ?_, hmark⟩
  have hne : sign ≠ [] := by
    rintro rfl
    cases hlast
  rw [← hlast, ← List.append_assoc, ← List.append_assoc, List.getLast?_append_of_ne_nil _ hne]

/-- A bracket or a blank stands before the address of an image in Markdown. -/
theorem not_mark_before {left lead value tail stop : List Char}
    (h : FoundDestination lead value tail stop) {c : Char}
    (hc : (left ++ lead).getLast? = some c) : ¬ IsQuotationMark c := by
  obtain ⟨before, alt, gap, opening, hleft, -, hgap, hopening, -, -, -⟩ := h left
  have hends : left ++ lead =
      (before ++ ("![".toList ++ (alt ++ [']']))) ++ ('(' :: gap ++ opening) := by
    rw [hleft]
    simp
  have hlast : ('(' :: gap ++ opening).getLast? = some c := by
    rw [hends, List.getLast?_append_of_ne_nil _ (by simp)] at hc
    exact hc
  have hmem := List.mem_of_getLast? hlast
  have hblank (d : Char) (hd : IsQuotationMark d) : Text.isBlank d = false := by
    rcases hd with rfl | rfl <;> rfl
  intro hmark
  -- what stands there is the bracket, a blank of the gap or the angle bracket
  rcases List.mem_append.1 hmem with hmem | hmem
  · rcases List.mem_cons.1 hmem with rfl | hmem
    · simp [IsQuotationMark] at hmark
    · have := hgap c hmem
      rw [hblank c hmark] at this
      cases this
  · rcases hopening with rfl | ⟨rfl, -⟩
    · rw [List.mem_singleton.1 hmem] at hmark
      simp [IsQuotationMark] at hmark
    · cases hmem

/-- No address is found as that of an image of both kinds at one place. -/
theorem ne_of_inHtml_of_inMarkdown {content : String} {n k : Nat} {a b : String}
    (ha : (n, a) ∈ inHtml content) (hb : (k, b) ∈ inMarkdown content) : n ≠ k := by
  obtain ⟨left, lead, tail, stop, htext, rfl, hfound⟩ :=
    exists_found_of_placed locates_htmlImage ha
  obtain ⟨left', lead', tail', stop', htext', rfl, hfound'⟩ :=
    exists_found_of_placed locates_markdownImage hb
  intro hlength
  -- at one place the same character would stand before both addresses
  have hsame : left ++ lead = left' ++ lead' := by
    rw [← List.append_assoc] at htext htext'
    exact (List.append_inj (htext.symm.trans htext') hlength).1
  obtain ⟨c, hc, hmark⟩ := exists_mark_before left hfound
  rw [hsame] at hc
  exact not_mark_before hfound' hc hmark

/-! ### First occurrences -/

section Distinct

variable {α : Type} [DecidableEq α]

/-- **What is kept is in the order of its first occurrences.** -/
theorem pairwise_distinct (l : List α) : (distinct l).Pairwise fun x y =>
    ∃ before after, l = before ++ x :: after ∧ y ∉ before ∧ x ≠ y := by
  induction l with
  | nil => exact List.Pairwise.nil
  | cons a l ih =>
    rw [distinct]
    refine List.pairwise_cons.2 ⟨?_, ?_⟩
    · intro y hy
      have hne : y ≠ a := by simpa using (List.mem_filter.1 hy).2
      exact ⟨[], l, rfl, List.not_mem_nil, hne.symm⟩
    · refine List.Pairwise.imp_of_mem ?_ (ih.filter _)
      rintro x y - hy ⟨before, after, rfl, hbefore, hxy⟩
      have hne : y ≠ a := by simpa using (List.mem_filter.1 hy).2
      exact ⟨a :: before, after, rfl, by simp [hne, hbefore], hxy⟩

end Distinct

/-- Two items of a list stand in it in one order or the other. -/
theorem rel_or_rel_of_pairwise {α : Type} {R : α → α → Prop} {l : List α} {x y : α}
    (h : l.Pairwise R) (hx : x ∈ l) (hy : y ∈ l) (hne : x ≠ y) : R x y ∨ R y x := by
  have hsymm : Std.Symm fun x y => R x y ∨ R y x := ⟨fun _ _ => Or.symm⟩
  have heither : l.Pairwise fun x y => R x y ∨ R y x := h.imp .inl
  exact heither.forall hx hy hne

variable {images images' : List (Nat × String)} {a b : String}

/-- An address that comes first in an ordered list stands before the other one. -/
theorem leads_of_append {before after : List String} (hsorted : images.Pairwise (·.1 < ·.1))
    (h : images.map (·.2) = before ++ a :: after) (hb : b ∉ before) (hne : a ≠ b) :
    Leads images a b := by
  obtain ⟨front, back, rfl, hfront, hback⟩ := List.map_eq_append_iff.1 h
  obtain ⟨⟨n, _⟩, back, rfl, rfl, -⟩ := List.map_eq_cons_iff.1 hback
  refine ⟨n, by simp, fun k hk => ?_⟩
  rcases List.mem_append.1 hk with hk | hk
  · exact absurd (hfront ▸ List.mem_map_of_mem hk) hb
  · rcases List.mem_cons.1 hk with hk | hk
    · exact absurd (Prod.mk.inj hk).2.symm hne
    · exact (List.pairwise_cons.1 (List.pairwise_append.1 hsorted).2.1).1 _ hk

/-- **Of two addresses one stands before the other in HTML**, or in Markdown when neither stands in
HTML. -/
def Precedes (images images' : List (Nat × String)) (a b : String) : Prop :=
  Leads images a b ∨ (∀ n, (n, a) ∉ images) ∧ (∀ n, (n, b) ∉ images) ∧ Leads images' a b

theorem pairwise_distinct_append (hsorted : images.Pairwise (·.1 < ·.1))
    (hsorted' : images'.Pairwise (·.1 < ·.1)) :
    (distinct ((images ++ images').map (·.2))).Pairwise (Precedes images images') := by
  refine (pairwise_distinct _).imp ?_
  rintro a b ⟨before, after, hsplit, hb, hne⟩
  rw [List.map_append] at hsplit
  have hnotMem {c : String} (hc : c ∉ images.map (·.2)) (n : Nat) : (n, c) ∉ images :=
    fun hmem => hc (List.mem_map_of_mem hmem)
  -- the place lies in the second list, and so the other address is nowhere in the first one
  have hsecond (front : List String) (hbefore : before = images.map (·.2) ++ front)
      (himages' : images'.map (·.2) = front ++ a :: after) : Precedes images images' a b := by
    rw [hbefore, List.mem_append, not_or] at hb
    by_cases ha : a ∈ images.map (·.2)
    · obtain ⟨⟨n, _⟩, hmem, rfl⟩ := List.mem_map.1 ha
      exact .inl ⟨n, hmem, fun k hk => absurd hk (hnotMem hb.1 k)⟩
    · exact .inr ⟨hnotMem ha, hnotMem hb.1, leads_of_append hsorted' himages' hb.2 hne⟩
  rcases List.append_eq_append_iff.1 hsplit with ⟨front, hbefore, himages'⟩ | ⟨back, himages, hback⟩
  · exact hsecond front hbefore himages'
  · cases back with
    | nil =>
      rw [List.append_nil] at himages
      exact hsecond [] (himages ▸ (List.append_nil _).symm) hback.symm
    | cons c back =>
      obtain ⟨rfl, -⟩ := List.cons.inj hback
      exact .inl (leads_of_append hsorted himages hb hne)

/-! ### The order of the content -/

/-- An address that stands somewhere has a first place. -/
theorem exists_first_place {n : Nat} (h : (n, a) ∈ images) :
    ∃ n, (n, a) ∈ images ∧ ∀ k, (k, a) ∈ images → n ≤ k := by
  classical
  have hexists : ∃ n, (n, a) ∈ images := ⟨n, h⟩
  exact ⟨Nat.find hexists, Nat.find_spec hexists, fun k hk => Nat.find_min' hexists hk⟩

/-- In an ordered list one place has one address. -/
theorem eq_of_place {n : Nat} (hsorted : images.Pairwise (·.1 < ·.1)) (ha : (n, a) ∈ images)
    (hb : (n, b) ∈ images) : a = b := by
  have hnodup : (images.map (·.1)).Nodup := List.pairwise_map.2 (hsorted.imp Nat.ne_of_lt)
  exact (Prod.mk.inj (List.inj_on_of_nodup_map hnodup ha hb rfl)).2

theorem pairwise_inHtml (content : String) : (inHtml content).Pairwise (·.1 < ·.1) :=
  pairwise_placed locates_htmlImage ne_nil_of_foundSource content

theorem pairwise_inMarkdown (content : String) : (inMarkdown content).Pairwise (·.1 < ·.1) :=
  pairwise_placed locates_markdownImage ne_nil_of_foundDestination content

/-- All addresses with their places. -/
abbrev placedImages (content : String) : List (Nat × String) :=
  inHtml content ++ inMarkdown content

theorem eq_of_place_placedImages {content : String} {n : Nat} (ha : (n, a) ∈ placedImages content)
    (hb : (n, b) ∈ placedImages content) : a = b := by
  rcases List.mem_append.1 ha with ha | ha <;> rcases List.mem_append.1 hb with hb | hb
  · exact eq_of_place (pairwise_inHtml content) ha hb
  · exact absurd rfl (ne_of_inHtml_of_inMarkdown ha hb)
  · exact absurd rfl (ne_of_inHtml_of_inMarkdown hb ha)
  · exact eq_of_place (pairwise_inMarkdown content) ha hb

/-- **No image in Markdown comes first**: where an address stands in Markdown before all places of
one that stands in HTML, it stands before that one in HTML as well. -/
def HtmlFirst (content : String) : Prop :=
  ∀ i j a b, (i, a) ∈ inHtml content → (j, b) ∈ inMarkdown content →
    (∀ k, (k, a) ∈ placedImages content → j < k) → Leads (inHtml content) b a

/-- Addresses in the order of the lists are in that of the content, where HTML comes first. -/
theorem leads_of_precedes {content : String} (hfirst : HtmlFirst content)
    (h : Precedes (inHtml content) (inMarkdown content) a b) (hne : a ≠ b) :
    Leads (placedImages content) a b := by
  rcases h with ⟨i, hi, hleads⟩ | ⟨-, hb, n, hn, hleads⟩
  · have hplaced : (i, a) ∈ placedImages content := List.mem_append_left _ hi
    obtain ⟨n, hn, hleast⟩ := exists_first_place hplaced
    refine ⟨n, hn, fun k hk => ?_⟩
    by_contra hle
    have hother : k ≠ n := fun heq => hne (eq_of_place_placedImages hn (heq ▸ hk))
    have hlt : k < n := by omega
    rcases List.mem_append.1 hk with hk | hk
    · have hik : i < k := hleads k hk
      have hni : n ≤ i := hleast i hplaced
      omega
    · -- an image in Markdown that stands first would have one in HTML before it
      obtain ⟨j, hj, hback⟩ := hfirst i k a b hi hk fun l hl => Nat.lt_of_lt_of_le hlt (hleast l hl)
      exact Nat.lt_asymm (hback i hi) (hleads j hj)
  · refine ⟨n, List.mem_append_right _ hn, fun k hk => ?_⟩
    rcases List.mem_append.1 hk with hk | hk
    · exact absurd hk (hb k)
    · exact hleads k hk

theorem pairwise_imageSources (content : String) :
    (imageSources content).Pairwise (Precedes (inHtml content) (inMarkdown content)) := by
  rw [imageSources_eq]
  exact pairwise_distinct_append (pairwise_inHtml content) (pairwise_inMarkdown content)

theorem mem_imageSources_iff {content : String} :
    a ∈ imageSources content ↔ ∃ n, (n, a) ∈ placedImages content := by
  rw [imageSources_eq, mem_distinct, List.mem_map]
  constructor
  · rintro ⟨⟨n, _⟩, hmem, rfl⟩
    exact ⟨n, hmem⟩
  · rintro ⟨n, hmem⟩
    exact ⟨(n, a), hmem, rfl⟩

/-- **The addresses are listed in the order of the content just when HTML comes first.** -/
theorem pairwise_leads_iff (content : String) :
    (imageSources content).Pairwise (Leads (placedImages content)) ↔ HtmlFirst content := by
  constructor
  · intro hordered i j a b hi hj hbefore
    have ha : a ∈ imageSources content := mem_imageSources_iff.2 ⟨i, List.mem_append_left _ hi⟩
    have hb : b ∈ imageSources content := mem_imageSources_iff.2 ⟨j, List.mem_append_right _ hj⟩
    have hne : a ≠ b := by
      rintro rfl
      exact Nat.lt_irrefl j (hbefore j (List.mem_append_right _ hj))
    have hboth := hordered.and (pairwise_imageSources content)
    rcases rel_or_rel_of_pairwise hboth ha hb hne with ⟨⟨n, hn, hleads⟩, -⟩ | ⟨-, hprecedes⟩
    · -- the address in HTML is not listed first, since it does not stand first
      have hnj : n < j := hleads j (List.mem_append_right _ hj)
      exact absurd hnj (Nat.lt_asymm (hbefore n hn))
    · rcases hprecedes with hleads | ⟨-, hnone, -⟩
      · exact hleads
      · exact absurd hi (hnone i)
  · intro hfirst
    have hdistinct : (imageSources content).Pairwise (· ≠ ·) := nodup_imageSources content
    refine ((pairwise_imageSources content).and hdistinct).imp ?_
    rintro a b ⟨hprecedes, hne⟩
    exact leads_of_precedes hfirst hprecedes hne

/-- A place stands for its address. -/
theorem prefix_of_placedImages {content : String} {n : Nat} (h : (n, a) ∈ placedImages content) :
    a.toList <+: content.toList.drop n := by
  have hplaced : ∃ before after,
      content.toList = before ++ (a.toList ++ after) ∧ n = before.length := by
    rcases List.mem_append.1 h with h | h
    · obtain ⟨left, lead, tail, stop, htext, hn, -⟩ := exists_found_of_placed locates_htmlImage h
      exact ⟨left ++ lead, tail ++ stop, htext.trans (List.append_assoc _ _ _).symm, hn⟩
    · obtain ⟨left, lead, tail, stop, htext, hn, -⟩ :=
        exists_found_of_placed locates_markdownImage h
      exact ⟨left ++ lead, tail ++ stop, htext.trans (List.append_assoc _ _ _).symm, hn⟩
  obtain ⟨before, after, htext, rfl⟩ := hplaced
  rw [htext, List.drop_left]
  exact List.prefix_append _ _

/-- A match has a place when images can be fetched from its address. -/
theorem exists_placed_iff {pattern : Pattern} {content : String} :
    (∃ n, (n, a) ∈ placed pattern content) ↔
      isRemote a = true ∧ ∃ m ∈ pattern.allMatches content.toList, String.ofList (m.group 1) = a := by
  constructor
  · rintro ⟨n, h⟩
    obtain ⟨hmem, hremote⟩ := List.mem_filter.1 h
    obtain ⟨m, hm, himage⟩ := List.mem_map.1 hmem
    exact ⟨hremote, m, hm, (Prod.mk.inj himage).2⟩
  · rintro ⟨hremote, m, hm, rfl⟩
    exact ⟨_, List.mem_filter.2 ⟨List.mem_map_of_mem hm, hremote⟩⟩

/-- **The list of the images of a content.** It has each address once, and just the remote ones that
one of the two patterns finds. They are listed in the order in which they come in HTML, and behind
them in that in which the others come in Markdown; this is the order of the content just when HTML
comes first. -/
theorem imageSources_lists (content : String) :
    (imageSources content).Nodup ∧
    (∀ a, a ∈ imageSources content ↔ isRemote a = true ∧ ∃ m,
      (m ∈ htmlImage.allMatches content.toList ∨ m ∈ markdownImage.allMatches content.toList) ∧
        String.ofList (m.group 1) = a) ∧
    (∀ n a, (n, a) ∈ placedImages content → a.toList <+: content.toList.drop n) ∧
    (imageSources content).Pairwise (Precedes (inHtml content) (inMarkdown content)) ∧
    ((imageSources content).Pairwise (Leads (placedImages content)) ↔ HtmlFirst content) := by
  refine ⟨nodup_imageSources content, fun a => ?_, fun n a => prefix_of_placedImages,
    pairwise_imageSources content, pairwise_leads_iff content⟩
  calc a ∈ imageSources content
    _ ↔ (∃ n, (n, a) ∈ inHtml content) ∨ ∃ n, (n, a) ∈ inMarkdown content := by
      rw [mem_imageSources_iff, ← exists_or]
      exact exists_congr fun n => List.mem_append
    _ ↔ _ := by
      rw [exists_placed_iff, exists_placed_iff, ← and_or_left, ← exists_or]
      simp only [or_and_right]

/-- An image in Markdown ahead of one in HTML. -/
def imagesOfBothKinds : String :=
  "![a](https://img.test/a.png) <img src=\"https://img.test/b.png\">"

/-- **Not every content has its images listed in their order**: an image in Markdown may come
before one in HTML. -/
theorem imageSources_disordered :
    ¬ (imageSources imagesOfBothKinds).Pairwise (Leads (placedImages imagesOfBothKinds)) := by
  have hhtml : inHtml imagesOfBothKinds = [(39, "https://img.test/b.png")] := by decide +kernel
  have hmarkdown : inMarkdown imagesOfBothKinds = [(5, "https://img.test/a.png")] := by
    decide +kernel
  rw [pairwise_leads_iff]
  intro hfirst
  rw [HtmlFirst, placedImages, hhtml, hmarkdown] at hfirst
  obtain ⟨n, hn, -⟩ := hfirst 39 5 _ _ List.mem_cons_self List.mem_cons_self (by simp)
  simp at hn

end Syndication.Images
