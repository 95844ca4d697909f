import Syndication.Proofs.Text.Edits
import Syndication.Proofs.Workflow.ImagePlaces

/-!
# Putting in hosted addresses

When the images of a content have been uploaded, their addresses are replaced: first those in HTML,
then those in Markdown in what has come of it. Each replacement puts an address in where something
looks like the address of an image and leaves everything else as it is. The two together change
the addresses of images and nothing else as long as nothing else looks like one.

Main statements:

* `Rewrites`: a content is changed in the addresses of its images only.
* `Clear`: nothing else in the content looks like the address of an image.
* `exists_edits`: what one replacement changes.
* `rewrites_withHostedImages`: what both change.
* `not_rewrites_lazyImage`: a content in which something else is changed.
-/

namespace Syndication.Images

open Pattern Text
open Markup (IsQuotationMark)

/-- **A content is changed in the addresses of its images only**, each of which becomes the one that
is hosted for it. -/
def Rewrites (hosted : KeyMap String) (content result : List Char) : Prop :=
  ∃ edits, original edits = content ∧ edited edits = result ∧
    ∀ left old new right, Swaps edits left old new right →
      hosted.find? (String.ofList old) = some (String.ofList new) ∧
        (IsSource left old right ∨ IsDestination left old right)

/-- **Nothing else in a content looks like the address of an image** that is hosted elsewhere, and
no address holds a square bracket. -/
structure Clear (hosted : KeyMap String) (content : List Char) : Prop where
  sources : ∀ left value right, content = left ++ (value ++ right) →
    LooksLikeSource left value right → hosted.find? (String.ofList value) ≠ none →
    IsSource left value right
  destinations : ∀ left address right, content = left ++ (address ++ right) →
    LooksLikeDestination left address right → IsDestination left address right
  addresses : ∀ source address, hosted.find? source = some address →
    ']' ∉ source.toList ∧ '[' ∉ address.toList ∧ ']' ∉ address.toList

variable {hosted : KeyMap String} {pattern : Pattern} {m : Match} {edits front back : List Edit}
  {lead value tail stop old new : List Char}

/-! ### One replacement -/

/-- **What a pattern finds**: its matches have a part that may be replaced, and a description fits
what stands around it. -/
def Locates (pattern : Pattern) (Found : List Char → List Char → List Char → List Char → Prop) :
    Prop :=
  ∀ p m, pattern.matchAt p = some m → ∃ lead value tail,
    p.rest = lead ++ (value ++ (tail ++ m.whole.stop)) ∧ Found lead value tail m.whole.stop ∧
    m.groups = [(1, ⟨value ++ (tail ++ m.whole.stop), tail ++ m.whole.stop⟩)]

theorem swapSource_eq (hosted : KeyMap String)
    (hwhole : m.whole = ⟨lead ++ (value ++ (tail ++ stop)), stop⟩)
    (hgroups : m.groups = [(1, ⟨value ++ (tail ++ stop), tail ++ stop⟩)]) :
    swapSource hosted m =
      lead ++ ((hosted.find? (String.ofList value)).elim value String.toList ++ tail) := by
  have hgroup : m.group 1 = value := by
    rw [Match.group, hgroups]
    exact Span.text_mk_append value (tail ++ stop)
  have htext : m.text = lead ++ (value ++ tail) := by
    rw [Match.text, hwhole]
    simpa using Span.text_mk_append (lead ++ (value ++ tail)) stop
  unfold swapSource
  rw [hgroup]
  cases hosted.find? (String.ofList value) with
  | none => exact htext
  | some address => simp [Match.substitute, hgroups, hwhole]

/-- **An address is put in where a description fits**, for the address that stood there. -/
def Fits (hosted : KeyMap String)
    (Found : List Char → List Char → List Char → List Char → Prop) (front : List Edit)
    (old new : List Char) (back : List Edit) : Prop :=
  hosted.find? (String.ofList old) = some (String.ofList new) ∧
    ∃ front' lead tail back', front = front' ++ keep lead ∧ back = keep tail ++ back' ∧
      Found lead old tail (original back')

/-- Wherever an address is put in, the description fits. -/
def AllFit (hosted : KeyMap String)
    (Found : List Char → List Char → List Char → List Char → Prop) (edits : List Edit) : Prop :=
  ∀ front old new back, edits = front ++ .swapped old new :: back →
    Fits hosted Found front old new back

section Fitting

variable {Found : List Char → List Char → List Char → List Char → Prop}

theorem Fits.append (before : List Edit) (h : Fits hosted Found front old new back) :
    Fits hosted Found (before ++ front) old new back := by
  obtain ⟨hfind, front', lead, tail, back', rfl, rfl, hfound⟩ := h
  exact ⟨hfind, before ++ front', lead, tail, back', by simp, rfl, hfound⟩

theorem AllFit.nil : AllFit hosted Found [] := by
  simp [AllFit]

theorem AllFit.keep_append (h : AllFit hosted Found edits) (cs : List Char) :
    AllFit hosted Found (keep cs ++ edits) := by
  intro front old new back hsplit
  obtain ⟨middle, rfl, hedits⟩ := exists_append_of_keep hsplit
  exact (h middle old new back hedits).append (keep cs)

/-- One more address, put in before others. -/
theorem AllFit.swap (h : AllFit hosted Found edits)
    (hfind : hosted.find? (String.ofList old) = some (String.ofList new))
    (hfound : Found lead old tail (original edits)) :
    AllFit hosted Found (keep lead ++ .swapped old new :: (keep tail ++ edits)) := by
  intro front old' new' back hsplit
  obtain ⟨middle, rfl, hedits⟩ := exists_append_of_keep hsplit
  cases middle with
  | nil =>
    obtain ⟨hedit, rfl⟩ := List.cons.inj hedits
    cases hedit
    exact ⟨hfind, [], lead, tail, edits, by simp, rfl, hfound⟩
  | cons edit middle =>
    obtain ⟨-, hrest⟩ := List.cons.inj hedits
    have hfits := h.keep_append tail middle old' new' back hrest
    simpa using hfits.append (keep lead ++ [edit])

/-- The edits of pieces of a text. -/
theorem exists_edits_of_pieces (hpattern : Locates pattern Found) (hosted : KeyMap String)
    {before : Option Char} {pieces : List Piece}
    (h : pattern.scanFrom 0 before (pieces.flatMap Piece.text) = pieces) :
    ∃ edits, original edits = pieces.flatMap Piece.text ∧
      edited edits = pieces.flatMap (Piece.render (swapSource hosted)) ∧
      AllFit hosted Found edits := by
  induction pieces generalizing before with
  | nil => exact ⟨[], rfl, rfl, .nil⟩
  | cons piece pieces ih =>
    obtain ⟨before', hlater⟩ := exists_scanFrom_of_append (h.trans List.singleton_append.symm)
    obtain ⟨edits, horiginal, hedited, hfit⟩ := ih hlater
    cases piece with
    | plain c =>
      refine ⟨.kept c :: edits, by simp [horiginal, Piece.text],
        by simp [hedited, Piece.render], hfit.keep_append [c]⟩
    | hit m =>
      have hmatch := (matchAt_of_hit h).1
      have hstop : m.whole.stop = original edits := by
        rw [horiginal]
        exact stop_of_hit (h.trans (List.nil_append _).symm)
      obtain ⟨lead, value, tail, hrest, hfound, hgroups⟩ := hpattern _ m hmatch
      rw [hstop] at hrest hfound hgroups
      have hwhole : m.whole = ⟨lead ++ (value ++ (tail ++ original edits)), original edits⟩ := by
        rw [← hrest, ← start_of_matchAt hmatch, ← hstop]
      have hswap := swapSource_eq hosted hwhole hgroups
      cases hfind : hosted.find? (String.ofList value) with
      | none =>
        rw [hfind] at hswap
        refine ⟨keep (lead ++ (value ++ tail)) ++ edits, ?_, ?_, hfit.keep_append _⟩
        · rw [original_append, original_keep]
          simpa using hrest.symm
        · rw [List.flatMap_cons, Piece.render, hswap]
          simp [hedited]
      | some address =>
        rw [hfind] at hswap
        refine ⟨keep lead ++ .swapped value address.toList :: (keep tail ++ edits), ?_, ?_,
          hfit.swap (by simpa using hfind) hfound⟩
        · simpa using hrest.symm
        · rw [List.flatMap_cons, Piece.render, hswap]
          simp [hedited]

/-- **What one replacement changes**: where it puts an address in, the description fits. -/
theorem exists_edits (hpattern : Locates pattern Found) (hosted : KeyMap String)
    (text : List Char) :
    ∃ edits, original edits = text ∧ edited edits = pattern.replace (swapSource hosted) text ∧
      AllFit hosted Found edits := by
  have hscan : pattern.scanFrom 0 none ((pattern.scan text).flatMap Piece.text) =
      pattern.scan text := by
    rw [flatMap_text_scan]
    rfl
  obtain ⟨edits, horiginal, hedited, hfit⟩ := exists_edits_of_pieces hpattern hosted hscan
  exact ⟨edits, by rw [horiginal, flatMap_text_scan], hedited, hfit⟩

end Fitting

/-- What is found in HTML: the value of a `src` behind `<img`, and the mark that closes it. -/
def FoundSource (lead value tail stop : List Char) : Prop :=
  tail ≠ [] ∧ ∃ front sign, lead = "<img".toList ++ (front ++ sign) ∧
    FirstSource front sign value (tail ++ stop)

/-- What is found in Markdown: a destination behind `![`, a text and `](`. -/
def FoundDestination (lead value tail stop : List Char) : Prop :=
  ∀ before, LooksLikeDestination (before ++ lead) value (tail ++ stop)

theorem locates_htmlImage : Locates htmlImage FoundSource := by
  intro p m h
  obtain ⟨front, sign, value, right, hrest, hfirst, hgroups, hstop⟩ := exists_looksLikeSource h
  obtain ⟨mark, rfl⟩ : ∃ mark, right = [mark] ++ m.whole.stop := by
    have hassigns := hfirst.assigns
    rw [hstop]
    cases hassigns
    exact ⟨_, rfl⟩
  exact ⟨"<img".toList ++ (front ++ sign), value, [mark], by simpa using hrest,
    ⟨List.cons_ne_nil _ _, front, sign, rfl, hfirst⟩, hgroups⟩

theorem locates_markdownImage : Locates markdownImage FoundDestination := fun _ _ h => by
  obtain ⟨lead, address, tail, hrest, hlooks, hgroups⟩ := exists_looksLikeDestination h
  exact ⟨lead, address, tail, hrest, hlooks, hgroups⟩

/-! ### Around an address in a tag -/

section Around

variable {c d : Char} {xs ys : List Char}

/-- **An address in a tag is put in between quotation marks** that stay, behind `<img` and text that
does not end the tag. -/
theorem exists_kept_around (hfit : AllFit hosted FoundSource edits)
    (h : edits = front ++ .swapped old new :: back) :
    ∃ front' inner mark mark' back', front = front' ++ keep ('<' :: 'i' :: (inner ++ [mark])) ∧
      back = .kept mark' :: back' ∧ IsQuotationMark mark ∧ IsQuotationMark mark' ∧
      'g' ∈ inner ∧ '>' ∉ inner ∧ LooksLikeSource (original front) old (original back) := by
  obtain ⟨-, front', lead, tail, back', rfl, rfl, htail, gapped, sign, rfl, hfirst⟩ :=
    hfit front old new back h
  have hlooks : LooksLikeSource (original (front' ++ keep ("<img".toList ++ (gapped ++ sign)))) old
      (original (keep tail ++ back')) :=
    ⟨original front', gapped, sign, by simp, by simpa using hfirst⟩
  obtain ⟨mark', tail, rfl⟩ := List.exists_cons_of_ne_nil htail
  have hopen := hfirst.open_tag
  obtain ⟨hgap, hgap', hmark, -, -, hmark'⟩ := hfirst.assigns
  rename_i gap gap' mark
  refine ⟨front', "mg".toList ++ (gapped ++ ("src".toList ++ (gap ++ '=' :: gap'))), mark, mark',
    keep tail ++ back', by simp, rfl, hmark, hmark', by simp, ?_, hlooks⟩
  have hblank : ∀ cs : List Char, (∀ c ∈ cs, Text.isBlank c = true) → '>' ∉ cs := by
    intro cs hcs hmem
    cases hcs '>' hmem
  simp [hopen, hblank gap hgap, hblank gap' hgap']

/-- Behind a kept character that is no quotation mark, a character is kept. -/
theorem exists_kept_after (hfit : AllFit hosted FoundSource edits)
    (h : edits = front ++ .kept d :: back) (hd : ¬ IsQuotationMark d)
    (hback : edited back = c :: ys) :
    ∃ back', back = .kept c :: back' ∧ edited back' = ys := by
  cases back with
  | nil => cases hback
  | cons edit back =>
    cases edit with
    | kept e =>
      obtain ⟨rfl, hys⟩ := List.cons.inj hback
      exact ⟨back, rfl, hys⟩
    | swapped old new =>
      have hsplit : edits = (front ++ [.kept d]) ++ .swapped old new :: back := by simpa using h
      obtain ⟨front', inner, mark, _, _, hfront, -, hmark, -⟩ := exists_kept_around hfit hsplit
      have hends : front ++ [.kept d] = (front' ++ keep ('<' :: 'i' :: inner)) ++ [.kept mark] := by
        simpa using hfront
      cases (List.append_inj' hends rfl).2
      exact absurd hmark hd

/-- Before a kept character that is no quotation mark, a character is kept. -/
theorem exists_kept_before (hfit : AllFit hosted FoundSource edits)
    (h : edits = front ++ .kept d :: back) (hd : ¬ IsQuotationMark d)
    (hfront : edited front = xs ++ [c]) :
    ∃ front', front = front' ++ [.kept c] ∧ edited front' = xs := by
  rcases List.eq_nil_or_concat front with rfl | ⟨front, edit, rfl⟩
  · simp at hfront
  · rw [List.concat_eq_append] at h hfront ⊢
    cases edit with
    | kept e =>
      obtain ⟨hxs, rfl⟩ : edited front = xs ∧ e = c := by simpa using hfront
      exact ⟨front, rfl, hxs⟩
    | swapped old new =>
      have hsplit : edits = front ++ .swapped old new :: .kept d :: back := by simpa using h
      obtain ⟨_, _, _, mark, back', -, hback, -, hmark, -⟩ := exists_kept_around hfit hsplit
      cases (List.cons.inj hback).1
      exact absurd hmark hd

end Around

/-! ### Destinations and tags -/

/-- A tag that is open behind a text goes on behind it, but for its first two characters. -/
theorem Outside.exists_append {left cs xs inner : List Char} (houtside : Outside left)
    (h : left ++ cs = xs ++ '<' :: 'i' :: inner) (hinner : '>' ∉ inner) :
    ∃ ys, cs = ys ++ inner := by
  rcases List.append_eq_append_iff.1 h with ⟨ys, rfl, rfl⟩ | ⟨ys, rfl, hys⟩
  · exact ⟨ys ++ ['<', 'i'], by simp⟩
  · rcases ys with _ | ⟨c, _ | ⟨d, ys⟩⟩
    · exact ⟨['<', 'i'], hys.symm⟩
    · obtain ⟨-, hrest⟩ := List.cons.inj hys
      exact ⟨['i'], hrest.symm⟩
    · obtain ⟨rfl, hrest⟩ := List.cons.inj hys
      obtain ⟨rfl, rfl⟩ := List.cons.inj hrest
      exact absurd (List.mem_append_left cs (houtside xs 'i' ys rfl rfl)) hinner

/-- What stands before the value of `src` without blanks lies behind the name of the tag. -/
theorem IsSource.notMem {left cs value right : List Char} (h : IsSource (left ++ cs) value right)
    (hcs : ∀ c ∈ cs, Text.isBlank c = false) : 'g' ∉ cs := by
  obtain ⟨xs, c, ys, hleft, hblank, hys⟩ := h.exists_blank
  have hc : c ∉ cs := fun hmem => by
    have hblank' := isBlank_of_isTagBlank hblank
    rw [hcs c hmem] at hblank'
    cases hblank'
  rcases List.append_eq_append_iff.1 hleft with ⟨zs, -, rfl⟩ | ⟨zs, -, hzs⟩
  · exact absurd (by simp) hc
  · cases zs with
    | nil => exact absurd (by rw [← List.nil_append cs, ← hzs]; simp) hc
    | cons d zs =>
      have hsign := (List.cons.inj hzs).2
      exact fun hmem => hys (hsign ▸ List.mem_append_right zs hmem)

section Destinations

variable {before alt gap opening address left right cs rest : List Char}

theorem AllFit.find? {Found : List Char → List Char → List Char → List Char → Prop}
    (h : AllFit hosted Found edits) (hmem : .swapped old new ∈ edits) :
    hosted.find? (String.ofList old) = some (String.ofList new) := by
  obtain ⟨front, back, hsplit⟩ := List.append_of_mem hmem
  exact (h front old new back hsplit).1

/-- The characters of a destination are not blank. -/
theorem isBlank_eq_false_of_goesOn {c : Char} (h : goesOn c = true) : Text.isBlank c = false := by
  simp [goesOn] at h
  exact h.2

/-- Before an address that is put in behind a bracket, a mark is kept within a tag. -/
theorem exists_mark (hfit : AllFit hosted FoundSource edits)
    (h : edits = front ++ .kept '(' :: (keep cs ++ .swapped old new :: back)) :
    ∃ xs inner mark, original front ++ '(' :: cs = xs ++ '<' :: 'i' :: (inner ++ [mark]) ∧
      mark ∈ cs ∧ IsQuotationMark mark ∧ 'g' ∈ inner ∧ '>' ∉ inner ∧
      LooksLikeSource (original front ++ '(' :: cs) old (original back) := by
  have hsplit : edits = (front ++ .kept '(' :: keep cs) ++ .swapped old new :: back := by
    simpa using h
  obtain ⟨front', inner, mark, _, _, hlead, -, hmark, -, hg, hgt, hlooks⟩ :=
    exists_kept_around hfit hsplit
  have htext : original front ++ '(' :: cs =
      original front' ++ '<' :: 'i' :: (inner ++ [mark]) := by
    simpa using congrArg original hlead
  refine ⟨original front', inner, mark, htext, ?_, hmark, hg, hgt, by simpa using hlooks⟩
  have hlast : (original front ++ '(' :: cs).getLast? = some mark := by
    rw [htext, ← List.cons_append, ← List.cons_append, ← List.append_assoc, List.getLast?_concat]
  rcases List.eq_nil_or_concat cs with rfl | ⟨cs, c, rfl⟩
  · obtain rfl : '(' = mark := by simpa using hlast
    exact absurd hmark (by simp [IsQuotationMark])
  · rw [List.concat_eq_append, ← List.cons_append, ← List.append_assoc,
      List.getLast?_concat] at hlast
    obtain rfl : c = mark := Option.some.inj hlast
    simp

/-- A quotation mark in front of which a destination is opened stands in the destination. -/
theorem exists_part_of_mark {mark : Char} (hmark : IsQuotationMark mark) (hmem : mark ∈ cs)
    (hcs : cs ++ rest = gap ++ (opening ++ address)) (hgap : ∀ c ∈ gap, Text.isBlank c = true)
    (hopening : opening = ['<'] ∨ opening = []) :
    ∃ part, cs = (gap ++ opening) ++ part ∧ address = part ++ rest ∧ mark ∈ part := by
  have hnot : mark ∉ gap ++ opening := by
    have hgap' : mark ∉ gap := fun hmem => by
      have hblank := hgap mark hmem
      rcases hmark with rfl | rfl <;> cases hblank
    rcases hopening with rfl | rfl
    · rcases hmark with rfl | rfl <;> simpa using hgap'
    · simpa using hgap'
  rw [← List.append_assoc] at hcs
  rcases List.append_eq_append_iff.1 hcs with ⟨ys, hys, -⟩ | ⟨part, rfl, rfl⟩
  · exact absurd (hys ▸ List.mem_append_left ys hmem) hnot
  · exact ⟨part, rfl, rfl, (List.mem_append.1 hmem).resolve_left hnot⟩

/-- A part of a destination with a quotation mark in it looks like the beginning of a destination,
whatever follows it. -/
theorem looksLikeDestination_of_part {part text : List Char} {mark : Char} (before : List Char)
    (hmark : IsQuotationMark mark) (hmem : mark ∈ part) (halt : ']' ∉ alt)
    (hgap : ∀ c ∈ gap, Text.isBlank c = true)
    (hopening : opening = ['<'] ∨
      opening = [] ∧ ((part ++ rest).head? = some '<' → part ++ rest = ['<']))
    (hpart : ∀ c ∈ part, goesOn c = true) :
    LooksLikeDestination (before ++ ("![".toList ++ (alt ++ ("](".toList ++ (gap ++ opening)))))
      (part ++ text.takeWhile goesOn) (text.dropWhile goesOn) := by
  obtain ⟨c, part, rfl⟩ := List.exists_cons_of_ne_nil (List.ne_nil_of_mem hmem)
  refine ⟨before, alt, gap, opening, rfl, halt, hgap, hopening.imp_right ?_, by simp, ?_, ?_⟩
  · -- the destination is more than an angle bracket, since there is a mark in it
    refine fun hempty => ⟨hempty.1, fun hhead => ?_⟩
    obtain ⟨rfl, hnil⟩ := List.cons.inj (hempty.2 (by simpa using hhead))
    rw [(List.append_eq_nil_iff.1 hnil).1] at hmem
    obtain rfl := List.mem_singleton.1 hmem
    exact absurd hmark (by simp [IsQuotationMark])
  · exact fun d hd =>
      (List.mem_append.1 hd).elim (hpart d) (List.all_eq_true.1 List.all_takeWhile d)
  · intro d hd
    have hdrop := List.head?_dropWhile_not goesOn text
    rw [hd] at hdrop
    simpa using hdrop

/-- **No address is put in within a destination**: the mark before it would belong to a destination
in the original text as well, one that begins in a tag. -/
theorem swap_notMem_destination (hclear : Clear hosted (original edits))
    (hfit : AllFit hosted FoundSource edits)
    (h : edits = front ++ .kept '(' :: (keep cs ++ .swapped old new :: back))
    (hfront : original front = before ++ ("![".toList ++ (alt ++ [']']))) (halt : ']' ∉ alt)
    (hcs : cs ++ rest = gap ++ (opening ++ address)) (hgap : ∀ c ∈ gap, Text.isBlank c = true)
    (hopening : opening = ['<'] ∨ opening = [] ∧ (address.head? = some '<' → address = ['<']))
    (haddress : ∀ c ∈ address, goesOn c = true) : False := by
  obtain ⟨xs, inner, mark, htext, hmem, hmark, hg, hgt, hlooks⟩ := exists_mark hfit h
  obtain ⟨part, rfl, rfl, hpart⟩ :=
    exists_part_of_mark hmark hmem hcs hgap (hopening.imp_right And.left)
  have hall : ∀ c ∈ part, goesOn c = true := fun c hc => haddress c (List.mem_append_left rest hc)
  have hleft : original front ++ '(' :: ((gap ++ opening) ++ part) =
      (before ++ ("![".toList ++ (alt ++ ("](".toList ++ (gap ++ opening))))) ++ part := by
    rw [hfront]
    simp
  rw [hleft] at htext hlooks
  have hsplit := List.takeWhile_append_dropWhile (p := goesOn) (l := old ++ original back)
  have hdestination := hclear.destinations _ (part ++ (old ++ original back).takeWhile goesOn) _
    (by rw [h, List.append_assoc part, hsplit]; simp [hfront])
    (looksLikeDestination_of_part before hmark hpart halt hgap hopening hall)
  have hswapped : Edit.swapped old new ∈ edits := by
    rw [h]
    simp
  have hsource := hclear.sources _ _ _ (by rw [h]; simp [hfront]) hlooks
    (by rw [hfit.find? hswapped]; exact Option.some_ne_none _)
  obtain ⟨ys, rfl⟩ := hdestination.outside.exists_append htext (by
    rcases hmark with rfl | rfl <;> simpa using hgt)
  exact hsource.notMem (fun c hc => isBlank_eq_false_of_goesOn (hall c hc)) (by simp [hg])

/-- The characters of what opens an image in Markdown are kept. -/
theorem exists_kept_image (hclear : Clear hosted (original edits))
    (hfit : AllFit hosted FoundSource edits)
    (h : edited edits = before ++ ("![".toList ++ (alt ++ ("](".toList ++ rest))))
    (halt : ']' ∉ alt) :
    ∃ front back before' alt', edits = front ++ .kept '(' :: back ∧
      edited front = before ++ ("![".toList ++ (alt ++ [']'])) ∧ edited back = rest ∧
      original front = before' ++ ("![".toList ++ (alt' ++ [']'])) ∧ ']' ∉ alt' := by
  have hnot : ∀ old new, Edit.swapped old new ∈ edits → ']' ∉ old ∧ '[' ∉ new ∧ ']' ∉ new :=
    fun old new hmem => by simpa using hclear.addresses _ _ (hfit.find? hmem)
  have hbracket : ∀ c, c = '!' ∨ c = '[' ∨ c = ']' ∨ c = '(' → ¬ IsQuotationMark c := by
    rintro c (rfl | rfl | rfl | rfl) <;> simp [IsQuotationMark]
  -- the brackets are not put in, and the characters beside them are kept with them
  have htext : edited edits = (before ++ ['!']) ++ '[' :: (alt ++ ']' :: '(' :: rest) := by
    simpa using h
  obtain ⟨front, back, rfl, hfront, hback⟩ := exists_kept_of_edited htext
    fun old new hmem => (hnot old new hmem).2.1
  obtain ⟨front, rfl, rfl⟩ := exists_kept_before hfit rfl (hbracket _ (by simp)) hfront
  obtain ⟨middle, back, rfl, hmiddle, hback⟩ := exists_kept_of_edited hback
    fun old new hmem => (hnot old new (by simp [hmem])).2.2
  obtain ⟨back, rfl, hrest⟩ := exists_kept_after hfit
    (by simp : _ = (front ++ .kept '!' :: .kept '[' :: middle) ++ .kept ']' :: back)
    (hbracket ']' (by simp)) hback
  refine ⟨front ++ .kept '!' :: .kept '[' :: (middle ++ [.kept ']']), back, original front,
    original middle, by simp, by simp [hmiddle], hrest, by simp, ?_⟩
  exact notMem_original (hmiddle ▸ halt) fun old new hmem => (hnot old new (by simp [hmem])).1

/-- **What is found in Markdown was kept**, and was the destination of an image before. -/
theorem exists_keep_of_looksLikeDestination (hclear : Clear hosted (original edits))
    (hfit : AllFit hosted FoundSource edits) (h : edited edits = left ++ (address ++ right))
    (hlooks : LooksLikeDestination left address right) :
    ∃ front back, edits = front ++ (keep address ++ back) ∧ edited front = left ∧
      IsDestination (original front) address (original back) := by
  obtain ⟨before, alt, gap, opening, rfl, halt, hgap, hopening, hne, haddress, hright⟩ := hlooks
  have htext : edited edits = before ++ ("![".toList ++ (alt ++ ("](".toList ++
      (gap ++ (opening ++ (address ++ right)))))) := by
    simpa using h
  obtain ⟨front, back, before', alt', hedits, hfront, hback, horiginal, halt'⟩ :=
    exists_kept_image hclear hfit htext halt
  obtain ⟨cs, later, rfl, hlater⟩ := exists_keep back
  rw [edited_append, edited_keep] at hback
  -- what is kept reaches beyond the destination
  have hlong : ∃ more, cs = gap ++ (opening ++ (address ++ more)) ∧ right = more ++ edited later ∧
      (more = [] → later = []) := by
    have hsplit : cs ++ edited later = (gap ++ (opening ++ address)) ++ right := by
      simpa using hback
    rcases hlater with rfl | ⟨old, new, later, rfl⟩
    · exact ⟨right, by simpa using hsplit, by simp, fun _ => rfl⟩
    · rcases List.append_eq_append_iff.1 hsplit with ⟨rest, hcs, -⟩ | ⟨more, hcs, hmore⟩
      · exact (swap_notMem_destination hclear hfit hedits horiginal halt' hcs.symm hgap hopening
          haddress).elim
      · refine ⟨more, by simpa using hcs, hmore, fun hnil => ?_⟩
        have hcs' : cs ++ [] = gap ++ (opening ++ address) := by
          simpa [hnil] using hcs
        exact (swap_notMem_destination hclear hfit hedits horiginal halt' hcs' hgap hopening
          haddress).elim
  obtain ⟨more, rfl, rfl, hmore⟩ := hlong
  refine ⟨front ++ .kept '(' :: keep (gap ++ opening), keep more ++ later, by simp [hedits],
    by simp [hfront], ?_⟩
  have hleft : original (front ++ .kept '(' :: keep (gap ++ opening)) =
      before' ++ ("![".toList ++ (alt' ++ ("](".toList ++ (gap ++ opening)))) := by
    simp [horiginal]
  refine hclear.destinations _ _ _ (by simp [hedits]) ?_
  refine ⟨before', alt', gap, opening, hleft, halt', hgap, hopening, hne, haddress, ?_⟩
  rw [original_append, original_keep]
  cases more with
  | nil => simp [hmore rfl]
  | cons c more => simpa using hright

end Destinations

/-! ### A content of several kinds -/

/-- What stands behind `<img` in a content with an image in a tag, which has another attribute after
its source, with a link and with an image in Markdown. -/
def behindName : List Char :=
  " src=\"a\" data-src=\"a\"> [a](a) ![a](a)".toList

/-- The content. -/
def illustrated : List Char :=
  "<img".toList ++ behindName

/-- What stands behind a part of a text begins where the part ends. -/
theorem drop_of_append {text xs ys : List Char} (h : text = xs ++ ys) :
    xs.length ≤ text.length ∧ text.drop xs.length = ys := by
  subst h
  simp

/-- No tag is open when each angle bracket has another one behind it. -/
theorem outside_of_forall {left : List Char}
    (h : ∀ n ≤ left.length, (left.drop n).head? = some '<' → '>' ∈ left.drop (n + 2)) :
    Outside left := by
  intro before c after hsplit _
  obtain ⟨hlength, hdrop⟩ := drop_of_append hsplit
  have hmem := h before.length hlength (by rw [hdrop]; rfl)
  rwa [← List.drop_drop, hdrop] at hmem

theorem isSource_illustrated :
    IsSource "<img src=\"".toList ['a'] "\" data-src=\"a\"> [a](a) ![a](a)".toList := by
  have hquoted : Attribute ("data-src".toList ++ ([] ++ '=' :: ([] ++ '"' :: (['a'] ++ ['"'])))) :=
    .quoted (by decide) (List.all_eq_true.1 (by decide)) (by simp) (by simp) (.inl rfl) (by decide)
  have hlater : Attributes ([' '] ++ ("data-src=\"a\"".toList ++ [])) :=
    .cons (by simp) (List.all_eq_true.1 (by decide)) hquoted .nil
  have hsource : IsSource ([] ++ ("<img".toList ++ ([] ++ ([' '] ++ ("src".toList ++
      ([] ++ '=' :: ([] ++ ['"']))))))) ['a']
      ('"' :: (" data-src=\"a\"".toList ++ ([] ++ ([] ++ '>' :: " [a](a) ![a](a)".toList)))) :=
    .intro (by simp [Outside]) .nil (by simp) (List.all_eq_true.1 (by decide)) (by simp) (by simp)
      (.inl rfl) (by decide) hlater (by simp) (.inl rfl)
  exact hsource

theorem isDestination_illustrated :
    IsDestination "<img src=\"a\" data-src=\"a\"> [a](a) ![a](".toList ['a'] [')'] := by
  have hleft : "<img src=\"a\" data-src=\"a\"> [a](a) ![a](".toList =
      "<img src=\"a\" data-src=\"a\"> [a](a) ".toList ++
        ("![".toList ++ (['a'] ++ ("](".toList ++ ([] ++ [])))) := rfl
  have hdestination : IsDestination "<img src=\"a\" data-src=\"a\"> [a](a) ![a](".toList ['a']
      ([] ++ ([] ++ ([] ++ ')' :: []))) :=
    .intro hleft (by decide) (outside_of_forall (by decide)) (by decide) (by decide) (by simp) .none
      (by simp) (List.all_eq_true.1 (by decide)) .none (by simp)
  exact hdestination

/-- Two quoted values that begin at one place end at one place. -/
theorem value_eq_of_append {value value' right right' : List Char} {mark mark' : Char}
    (h : value ++ mark :: right = value' ++ mark' :: right')
    (hvalue : ∀ c ∈ value, ¬ IsQuotationMark c) (hmark : IsQuotationMark mark)
    (hvalue' : ∀ c ∈ value', ¬ IsQuotationMark c) (hmark' : IsQuotationMark mark') :
    value = value' := by
  rcases List.append_eq_append_iff.1 h with ⟨rest, rfl, hrest⟩ | ⟨rest, rfl, hrest⟩
  · cases rest with
    | nil => simp
    | cons c rest =>
      obtain ⟨rfl, -⟩ := List.cons.inj hrest
      exact absurd hmark (hvalue' _ (by simp))
  · cases rest with
    | nil => simp
    | cons c rest =>
      obtain ⟨rfl, -⟩ := List.cons.inj hrest
      exact absurd hmark' (hvalue _ (by simp))

/-- A value that is assigned without blanks is the one behind the equals sign. -/
theorem Assigns.eq_of_append {sign value right value' right' : List Char} {mark mark' : Char}
    (h : Assigns sign value right)
    (htext : sign ++ (value ++ right) = "src".toList ++ '=' :: mark :: (value' ++ mark' :: right'))
    (hmark : IsQuotationMark mark) (hvalue' : ∀ c ∈ value', ¬ IsQuotationMark c)
    (hmark' : IsQuotationMark mark') :
    sign = "src".toList ++ ['=', mark] ∧ value = value' := by
  obtain ⟨hgap, hgap', hmark₁, -, hvalue, hmark₂⟩ := h
  rename_i gap gap' right mark₁ mark₂
  have htail : gap ++ '=' :: (gap' ++ mark₁ :: (value ++ mark₂ :: right)) =
      '=' :: mark :: (value' ++ mark' :: right') := by
    simpa using htext
  rcases gap with _ | ⟨c, gap⟩
  · obtain ⟨-, htail⟩ := List.cons.inj htail
    rcases gap' with _ | ⟨c, gap'⟩
    · obtain ⟨rfl, hvalues⟩ := List.cons.inj htail
      exact ⟨rfl, value_eq_of_append hvalues hvalue hmark₂ hvalue' hmark'⟩
    · obtain ⟨rfl, -⟩ := List.cons.inj htail
      have hblank := hgap' _ List.mem_cons_self
      rcases hmark with rfl | rfl <;> cases hblank
  · obtain ⟨rfl, -⟩ := List.cons.inj htail
    cases hgap _ List.mem_cons_self

/-- The source of the content is the first value in its tag. -/
theorem isSource_of_looksLikeSource {left value right : List Char}
    (h : illustrated = left ++ (value ++ right)) (hlooks : LooksLikeSource left value right) :
    IsSource left value right := by
  obtain ⟨before, front, sign, rfl, hfirst⟩ := hlooks
  -- the only tag of the content
  obtain rfl : before = [] := by
    have hcontent : illustrated = before ++ ("<img".toList ++
        (front ++ (sign ++ (value ++ right)))) := by
      simpa using h
    obtain ⟨hlength, hdrop⟩ := drop_of_append hcontent
    have hall : ∀ n ≤ illustrated.length, "<img".toList <+: illustrated.drop n → n = 0 := by
      decide +kernel
    exact List.length_eq_zero_iff.1 (hall _ hlength ⟨_, hdrop.symm⟩)
  have htext : behindName = front ++ (sign ++ (value ++ right)) := by
    have hcontent : "<img".toList ++ behindName =
        "<img".toList ++ (front ++ (sign ++ (value ++ right))) := by
      rw [← illustrated, h]
      simp
    exact List.append_cancel_left hcontent
  obtain ⟨hlength, hdrop⟩ := drop_of_append htext
  obtain ⟨cs, hcs⟩ : ∃ cs, sign ++ (value ++ right) = "src".toList ++ cs := by
    have hassigns := hfirst.assigns
    cases hassigns
    exact ⟨_, List.append_assoc _ _ _⟩
  have hall : ∀ n ≤ behindName.length, "src".toList <+: behindName.drop n → n = 1 ∨ n = 14 := by
    decide +kernel
  have hfront : behindName.take front.length = front := by
    rw [htext, List.take_left]
  obtain hone | hlater := hall _ hlength (by rw [hdrop, hcs]; exact List.prefix_append _ _)
  · rw [hone] at hdrop hfront
    have hbegins : sign ++ (value ++ right) =
        "src".toList ++ '=' :: '"' :: (['a'] ++ '"' :: behindName.drop 8) := hdrop.symm.trans rfl
    obtain ⟨rfl, rfl⟩ := hfirst.assigns.eq_of_append hbegins (.inl rfl) (by simp [IsQuotationMark])
      (.inl rfl)
    have hright : right = behindName.drop 7 := by
      have hsplit : "src=\"a".toList ++ right = "src=\"a".toList ++ behindName.drop 7 :=
        hdrop.symm.trans rfl
      exact List.append_cancel_left hsplit
    subst hright
    rw [← hfront]
    exact isSource_illustrated
  · rw [hlater] at hdrop hfront
    rw [← hfront] at hfirst
    have hassigns : Assigns ("src".toList ++ ([] ++ '=' :: ([] ++ ['"']))) ['a']
        ('"' :: behindName.drop 8) :=
      .intro (by simp) (by simp) (.inl rfl) (by simp) (by simp [IsQuotationMark]) (.inl rfl)
    refine absurd ?_ (hfirst.first [' '] ("src=\"a\" data-".toList) _ _ _ rfl (by decide)
      ⟨⟨' ', rfl, rfl⟩, ' ', rfl, rfl⟩ hassigns)
    rw [← hdrop]
    rfl

/-- The destination of the content is what stands in the brackets of its image. -/
theorem isDestination_of_looksLikeDestination {left address right : List Char}
    (h : illustrated = left ++ (address ++ right))
    (hlooks : LooksLikeDestination left address right) : IsDestination left address right := by
  obtain ⟨before, alt, gap, opening, rfl, halt, hgap, hopening, hne, haddress, hright⟩ := hlooks
  have hcontent : illustrated = before ++ ("![".toList ++
      (alt ++ ("](".toList ++ (gap ++ (opening ++ (address ++ right)))))) := by
    simpa using h
  obtain ⟨hlength, hdrop⟩ := drop_of_append hcontent
  have hall : ∀ n ≤ illustrated.length, "![".toList <+: illustrated.drop n → n = 34 := by
    decide +kernel
  have hbefore : illustrated.take before.length = before := by
    rw [h, List.append_assoc, List.take_left]
  have hplace := hall _ hlength ⟨_, hdrop.symm⟩
  rw [hplace] at hdrop hbefore
  have htext : ['a'] ++ ']' :: ['(', 'a', ')'] =
      alt ++ ']' :: '(' :: (gap ++ (opening ++ (address ++ right))) := by
    have hcontent : "![".toList ++ (['a'] ++ ']' :: ['(', 'a', ')']) = "![".toList ++
        (alt ++ ("](".toList ++ (gap ++ (opening ++ (address ++ right))))) :=
      (Eq.symm rfl).trans hdrop
    exact List.append_cancel_left hcontent
  obtain ⟨rfl, hrest⟩ := append_cons_inj (by decide) halt htext
  have hgap : gap = [] := by
    rcases gap with _ | ⟨c, gap⟩
    · rfl
    · cases (List.cons.inj (List.cons.inj hrest).2).1
      cases hgap 'a' List.mem_cons_self
  subst hgap
  obtain rfl : opening = [] := by
    rcases hopening with rfl | ⟨rfl, -⟩
    · cases (List.cons.inj (List.cons.inj hrest).2).1
    · rfl
  obtain ⟨c, address, rfl⟩ := List.exists_cons_of_ne_nil hne
  obtain ⟨rfl, htail⟩ := List.cons.inj (List.cons.inj hrest).2
  obtain rfl : address = [] := by
    rcases address with _ | ⟨d, address⟩
    · rfl
    · obtain ⟨rfl, -⟩ := List.cons.inj htail
      cases haddress ')' (by simp)
  obtain rfl : [')'] = right := htail
  rw [← hbefore]
  exact isDestination_illustrated

theorem clear_illustrated : Clear [("a", "b")] illustrated where
  sources := fun _ _ _ h hlooks _ => isSource_of_looksLikeSource h hlooks
  destinations := fun _ _ _ => isDestination_of_looksLikeDestination
  addresses := fun source address h => by
    obtain ⟨rfl, rfl⟩ := Prod.mk.inj (List.mem_singleton.1 (KeyMap.mem_of_find? h))
    decide

/-! ### Both replacements -/

/-- **What the replacement of the addresses changes.** Where nothing else looks like the address of
an image, the content is changed in the addresses of its images only. -/
theorem rewrites_withHostedImages {hosted : KeyMap String} {content : String}
    (hclear : Clear hosted content.toList) :
    Rewrites hosted content.toList (withHostedImages hosted content).toList := by
  unfold withHostedImages
  split
  · refine ⟨keep content.toList, original_keep, edited_keep, ?_⟩
    rintro left old new right ⟨front, back, hsplit, -, -⟩
    have hmem : Edit.swapped old new ∈ keep content.toList := by rw [hsplit]; simp
    simp [keep] at hmem
  · obtain ⟨first, hcontent, hfirst, hfit⟩ :=
      exists_edits locates_htmlImage hosted content.toList
    obtain ⟨second, hsecond, hresult, hfit'⟩ := exists_edits locates_markdownImage hosted
      (htmlImage.replace (swapSource hosted) content.toList)
    rw [String.toList_ofList, ← hresult]
    rw [← hcontent] at hclear ⊢
    refine exists_merged ?_ (hfirst.trans hsecond.symm) ?_
    · rintro _ old new _ ⟨front, back, hsplit, rfl, rfl⟩
      have hfind := (hfit front old new back hsplit).1
      obtain ⟨_, _, _, _, _, -, -, -, -, -, -, hlooks⟩ := exists_kept_around hfit hsplit
      exact ⟨hfind, .inl (hclear.sources _ old _ (by simp [hsplit]) hlooks (by simp [hfind]))⟩
    · rintro _ old new _ ⟨front, back, hsplit, rfl, rfl⟩
      obtain ⟨hfind, before, lead, tail, after, rfl, rfl, hfound⟩ :=
        hfit' front old new back hsplit
      have hlooks : LooksLikeDestination (original (before ++ keep lead)) old
          (original (keep tail ++ after)) := by
        simpa using hfound (original before)
      obtain ⟨front', back', hkept, hedited, his⟩ := exists_keep_of_looksLikeDestination hclear
        hfit (by rw [hfirst, ← hsecond, hsplit]; simp) hlooks
      obtain ⟨_, _, _, _, -, -, -, -, hne, -⟩ := hlooks
      exact ⟨hne, front', back', hkept, hedited, hfind, .inr his⟩

/-- In this content the source of the image and the destination are changed, and neither the other
attribute nor the link. -/
theorem rewrites_illustrated : Rewrites [("a", "b")] illustrated
    "<img src=\"b\" data-src=\"a\"> [a](a) ![a](b)".toList := by
  have hclear : Clear [("a", "b")] (String.ofList illustrated).toList := by
    rw [String.toList_ofList]
    exact clear_illustrated
  have h := rewrites_withHostedImages hclear
  have hresult : withHostedImages [("a", "b")] (String.ofList illustrated) =
      "<img src=\"b\" data-src=\"a\"> [a](a) ![a](b)" := by
    decide +kernel
  rwa [String.toList_ofList, hresult] at h

/-- **A content in which something else is changed**: an attribute whose name ends in `src`. -/
theorem not_rewrites_lazyImage : ¬ Rewrites [("a", "b")] "<img data-src=\"a\">".toList
    (withHostedImages [("a", "b")] "<img data-src=\"a\">").toList := by
  have hresult : withHostedImages [("a", "b")] "<img data-src=\"a\">" = "<img data-src=\"b\">" := by
    decide +kernel
  rw [hresult]
  rintro ⟨edits, horiginal, hedited, hswaps⟩
  obtain ⟨cs, back, rfl, rfl | ⟨old, new, back, rfl⟩⟩ := exists_keep edits
  · have hsame : "<img data-src=\"a\">".toList = "<img data-src=\"b\">".toList := by
      rw [← horiginal, ← hedited]
      simp
    revert hsame
    decide
  · have hcontent : "<img data-src=\"a\">".toList = cs ++ (old ++ original back) := by
      rw [← horiginal]
      simp
    obtain ⟨-, hsource | hdestination⟩ :=
      hswaps cs old new (original back) ⟨_, back, rfl, by simp, rfl⟩
    · -- before `src` stands a hyphen
      obtain ⟨xs, c, ys, hleft, hc, -⟩ := hsource.exists_blank
      have hplace : "<img data-src=\"a\">".toList =
          xs ++ c :: ("src".toList ++ (ys ++ (old ++ original back))) := by
        rw [hcontent, hleft]
        simp
      obtain ⟨hlength, hdrop⟩ := drop_of_append hplace
      have hall : ∀ n ≤ "<img data-src=\"a\">".toList.length,
          "src".toList <+: ("<img data-src=\"a\">".toList.drop n).tail →
          ("<img data-src=\"a\">".toList.drop n).head? = some '-' := by
        decide +kernel
      have hhead := hall xs.length hlength (by rw [hdrop]; exact List.prefix_append _ _)
      rw [hdrop] at hhead
      cases hhead
      cases hc
    · -- there is no exclamation mark
      obtain ⟨xs, ys, hleft⟩ := hdestination.exists_mark
      have hmem : '!' ∈ "<img data-src=\"a\">".toList := by
        rw [hcontent, hleft]
        simp
      revert hmem
      decide

end Syndication.Images
