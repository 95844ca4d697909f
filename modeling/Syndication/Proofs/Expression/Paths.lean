import Mathlib.Data.List.Basic
import Mathlib.Tactic.SplitIfs
import Syndication.Expression.Spelling

/-!
# Which texts are paths

A path is read by putting dots in the place of opening brackets, leaving closing brackets out, and
cutting at the dots. What is cut into segments is therefore written as a path is, except that
closing brackets may be missing and may stand where they close nothing (`exists_goesOn`). Where the
brackets are well placed, and only there, a text that is read as a path is written as one.

Main statements:

* `parseChars_of_filter`, `exists_spelling_of_parseChars`: what is read as a path.
* `parse_writes`: which texts are written as paths are, and what becomes of the others.
* `misplaced_bracket_accepted`: texts with a bracket that fits nothing are read as paths.
-/

namespace Syndication.FieldPath

variable {c : Char} {cs piece : List Char} {rest : List (List Char)}

/-! ### Cutting into segments -/

/-- The pieces of a written path, its mark left out: what should be its segments. -/
def cut (cs : List Char) : List (List Char) :=
  Chars.splitOn '.' (dotted cs)

/-- The signs that stand between segments or behind them. -/
def isJoint (c : Char) : Bool :=
  c == '.' || c == '[' || c == ']'

theorem cut_closing (cs : List Char) : cut (']' :: cs) = cut cs := rfl

theorem cut_of_joint (h : c = '.' ∨ c = '[') (cs : List Char) : cut (c :: cs) = [] :: cut cs := by
  rcases h with rfl | rfl <;> rfl

theorem cut_append (h : c = '.' ∨ c = '[') (before after : List Char) :
    cut (before ++ c :: after) = cut before ++ cut after := by
  have hdotted : dotted (before ++ c :: after) = dotted before ++ '.' :: dotted after := by
    rcases h with rfl | rfl <;> simp [dotted]
  rw [cut, hdotted]
  exact Chars.splitWhere_append rfl _ _

theorem cut_append_closing (before after : List Char) :
    cut (before ++ ']' :: after) = cut (before ++ after) := by
  simp [cut, dotted]

theorem exists_cons_cut (cs : List Char) : ∃ piece rest, cut cs = piece :: rest :=
  List.exists_cons_of_ne_nil (Chars.splitWhere_ne_nil _ _)

theorem cut_cons (h : isJoint c = false) (hcut : cut cs = piece :: rest) :
    cut (c :: cs) = (c :: piece) :: rest := by
  simp only [isJoint, Bool.or_eq_false_iff, beq_eq_false_iff_ne] at h
  obtain ⟨⟨hdot, hopening⟩, hclosing⟩ := h
  have hdotted : dotted (c :: cs) = c :: dotted cs := by simp [dotted, hopening, hclosing]
  have hsplit : Chars.splitWhere (· == '.') (dotted cs) = piece :: rest := hcut
  rw [cut, hdotted, Chars.splitOn, Chars.splitWhere, if_neg (by simpa using hdot), hsplit]

theorem isJoint_eq_false_of_isSegmentChar (h : isSegmentChar c = true) : isJoint c = false := by
  rw [← Bool.not_eq_true, isJoint, Bool.or_eq_true, Bool.or_eq_true, beq_iff_eq, beq_iff_eq,
    beq_iff_eq]
  rintro ((rfl | rfl) | rfl) <;> exact absurd h (by decide)

theorem cut_segment (s : Segment) : cut s.chars = [s.chars] := by
  have hchars := List.all_eq_true.1 (Bool.and_eq_true_iff.1 s.isSegment).2
  generalize s.chars = cs at hchars
  induction cs with
  | nil => rfl
  | cons c cs ih =>
    obtain ⟨hc, hcs⟩ := List.forall_mem_cons.1 hchars
    exact cut_cons (isJoint_eq_false_of_isSegmentChar hc) (ih hcs)

theorem cut_append_later (cs : List Char) (later : List Joined) :
    cut (cs ++ later.flatMap Joined.chars) = cut cs ++ later.map (·.segment.chars) := by
  induction later generalizing cs with
  | nil => simp
  | cons j later ih =>
    have hsegment : cut (j.segment.chars ++ later.flatMap Joined.chars) =
        (j :: later).map (·.segment.chars) := by
      rw [ih, cut_segment]
      rfl
    rw [List.flatMap_cons]
    cases j with
    | dotted s =>
      rw [Joined.chars, List.cons_append, cut_append (.inl rfl)]
      exact congrArg (cut cs ++ ·) hsegment
    | bracketed s =>
      rw [Joined.chars, List.cons_append, cut_append (.inr rfl), List.append_assoc,
        List.singleton_append, cut_append_closing]
      exact congrArg (cut cs ++ ·) hsegment

theorem cut_body (s : Spelling) :
    cut s.body = (s.first :: s.later.map Joined.segment).map (·.chars) := by
  rw [Spelling.body, cut_append_later, cut_segment, List.map_cons, List.map_map]
  rfl

/-- Closing brackets make no difference. -/
theorem cut_filter (cs : List Char) : cut (cs.filter (· ≠ ']')) = cut cs := by
  have hdotted : dotted (cs.filter (· ≠ ']')) = dotted cs := by
    induction cs with
    | nil => rfl
    | cons c cs ih =>
      by_cases h : c = ']'
      · subst h
        simpa [dotted] using ih
      · simpa [dotted, h] using ih
  rw [cut, hdotted, cut]

/-! ### Brackets -/

/-- Whether the brackets from some place on fit: each that is opened is closed before the next
bracket or dot, none is closed that is not open, and behind a closing one there is nothing, a dot
or an opening one. The flag says whether a bracket is open at the place. -/
def bracketsFit : Bool → List Char → Bool
  | isOpen, [] => !isOpen
  | false, c :: cs => if c = '[' then bracketsFit true cs else c != ']' && bracketsFit false cs
  | true, c :: cs =>
    if c = ']' then cs.head?.all (fun d => d == '.' || d == '[') && bracketsFit false cs
    else !isJoint c && bracketsFit true cs

theorem bracketsFit_opening (o : Opening) (body : List Char) :
    bracketsFit false (o.chars ++ body) = bracketsFit false body := by
  cases o <;> rfl

theorem bracketsFit_append_of_segment (s : Segment) (isOpen : Bool) (rest : List Char) :
    bracketsFit isOpen (s.chars ++ rest) = bracketsFit isOpen rest := by
  have hchars := List.all_eq_true.1 (Bool.and_eq_true_iff.1 s.isSegment).2
  generalize s.chars = cs at hchars
  induction cs with
  | nil => rfl
  | cons c cs ih =>
    obtain ⟨hc, hcs⟩ := List.forall_mem_cons.1 hchars
    have hjoint := isJoint_eq_false_of_isSegmentChar hc
    obtain ⟨⟨hdot, hopening⟩, hclosing⟩ : (c ≠ '.' ∧ c ≠ '[') ∧ c ≠ ']' := by
      simpa [isJoint] using hjoint
    cases isOpen <;> simp [bracketsFit, hopening, hclosing, hjoint, ih hcs]

theorem bracketsFit_later (later : List Joined) :
    bracketsFit false (later.flatMap Joined.chars) = true := by
  induction later with
  | nil => rfl
  | cons j later ih =>
    have hnext : ((later.flatMap Joined.chars).head?.all fun d => d == '.' || d == '[') = true := by
      cases later with
      | nil => rfl
      | cons j later => cases j <;> rfl
    rw [List.flatMap_cons]
    cases j with
    | dotted s =>
      rw [Joined.chars, List.cons_append]
      exact (bracketsFit_append_of_segment s false _).trans ih
    | bracketed s =>
      rw [Joined.chars, List.cons_append, List.append_assoc]
      refine (bracketsFit_append_of_segment s true _).trans ?_
      rw [List.singleton_append, bracketsFit, if_pos rfl, hnext, ih]
      rfl

/-- **How a text goes on**: with what is left of a segment and then further segments. Closing
brackets apart, that is how it is written; where the brackets fit, it is written exactly so, with
one more closing bracket when one is open. -/
structure GoesOn (cs piece : List Char) (later : List Joined) : Prop where
  filter : cs.filter (· ≠ ']') = (piece ++ later.flatMap Joined.chars).filter (· ≠ ']')
  outside : bracketsFit false cs = true → cs = piece ++ later.flatMap Joined.chars
  inside : bracketsFit true cs = true → cs = piece ++ ']' :: later.flatMap Joined.chars

namespace GoesOn

variable {later : List Joined}

theorem plain (hc : isJoint c = false) (h : GoesOn cs piece later) :
    GoesOn (c :: cs) (c :: piece) later := by
  obtain ⟨⟨-, hopening⟩, hclosing⟩ : (c ≠ '.' ∧ c ≠ '[') ∧ c ≠ ']' := by simpa [isJoint] using hc
  refine ⟨?_, fun hfit => ?_, fun hfit => ?_⟩
  · simpa [hclosing] using h.filter
  · rw [bracketsFit, if_neg hopening, Bool.and_eq_true] at hfit
    exact congrArg (c :: ·) (h.outside hfit.2)
  · rw [bracketsFit, if_neg hclosing, Bool.and_eq_true] at hfit
    exact congrArg (c :: ·) (h.inside hfit.2)

theorem dotted {next : Segment} (h : GoesOn cs next.chars later) :
    GoesOn ('.' :: cs) [] (.dotted next :: later) := by
  refine ⟨?_, fun hfit => congrArg ('.' :: ·) (h.outside hfit), fun hfit => ?_⟩
  · simpa [Joined.chars] using h.filter
  · simp [bracketsFit, isJoint] at hfit

theorem bracketed {next : Segment} (h : GoesOn cs next.chars later) :
    GoesOn ('[' :: cs) [] (.bracketed next :: later) := by
  refine ⟨?_, fun hfit => ?_, fun hfit => ?_⟩
  · simpa [Joined.chars] using h.filter
  · rw [h.inside hfit]
    simp [Joined.chars]
  · simp [bracketsFit, isJoint] at hfit

theorem closing (hcut : cut cs = piece :: rest) (h : GoesOn cs piece later) :
    GoesOn (']' :: cs) piece later := by
  refine ⟨by simpa using h.filter, fun hfit => ?_, fun hfit => ?_⟩
  · simp [bracketsFit] at hfit
  · rw [bracketsFit, if_pos rfl, Bool.and_eq_true] at hfit
    obtain ⟨hhead, hfit⟩ := hfit
    -- where the bracket fits, the segment ends with it
    obtain rfl : piece = [] := by
      cases cs with
      | nil => exact (List.cons.inj hcut).1.symm
      | cons d cs =>
        rw [cut_of_joint (by simpa using hhead)] at hcut
        exact (List.cons.inj hcut).1.symm
    exact congrArg (']' :: ·) (h.outside hfit)

end GoesOn

/-- **What is cut into segments goes on with these segments.** -/
theorem exists_goesOn (hcut : cut cs = piece :: rest) (hrest : ∀ r ∈ rest, isSegment r = true) :
    ∃ later : List Joined, later.map (·.segment.chars) = rest ∧ GoesOn cs piece later := by
  induction cs generalizing piece rest with
  | nil =>
    cases hcut
    exact ⟨[], rfl, rfl, fun _ => rfl, nofun⟩
  | cons c cs ih =>
    obtain ⟨next, others, hnext⟩ := exists_cons_cut cs
    by_cases hclosing : c = ']'
    · subst hclosing
      rw [cut_closing] at hcut
      obtain ⟨later, hlater, hgoes⟩ := ih hcut hrest
      exact ⟨later, hlater, hgoes.closing hcut⟩
    · by_cases hjoint : c = '.' ∨ c = '['
      · rw [cut_of_joint hjoint, hnext] at hcut
        obtain ⟨rfl, rfl⟩ := List.cons.inj hcut
        obtain ⟨hsegment, hothers⟩ := List.forall_mem_cons.1 hrest
        obtain ⟨later, hlater, hgoes⟩ := ih hnext hothers
        rcases hjoint with rfl | rfl
        · exact ⟨.dotted ⟨next, hsegment⟩ :: later, congrArg (next :: ·) hlater, hgoes.dotted⟩
        · exact ⟨.bracketed ⟨next, hsegment⟩ :: later, congrArg (next :: ·) hlater, hgoes.bracketed⟩
      · have hplain : isJoint c = false := by
          simp only [not_or] at hjoint
          simp [isJoint, hclosing, hjoint]
        rw [cut_cons hplain hnext] at hcut
        obtain ⟨rfl, rfl⟩ := List.cons.inj hcut
        obtain ⟨later, hlater, hgoes⟩ := ih hnext hrest
        exact ⟨later, hlater, hgoes.plain hplain⟩

/-! ### Which texts are paths -/

variable {raw body : List Char} {path : FieldPath}

/-- Every text has a mark in front of what stands behind its mark. -/
theorem exists_opening (cs : List Char) : ∃ o : Opening, cs = o.chars ++ afterRoot cs := by
  unfold afterRoot
  split
  · exact ⟨.rootDot, rfl⟩
  · exact ⟨.root, rfl⟩
  · exact ⟨.bare, rfl⟩

theorem afterRoot_opening (o : Opening) (h : ∀ c ∈ body.head?, c ≠ '$' ∧ c ≠ '.') :
    afterRoot (o.chars ++ body) = body := by
  cases body with
  | nil => cases o <;> rfl
  | cons c body =>
    obtain ⟨hroot, hdot⟩ := h c rfl
    cases o with
    | bare =>
      rw [Opening.chars, List.nil_append, afterRoot]
      · rintro rest heq
        exact hroot (List.cons.inj heq).1
      · rintro rest heq
        exact hroot (List.cons.inj heq).1
    | root =>
      rw [Opening.chars, List.singleton_append, afterRoot]
      rintro rest heq
      exact hdot (List.cons.inj heq).1
    | rootDot => rfl

/-- What is left of a text without closing brackets is a spelled path only if the text begins with a
segment or a closing bracket. -/
theorem head_of_filter (s : Spelling) (h : body.filter (· ≠ ']') = s.body.filter (· ≠ ']')) :
    body ≠ [] ∧ ∀ c ∈ body.head?, c ≠ '$' ∧ c ≠ '.' := by
  obtain ⟨hne, hchars⟩ := Bool.and_eq_true_iff.1 s.first.isSegment
  have hsome : s.first.chars ≠ [] := by simpa using hne
  obtain ⟨first, others, hfirst⟩ := List.exists_cons_of_ne_nil hsome
  rw [hfirst, List.all_cons, Bool.and_eq_true] at hchars
  have hplain : first ≠ ']' ∧ first ≠ '$' ∧ first ≠ '.' := by
    refine ⟨?_, ?_, ?_⟩ <;> rintro rfl <;> exact absurd hchars.1 (by decide)
  rw [Spelling.body, hfirst, List.cons_append,
    List.filter_cons_of_pos (by simpa using hplain.1)] at h
  cases body with
  | nil => cases h
  | cons c body =>
    refine ⟨List.cons_ne_nil _ _, ?_⟩
    rintro _ ⟨rfl⟩
    by_cases hc : c = ']'
    · subst hc
      decide
    · rw [List.filter_cons_of_pos (by simpa using hc)] at h
      rw [(List.cons.inj h).1]
      exact hplain.2

theorem parseChars_eq (raw : List Char) :
    parseChars raw =
      if (afterRoot (Chars.trim raw)).isEmpty then
        if Chars.trim raw = ['$'] then .ok ⟨[]⟩ else .error (.invalidPath (String.ofList raw))
      else if (cut (afterRoot (Chars.trim raw))).all isSegment then
        .ok ⟨(cut (afterRoot (Chars.trim raw))).map String.ofList⟩
      else .error (.invalidPath (String.ofList raw)) :=
  rfl

/-- A text that is no path is named by the error. -/
theorem eq_invalidPath_of_parseChars {e : ExpressionError} (h : parseChars raw = .error e) :
    e = .invalidPath (String.ofList raw) := by
  rw [parseChars_eq] at h
  split_ifs at h <;> exact (Except.error.inj h).symm

theorem parseChars_root (h : Chars.trim raw = ['$']) : parseChars raw = .ok ⟨[]⟩ := by
  rw [parseChars_eq, h]
  rfl

/-- What differs from a written path in its closing brackets only is read as that path. -/
theorem parseChars_of_filter {s : Spelling} (htrim : Chars.trim raw = s.opening.chars ++ body)
    (hfilter : body.filter (· ≠ ']') = s.body.filter (· ≠ ']')) : parseChars raw = .ok s.path := by
  obtain ⟨hne, hhead⟩ := head_of_filter s hfilter
  have hcut : cut body = (s.first :: s.later.map Joined.segment).map (·.chars) := by
    rw [← cut_filter, hfilter, cut_filter, cut_body]
  have hsegments : (cut body).all isSegment = true := by
    rw [hcut, List.all_map]
    exact List.all_eq_true.2 fun segment _ => segment.isSegment
  rw [parseChars_eq, htrim, afterRoot_opening _ hhead, if_neg (by simpa using hne),
    if_pos hsegments, hcut, List.map_map]
  rfl

/-- **What is read as a path** is the mark of the whole value, or differs from a written path in its
closing brackets only. Where the brackets fit it is a written path. -/
theorem exists_spelling_of_parseChars (h : parseChars raw = .ok path) :
    (Chars.trim raw = ['$'] ∧ path = ⟨[]⟩) ∨
    ∃ (s : Spelling) (body : List Char), Chars.trim raw = s.opening.chars ++ body ∧
      body.filter (· ≠ ']') = s.body.filter (· ≠ ']') ∧
      (bracketsFit false body = true → body = s.body) ∧ s.path = path := by
  obtain ⟨o, hopening⟩ := exists_opening (Chars.trim raw)
  rw [parseChars_eq] at h
  generalize afterRoot (Chars.trim raw) = body at h hopening
  split_ifs at h with hempty hroot hsegments
  · exact .inl ⟨hroot, (Except.ok.inj h).symm⟩
  · obtain ⟨first, rest, hcut⟩ := exists_cons_cut body
    rw [hcut, List.all_cons, Bool.and_eq_true] at hsegments
    obtain ⟨later, hlater, hgoes⟩ := exists_goesOn hcut (List.all_eq_true.1 hsegments.2)
    refine .inr ⟨⟨o, ⟨first, hsegments.1⟩, later⟩, body, hopening, hgoes.filter, hgoes.outside, ?_⟩
    subst hlater
    rw [← Except.ok.inj h, hcut]
    simp [Spelling.path]

/-! ### The characters of a path -/

/-- The characters that a path may have. -/
def isPathChar (c : Char) : Bool :=
  isSegmentChar c || ['$', '.', '[', ']'].contains c

theorem isPathChar_of_isSegmentChar (h : isSegmentChar c = true) : isPathChar c = true := by
  rw [isPathChar, h, Bool.true_or]

theorem Segment.isPathChar_chars (s : Segment) : ∀ c ∈ s.chars, isPathChar c = true :=
  fun c hc => isPathChar_of_isSegmentChar
    (List.all_eq_true.1 (Bool.and_eq_true_iff.1 s.isSegment).2 c hc)

theorem Joined.isPathChar_chars (j : Joined) : ∀ c ∈ j.chars, isPathChar c = true := by
  cases j with
  | dotted s => exact List.forall_mem_cons.2 ⟨rfl, s.isPathChar_chars⟩
  | bracketed s =>
    refine List.forall_mem_cons.2 ⟨rfl, List.forall_mem_append.2 ⟨s.isPathChar_chars, ?_⟩⟩
    exact List.forall_mem_singleton.2 rfl

theorem Spelling.isPathChar_body (s : Spelling) : ∀ c ∈ s.body, isPathChar c = true := by
  refine List.forall_mem_append.2 ⟨s.first.isPathChar_chars, fun c hc => ?_⟩
  obtain ⟨j, -, hj⟩ := List.mem_flatMap.1 hc
  exact j.isPathChar_chars c hj

theorem Opening.isPathChar_chars (o : Opening) : ∀ c ∈ o.chars, isPathChar c = true :=
  List.all_eq_true.1 (by cases o <;> decide)

/-- What is read as a path has no other characters. -/
theorem isPathChar_of_parseChars (h : parseChars raw = .ok path) :
    ∀ c ∈ Chars.trim raw, isPathChar c = true := by
  rcases exists_spelling_of_parseChars h with ⟨htrim, -⟩ | ⟨s, body, htrim, hfilter, -, -⟩
  · rw [htrim]
    exact Opening.root.isPathChar_chars
  · rw [htrim]
    refine List.forall_mem_append.2 ⟨s.opening.isPathChar_chars, fun c hc => ?_⟩
    by_cases hclosing : c = ']'
    · subst hclosing
      rfl
    · have hmem : c ∈ body.filter (· ≠ ']') := List.mem_filter.2 ⟨hc, by simpa using hclosing⟩
      rw [hfilter] at hmem
      exact s.isPathChar_body c (List.mem_filter.1 hmem).1

theorem isBlank_eq_false_of_isPathChar (h : isPathChar c = true) : Text.isBlank c = false := by
  rw [isPathChar, isSegmentChar, Bool.or_eq_true, Bool.or_eq_true, Bool.or_eq_true, beq_iff_eq,
    beq_iff_eq, List.contains_iff_mem] at h
  rcases h with ((h | rfl) | rfl) | h
  · exact Text.isBlank_eq_false_of_isAlphanum h
  · rfl
  · rfl
  · have hsigns : ['$', '.', '[', ']'].all (!Text.isBlank ·) = true := by decide
    simpa using List.all_eq_true.1 hsigns c h

/-! ### Paths as they are written -/

/-- **The brackets of a text are well placed.** -/
def WellBracketed (text : String) : Prop :=
  bracketsFit false text.toList = true

theorem toList_text (s : Spelling) : s.text.toList = s.opening.chars ++ s.body :=
  String.toList_ofList

theorem trim_eq_root_iff {raw : String} :
    Text.trim raw = "$" ↔ Chars.trim raw.toList = ['$'] := by
  rw [← String.toList_inj, Text.toList_trim]
  rfl

theorem trim_eq_text_iff {raw : String} {s : Spelling} :
    Text.trim raw = s.text ↔ Chars.trim raw.toList = s.opening.chars ++ s.body := by
  rw [← String.toList_inj, Text.toList_trim, toList_text]

/-- **A written path is read.** -/
theorem parse_of_writes {raw : String} (h : Writes (Text.trim raw) path) :
    parse raw = .ok path := by
  rcases h with ⟨htrim, rfl⟩ | ⟨s, htrim, rfl⟩
  · exact parseChars_root (trim_eq_root_iff.1 htrim)
  · exact parseChars_of_filter (trim_eq_text_iff.1 htrim) rfl

theorem bracketsFit_spelling (s : Spelling) :
    bracketsFit false (s.opening.chars ++ s.body) = true := by
  rw [bracketsFit_opening, Spelling.body, bracketsFit_append_of_segment, bracketsFit_later]

namespace Writes

variable {text : String}

theorem isPathChar (h : Writes text path) : ∀ c ∈ text.toList, isPathChar c = true := by
  rcases h with ⟨rfl, -⟩ | ⟨s, rfl, -⟩
  · exact Opening.root.isPathChar_chars
  · rw [toList_text]
    exact List.forall_mem_append.2 ⟨s.opening.isPathChar_chars, s.isPathChar_body⟩

theorem ne_nil (h : Writes text path) : text.toList ≠ [] := by
  rcases h with ⟨rfl, -⟩ | ⟨s, rfl, -⟩
  · decide
  · have hfirst : s.first.chars ≠ [] := by
      simpa using (Bool.and_eq_true_iff.1 s.first.isSegment).1
    rw [toList_text, Spelling.body]
    simp [hfirst]

theorem trim (h : Writes text path) : Chars.trim text.toList = text.toList :=
  Chars.trim_of_forall fun c hc => isBlank_eq_false_of_isPathChar (h.isPathChar c hc)

/-- **What is written for a path is read as it.** -/
theorem parseChars (h : Writes text path) : FieldPath.parseChars text.toList = .ok path := by
  have htext : Text.trim text = text := by rw [Text.trim, h.trim, String.ofList_toList]
  exact parse_of_writes (htext.symm ▸ h)

theorem wellBracketed (h : Writes text path) : WellBracketed text := by
  rcases h with ⟨rfl, -⟩ | ⟨s, rfl, -⟩
  · rfl
  · rw [WellBracketed, toList_text]
    exact bracketsFit_spelling s

end Writes

theorem writes_of_parse {raw : String} (h : parse raw = .ok path)
    (hwell : WellBracketed (Text.trim raw)) : Writes (Text.trim raw) path := by
  rcases exists_spelling_of_parseChars h with ⟨htrim, hpath⟩ | ⟨s, body, htrim, -, hbody, hpath⟩
  · exact .inl ⟨trim_eq_root_iff.2 htrim, hpath⟩
  · have hfit : bracketsFit false body = true := by
      rwa [WellBracketed, Text.toList_trim, htrim, bracketsFit_opening] at hwell
    rw [hbody hfit] at htrim
    exact .inr ⟨s, trim_eq_text_iff.2 htrim, hpath⟩

/-- **Which texts are paths.** A text is written as a path just when it is read as one and its
brackets are well placed. What is read as a path otherwise differs from a written path in its
closing brackets only. All other texts are refused, and named in the error. -/
theorem parse_writes (raw : String) :
    (∀ path, parse raw = .ok path ∧ WellBracketed (Text.trim raw) ↔ Writes (Text.trim raw) path) ∧
    (∀ path, parse raw = .ok path ↔ (Text.trim raw = "$" ∧ path = ⟨[]⟩) ∨
      ∃ (s : Spelling) (body : List Char), (Text.trim raw).toList = s.opening.chars ++ body ∧
        body.filter (· ≠ ']') = s.body.filter (· ≠ ']') ∧ s.path = path) ∧
    ∀ e, parse raw = .error e → e = .invalidPath raw := by
  refine ⟨fun path => ⟨fun h => writes_of_parse h.1 h.2,
    fun h => ⟨parse_of_writes h, h.wellBracketed⟩⟩, fun path => ⟨fun h => ?_, ?_⟩, fun e h => ?_⟩
  · rcases exists_spelling_of_parseChars h with ⟨htrim, hpath⟩ | ⟨s, body, htrim, hfilter, -, hpath⟩
    · exact .inl ⟨trim_eq_root_iff.2 htrim, hpath⟩
    · exact .inr ⟨s, body, by rw [Text.toList_trim, htrim], hfilter, hpath⟩
  · rintro (⟨htrim, rfl⟩ | ⟨s, body, htrim, hfilter, rfl⟩)
    · exact parseChars_root (trim_eq_root_iff.1 htrim)
    · rw [Text.toList_trim] at htrim
      exact parseChars_of_filter htrim hfilter
  · rw [eq_invalidPath_of_parseChars h, String.ofList_toList]

/-- **Texts with a bracket that fits nothing are read as paths**: one is not closed, one is not
opened, and one stands before more of a segment. None of these texts is written as a path is. -/
theorem misplaced_bracket_accepted :
    (parse "a[0" = .ok ⟨["a", "0"]⟩ ∧ parse "a]b" = .ok ⟨["ab"]⟩ ∧
      parse "a[0]b" = .ok ⟨["a", "0b"]⟩) ∧
    ∀ text ∈ ["a[0", "a]b", "a[0]b"], ∀ path, ¬ Writes (Text.trim text) path := by
  refine ⟨by decide +kernel, fun text htext path h => ?_⟩
  have hwell := h.wellBracketed
  have hmisplaced : ∀ text ∈ ["a[0", "a]b", "a[0]b"],
      bracketsFit false (Text.trim text).toList = false := by decide +kernel
  rw [WellBracketed, hmisplaced text htext] at hwell
  cases hwell

end Syndication.FieldPath
