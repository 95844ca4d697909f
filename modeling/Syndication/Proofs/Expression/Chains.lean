import Mathlib.Tactic.SplitIfs
import Syndication.Proofs.Expression.Comparisons

/-!
# Chains of comparisons

An expression is one comparison at most. A literal in quotation marks is told from its first and
last character only, though, so that a chain of comparisons that begins and ends with the same
quotation mark is read as one comparison, with a text that has quotation marks and operators of
its own. Every other chain is refused.

Main statements:

* `exists_head_of_parseChars`: what a comparison with a text looks like.
* `parse_chain`: how a chain is read.
* `parse_compound`: which expressions with several comparisons are read, and which are refused.
* `chain_accepted`: a chain that is read as one comparison.
-/

namespace Syndication.Expression

open Literal (QuotationMark)

variable {raw rest : List Char} {operator : Operator} {path : FieldPath} {s : String}
  {mark : QuotationMark} {expression : Expression}

/-! ### What a comparison with a text looks like -/

theorem isBlank_mark (mark : QuotationMark) : Text.isBlank mark.char = false := by
  cases mark <;> rfl

theorem isPathChar_mark (mark : QuotationMark) : FieldPath.isPathChar mark.char = false := by
  cases mark <;> rfl

theorem mark_notMem_of_isBlank {cs : List Char} (h : ∀ c ∈ cs, Text.isBlank c = true) :
    mark.char ∉ cs := by
  intro hmem
  have hblank := h _ hmem
  rw [isBlank_mark] at hblank
  cases hblank

/-- The left side of a comparison that is read has no quotation marks. -/
theorem mark_notMem_left {left : List Char} (h : FieldPath.parseChars left = .ok path)
    (hoperand : ∀ c ∈ left, endsOperand c = false) : mark.char ∉ left := by
  intro hmem
  have htrim : Chars.trim left = left :=
    Chars.trim_of_forall fun c hc => isBlank_eq_false_of_operand (hoperand c hc)
  have hpath := FieldPath.isPathChar_of_parseChars h mark.char (htrim.symm ▸ hmem)
  rw [isPathChar_mark] at hpath
  cases hpath

/-- A comparison with a text ends with that text in quotation marks, and there are none before. -/
theorem exists_head_of_parseChars (h : parseChars raw = .ok (operator.compare path (.string s))) :
    ∃ (mark : QuotationMark) (head : List Char), Chars.trim raw = head ++ (mark.quote s).toList ∧
      mark.char ∉ head := by
  rcases parseChars_cases h with
    ⟨left, operator', right, path', literal, hcompares, hpath, hliteral, heq⟩ | ⟨path', -, heq⟩
  · obtain ⟨rfl, rfl, rfl⟩ := compare_inj heq
    obtain ⟨mark, hquote⟩ := Literal.parseChars_eq_string_iff.1 hliteral
    obtain ⟨gap', after, hgap', hafter, hbegins⟩ := hcompares.parts
    obtain ⟨before, gap, hbefore, hgap, hraw⟩ := hbegins.parts
    obtain ⟨gap'', after', hgap'', hafter', hright⟩ := Chars.exists_append_trim right
    have hoperator : mark.char ∉ operator.text.toList := by
      cases mark <;> cases operator <;> decide
    refine ⟨mark, before ++ (left ++ (gap ++ (operator.text.toList ++ (gap' ++ gap'')))), ?_, ?_⟩
    · have hwhole : Chars.trim raw =
          (before ++ (left ++ (gap ++ (operator.text.toList ++ (gap' ++ gap'')))) ++
            (mark.quote s).toList) ++ (after' ++ after) := by
        rw [hraw, hright, hquote]
        simp only [List.append_assoc]
      have hnil := Chars.eq_nil_of_trim_append (hwhole ▸ Chars.trim_trim raw)
        (List.forall_mem_append.2 ⟨hafter', hafter⟩)
      rw [hwhole, hnil, List.append_nil]
    · simp only [List.mem_append, not_or]
      exact ⟨mark_notMem_of_isBlank hbefore, mark_notMem_left hpath hbegins.operand,
        mark_notMem_of_isBlank hgap, hoperator, mark_notMem_of_isBlank hgap',
        mark_notMem_of_isBlank hgap''⟩
  · cases operator <;> cases heq

/-- The text of a comparison has its own quotation mark just when there are more than two. -/
theorem mem_iff_two_lt_count {head : List Char}
    (h : Chars.trim raw = head ++ (mark.quote s).toList) (hhead : mark.char ∉ head) :
    mark.char ∈ s.toList ↔ 2 < raw.count mark.char := by
  obtain ⟨before, after, hbefore, hafter, hraw⟩ := Chars.exists_append_trim raw
  have hcount : raw.count mark.char = s.toList.count mark.char + 2 := by
    rw [hraw, h, Literal.toList_quote]
    simp only [List.count_append, List.count_cons_self, List.count_nil,
      List.count_eq_zero_of_not_mem hhead,
      List.count_eq_zero_of_not_mem (mark_notMem_of_isBlank hbefore),
      List.count_eq_zero_of_not_mem (mark_notMem_of_isBlank hafter)]
    omega
  rw [hcount, ← List.count_pos_iff]
  omega

/-! ### Signs of operators in the literal -/

theorem isBlank_eq_false_of_isOperatorChar {c : Char} (h : isOperatorChar c = true) :
    Text.isBlank c = false := by
  rw [← Bool.not_eq_true]
  intro hblank
  rw [Literal.isOperatorChar_eq_false (by decide) hblank] at h
  cases h

theorem newline_mem_quote_iff : '\n' ∈ (mark.quote s).toList ↔ '\n' ∈ s.toList := by
  have hmark : '\n' ≠ mark.char := by cases mark <;> decide
  simp [Literal.toList_quote, hmark]

/-- When signs of operators stand behind the operator, only a text in quotation marks is read. -/
theorem parse_eq_ok_iff_of_sign {left rest : String} (before gap : Gap) (operator : Operator)
    (hleft : FieldPath.Writes left path) (hsign : ∃ c ∈ rest.toList, isOperatorChar c = true) :
    parse (before.text ++ left ++ gap.text ++ operator.text ++ rest) = .ok expression ↔
      ∃ (mark : QuotationMark) (s : String), Text.trim rest = mark.quote s ∧ '\n' ∉ s.toList ∧
        expression = operator.compare path (.string s) := by
  obtain ⟨c, hc, hsign⟩ := hsign
  have hmem : c ∈ Chars.trim rest.toList :=
    Chars.mem_trim hc (isBlank_eq_false_of_isOperatorChar hsign)
  have hquote : ∀ {mark : QuotationMark} {s : String},
      Text.trim rest = mark.quote s ↔ Chars.trim rest.toList = (mark.quote s).toList := by
    intro mark s
    rw [← String.toList_inj, Text.toList_trim]
  rw [parse, (begins_of_writes hleft before gap operator rest).parseChars
    (List.ne_nil_of_mem hmem), hleft.parseChars]
  constructor
  · intro h
    split_ifs at h with hline
    cases hliteral : Literal.parseChars rest.toList with
    | error e =>
      rw [hliteral] at h
      cases h
    | ok literal =>
      rw [hliteral] at h
      obtain rfl := Except.ok.inj h
      rcases Literal.parseChars_cases hliteral with ⟨s, mark, rfl, htrim⟩ | ⟨-, hplain⟩
      · exact ⟨mark, s, hquote.2 htrim, by rwa [htrim, newline_mem_quote_iff] at hline, rfl⟩
      · rw [hplain c hmem] at hsign
        cases hsign
  · rintro ⟨mark, s, htrim, hline, rfl⟩
    rw [if_neg (by rwa [hquote.1 htrim, newline_mem_quote_iff]),
      Literal.parseChars_of_quote (hquote.1 htrim)]
    rfl

/-! ### Chains -/

theorem Chain.toList_tail (c : Chain) :
    c.tail.toList = c.first.mark.char :: (c.inner.toList ++ [c.last.mark.char]) := by
  simp [Chain.tail, Chain.inner, Literal.toList_quote]

theorem Chain.text_eq (c : Chain) :
    c.text = c.first.left ++ c.first.gap.text ++ c.first.operator.text ++
      (c.first.gap'.text ++ c.tail) := by
  simp only [Chain.text, Chain.tail, Chain.between, QuotedComparison.text, QuotedComparison.head,
    String.append_assoc]

theorem Chain.trim_tail (c : Chain) : Chars.trim c.tail.toList = c.tail.toList := by
  rw [Chars.trim_eq_self_iff, Chain.toList_tail, ← List.cons_append, List.getLast?_append]
  simp [isBlank_mark]

theorem Chain.trim_text (c : Chain) : Chars.trim c.text.toList = c.text.toList := by
  obtain ⟨d, ds, hd⟩ := List.exists_cons_of_ne_nil (c.first.writes.ne_nil)
  have hfirst : Text.isBlank d = false := FieldPath.isBlank_eq_false_of_isPathChar
    (c.first.writes.isPathChar d (hd ▸ List.mem_cons_self))
  obtain ⟨front, hfront⟩ : ∃ front, c.text.toList = front ++ [c.last.mark.char] :=
    ⟨(c.first.head ++ String.singleton c.first.mark.char ++ c.inner).toList, by
      simp [Chain.text_eq, QuotedComparison.head, Chain.toList_tail]⟩
  rw [Chars.trim_eq_self_iff]
  constructor
  · rw [Chain.text_eq]
    simp only [String.toList_append, hd]
    rintro _ ⟨rfl⟩
    exact hfirst
  · rw [hfront, List.getLast?_concat]
    rintro _ ⟨rfl⟩
    exact isBlank_mark _

/-- **How a chain is read.** It is refused, unless its first quotation mark and its last are the
same and everything between these lies on one line; then it is read as one comparison. -/
theorem parse_chain (before after : Gap) (c : Chain) :
    parse (before.text ++ c.text ++ after.text) =
      if '\n' ∈ c.tail.toList then .error (.unsupported c.text)
      else if c.first.mark = c.last.mark then
        .ok (c.first.operator.compare c.first.path (.string c.inner))
      else .error (.invalidLiteral c.tail) := by
  have hparts : before.text ++ c.text ++ after.text = before.text ++ c.first.left ++
      c.first.gap.text ++ c.first.operator.text ++ (c.first.gap'.text ++ c.tail ++ after.text) := by
    rw [c.text_eq]
    simp only [String.append_assoc]
  have hwhole := (trim_around before after c.text).trans c.trim_text
  have htail := (trim_around c.first.gap' after c.tail).trans c.trim_tail
  have hbegins := begins_of_writes c.first.writes before c.first.gap c.first.operator
    (c.first.gap'.text ++ c.tail ++ after.text)
  rw [← hparts] at hbegins
  have hne : c.tail.toList ≠ [] := by
    rw [c.toList_tail]
    exact List.cons_ne_nil _ _
  rw [parse, hbegins.parseChars (by rwa [htail]), hwhole, htail, String.ofList_toList,
    c.first.writes.parseChars]
  by_cases hline : '\n' ∈ c.tail.toList
  · rw [if_pos hline, if_pos hline]
  · rw [if_neg hline, if_neg hline]
    by_cases hmark : c.first.mark = c.last.mark
    · have hquote : Chars.trim (c.first.gap'.text ++ c.tail ++ after.text).toList =
          (c.first.mark.quote c.inner).toList := by
        rw [htail, c.toList_tail, Literal.toList_quote, hmark]
      rw [if_pos hmark, Literal.parseChars_of_quote hquote]
      rfl
    · rw [if_neg hmark, Literal.parseChars_of_ne_mark (htail.trans c.toList_tail) hmark, htail,
        String.ofList_toList]
      rfl

/-- **Which expressions with several comparisons are read.** What is read as a comparison with a
text ends with that text in quotation marks and has none of these before, so that the text has its
own mark just when there are more than two of them. When signs of operators stand behind the
operator, only a text in quotation marks is read, on one line. A chain of comparisons is thus
refused, unless its first quotation mark and its last are the same and on one line. -/
theorem parse_compound (raw : String) :
    (∀ (operator : Operator) path s, parse raw = .ok (operator.compare path (.string s)) →
      ∃ (mark : QuotationMark) (head : String), Text.trim raw = head ++ mark.quote s ∧
        mark.char ∉ head.toList ∧ (mark.char ∈ s.toList ↔ 2 < raw.toList.count mark.char)) ∧
    (∀ (before gap : Gap) (left : String) path (operator : Operator) (rest : String),
      raw = before.text ++ left ++ gap.text ++ operator.text ++ rest →
      FieldPath.Writes left path → (∃ c ∈ rest.toList, isOperatorChar c = true) →
      ∀ expression, parse raw = .ok expression ↔
        ∃ (mark : QuotationMark) (s : String), Text.trim rest = mark.quote s ∧ '\n' ∉ s.toList ∧
          expression = operator.compare path (.string s)) ∧
    ∀ (before after : Gap) (c : Chain), raw = before.text ++ c.text ++ after.text →
      parse raw =
        if '\n' ∈ c.tail.toList then .error (.unsupported c.text)
        else if c.first.mark = c.last.mark then
          .ok (c.first.operator.compare c.first.path (.string c.inner))
        else .error (.invalidLiteral c.tail) := by
  refine ⟨fun operator path s h => ?_, ?_, ?_⟩
  · obtain ⟨mark, head, htrim, hhead⟩ := exists_head_of_parseChars h
    refine ⟨mark, String.ofList head, ?_, by rwa [String.toList_ofList],
      mem_iff_two_lt_count htrim hhead⟩
    rw [← String.toList_inj, Text.toList_trim, htrim, String.toList_append, String.toList_ofList]
  · rintro before gap left path operator rest rfl hleft hsign expression
    exact parse_eq_ok_iff_of_sign before gap operator hleft hsign
  · rintro before after c rfl
    exact parse_chain before after c

/-- **A chain that is read as one comparison.** The text that it compares with has the rest of the
chain and its quotation marks in it. -/
theorem chain_accepted :
    parse "$.a == 'x' && $.b == 'y'" = .ok (.equal ⟨["a"]⟩ (.string "x' && $.b == 'y")) ∧
      '\'' ∈ "x' && $.b == 'y".toList := by
  decide +kernel

end Syndication.Expression
