import Mathlib.Tactic.SplitIfs
import Syndication.Proofs.Expression.Literals
import Syndication.Proofs.Expression.Paths
import Syndication.Proofs.Results
import Syndication.Proofs.Text.Matching

/-!
# Reading what is written

The pattern of a comparison has places where it may match in more than one way: blanks before the
right side may be passed over or belong to it, and the right side may hold operators of its own. It
still begins in one way only (`Begins.unique`): the left side ends with the first character that it
may not have, and the operator is what stands there. All the rest is the right side, and the blanks
around that do not matter to a literal.

Main statements:

* `compares_of_comparison?`, `Compares.exists_comparison?`: what is found to be a comparison, and
  that it is found.
* `Begins.parseChars`, `parseChars_cases`: how a text is read that begins as a comparison does, and
  what is read at all.
* `parse_spelling`: what is written as a path or as a comparison is read as it.
-/

namespace Syndication.Expression

open Pattern (Place Span Match)

variable {cs raw left right rest left' right' rest' : List Char} {operator operator' : Operator}

/-! ### The pattern of a comparison -/

/-- **How a comparison begins**: with its left side, which is something without blanks and operator
signs, and its operator; blanks stand around the left side or not. -/
structure Begins (cs left : List Char) (operator : Operator) (rest : List Char) : Prop where
  ne_nil : left ≠ []
  operand : ∀ c ∈ left, endsOperand c = false
  parts : ∃ before gap : List Char, (∀ c ∈ before, Text.isBlank c = true) ∧
    (∀ c ∈ gap, Text.isBlank c = true) ∧
    cs = before ++ (left ++ (gap ++ (operator.text.toList ++ rest)))

/-- **What a comparison is made of**: behind the operator stands its right side, which is something
on one line; blanks stand around it or not. -/
structure Compares (cs left : List Char) (operator : Operator) (right : List Char) : Prop where
  ne_nil : right ≠ []
  oneLine : '\n' ∉ right
  parts : ∃ gap after : List Char, (∀ c ∈ gap, Text.isBlank c = true) ∧
    (∀ c ∈ after, Text.isBlank c = true) ∧ Begins cs left operator (gap ++ (right ++ after))

/-- The pattern of an operator. -/
theorem exists_operator_of_covers {p q : Place} {groups groups' : List (Nat × Span)}
    (h : (Pattern.choice [.literal "==", .literal "!="]).Covers p groups q groups') :
    ∃ operator : Operator, p.rest = operator.text.toList ++ q.rest ∧ groups' = groups := by
  rcases h with h | h
  · exact ⟨.equal, h.literal⟩
  · exact ⟨.notEqual, h.literal⟩

theorem ofChars_text (operator : Operator) : Operator.ofChars operator.text.toList = operator := by
  cases operator <;> rfl

/-- What the pattern covers is a comparison, and its groups are the parts. -/
theorem exists_of_covers {p q : Place} {groups : List (Nat × Span)}
    (h : comparison.Covers p [] q groups) :
    p.before = none ∧ q.rest = [] ∧ ∃ left operator right, Compares p.rest left operator right ∧
      ∀ whole, Match.group ⟨whole, groups⟩ 1 = left ∧
        Operator.ofChars (Match.group ⟨whole, groups⟩ 2) = operator ∧
        Match.group ⟨whole, groups⟩ 3 = right := by
  -- a place behind each part of the pattern
  obtain ⟨p₀, _, ⟨hstart, rfl, rfl⟩, p₁, _, ⟨hbefore, rfl⟩, p₂, _, ⟨_, hleft, rfl⟩, p₃, _,
    ⟨hgap, rfl⟩, p₄, _, ⟨_, hoperator, rfl⟩, p₅, _, ⟨hgap', rfl⟩, p₆, _, ⟨_, hright, rfl⟩, p₇, _,
    ⟨hafter, rfl⟩, hstop, rfl, rfl⟩ := h
  obtain ⟨before, h₀, hbefore⟩ := hbefore.exists_append
  obtain ⟨left, hne, hoperand, h₁, rfl⟩ := hleft.exists_many1
  obtain ⟨gap, h₂, hgap⟩ := hgap.exists_append
  obtain ⟨operator, h₃, rfl⟩ := exists_operator_of_covers hoperator
  obtain ⟨gap', h₄, hgap'⟩ := hgap'.exists_append
  obtain ⟨right, hne', honeLine, h₅, rfl⟩ := hright.exists_few1
  obtain ⟨after, h₆, hafter⟩ := hafter.exists_append
  have hend : q.rest = [] := List.isEmpty_iff.1 hstop
  refine ⟨Option.isNone_iff_eq_none.1 hstart, hend, left, operator, right,
    ⟨hne', fun h => by simpa using honeLine _ h, gap', after, hgap', hafter,
      hne, by simpa using hoperand, before, gap, hbefore, hgap, ?_⟩, fun whole => ⟨?_, ?_, ?_⟩⟩
  · rw [h₀, h₁, h₂, h₃, h₄, h₅, h₆, hend, List.append_nil]
  · change (Span.mk p₁.rest p₂.rest).text = left
    rw [h₁, Span.text_mk_append]
  · change Operator.ofChars (Span.mk p₃.rest p₄.rest).text = operator
    rw [h₃, Span.text_mk_append, ofChars_text]
  · change (Span.mk p₅.rest p₆.rest).text = right
    rw [h₅, Span.text_mk_append]

theorem passes_operator (operator : Operator) (rest : List Char) :
    (Pattern.choice [.literal "==", .literal "!="]).Passes operator.text.toList rest := by
  cases operator with
  | equal => exact (Pattern.passes_literal "==").left _
  | notEqual => exact (Pattern.passes_literal "!=").right _

/-- The pattern covers every comparison. -/
theorem Compares.exists_covers (h : Compares cs left operator right) :
    ∃ before groups, comparison.Covers ⟨none, cs⟩ [] ⟨before, []⟩ groups := by
  obtain ⟨gap', after, hgap', hafter, hleft, hoperand, before, gap, hbefore, hgap, rfl⟩ := h.parts
  have hoperand : ∀ c ∈ left, (!endsOperand c) = true := by simpa using hoperand
  have honeLine : ∀ c ∈ right, (c != '\n') = true :=
    fun c hc => bne_iff_ne.2 fun heq => h.oneLine (heq ▸ hc)
  have hpasses := (Pattern.passes_many hbefore).seq
    (((Pattern.passes_many1 hleft hoperand).group 1).seq ((Pattern.passes_many hgap).seq
      (((passes_operator operator _).group 2).seq ((Pattern.passes_many hgap').seq
        (((Pattern.passes_few1 h.ne_nil honeLine).group 3).seq
          ((Pattern.passes_many hafter).seq Pattern.passes_textEnd))))))
  obtain ⟨b, groups, hcovers⟩ := hpasses none []
  rw [List.append_nil, List.append_nil] at hcovers
  exact ⟨b, groups, Pattern.Covers.seq ⟨rfl, rfl, rfl⟩ hcovers⟩

theorem Begins.mem_sign (h : Begins cs left operator rest) : '=' ∈ cs := by
  obtain ⟨before, gap, -, -, rfl⟩ := h.parts
  have hsign : '=' ∈ operator.text.toList := by cases operator <;> decide
  simp [hsign]

theorem Compares.exists_begins (h : Compares cs left operator right) :
    ∃ rest, Begins cs left operator rest ∧ Chars.trim rest = Chars.trim right := by
  obtain ⟨gap, after, hgap, hafter, hbegins⟩ := h.parts
  exact ⟨_, hbegins, Chars.trim_append_of_blank hgap hafter right⟩

/-- **What is found to be a comparison is one.** -/
theorem compares_of_comparison? (h : comparison? cs = some (left, operator, right)) :
    Compares cs left operator right := by
  obtain ⟨m, hm, hparts⟩ := Option.map_eq_some_iff.1 h
  obtain ⟨p, hp, hfirst⟩ := Pattern.exists_matchAt_of_first? hm
  obtain ⟨q, hcovers, -⟩ := Pattern.exists_covers_of_matchAt hp
  obtain ⟨hstart, -, left', operator', right', hcompares, hgroups⟩ := exists_of_covers hcovers
  obtain ⟨hleft, hoperator, hright⟩ := hgroups m.whole
  obtain rfl : p.rest = cs := hfirst hstart
  cases hparts
  rw [← hleft, ← hoperator, ← hright] at hcompares
  exact hcompares

theorem Compares.exists_comparison? (h : Compares cs left operator right) :
    ∃ parts, comparison? cs = some parts := by
  obtain ⟨b, groups, hcovers⟩ := h.exists_covers
  obtain ⟨m, hm⟩ := Option.isSome_iff_exists.1 (Pattern.isSome_matchAt_of_covers hcovers)
  obtain ⟨q, hcovers', hwhole⟩ := Pattern.exists_covers_of_matchAt hm
  obtain ⟨-, hend, -⟩ := exists_of_covers hcovers'
  have htext : m.text = cs := by
    rw [Match.text, hwhole, hend]
    simp [Span.text, Span.length]
  obtain ⟨rest, hbegins, -⟩ := h.exists_begins
  have hne : cs ≠ [] := List.ne_nil_of_mem hbegins.mem_sign
  have hfirst : comparison.first? cs = some m := by
    rw [← htext] at hm hne ⊢
    exact Pattern.first?_of_matchAt hm hne
  exact ⟨_, by rw [comparison?, hfirst]; rfl⟩

/-! ### Cutting a comparison -/

theorem isBlank_eq_false_of_operand {c : Char} (h : endsOperand c = false) :
    Text.isBlank c = false := by
  simp only [endsOperand, Bool.or_eq_false_iff] at h
  exact h.1.1

theorem endsOperand_of_isBlank {c : Char} (h : Text.isBlank c = true) : endsOperand c = true := by
  rw [endsOperand, h, Bool.true_or, Bool.true_or]

theorem exists_cons_operator (operator : Operator) :
    ∃ c, operator.text.toList = [c, '='] ∧ endsOperand c = true ∧ Text.isBlank c = false := by
  cases operator with
  | equal => exact ⟨'=', rfl, rfl, rfl⟩
  | notEqual => exact ⟨'!', rfl, rfl, rfl⟩

/-- The left side is what stands before the first blank or operator sign, and the next thing
behind it is the operator. -/
theorem Begins.cut (h : Begins cs left operator rest) :
    (Chars.trimStart cs).takeWhile (!endsOperand ·) = left ∧
    Chars.trimStart ((Chars.trimStart cs).dropWhile (!endsOperand ·)) =
      operator.text.toList ++ rest := by
  obtain ⟨before, gap, hbefore, hgap, rfl⟩ := h.parts
  have hoperand : ∀ c ∈ left, (!endsOperand c) = true := by simpa using h.operand
  obtain ⟨sign, hsign, hends, hblank⟩ := exists_cons_operator operator
  have hstart : Chars.trimStart (before ++ (left ++ (gap ++ (operator.text.toList ++ rest)))) =
      left ++ (gap ++ (operator.text.toList ++ rest)) := by
    obtain ⟨c, left, rfl⟩ := List.exists_cons_of_ne_nil h.ne_nil
    rw [Chars.trimStart_append_of_blank hbefore, Chars.trimStart_eq_self_iff]
    rintro _ ⟨rfl⟩
    exact isBlank_eq_false_of_operand (h.operand c List.mem_cons_self)
  have hstop : ∃ d ds, gap ++ (operator.text.toList ++ rest) = d :: ds ∧
      endsOperand d = true := by
    cases gap with
    | nil => exact ⟨sign, '=' :: rest, by rw [hsign]; rfl, hends⟩
    | cons d ds =>
      exact ⟨d, ds ++ (operator.text.toList ++ rest), rfl,
        endsOperand_of_isBlank (hgap d List.mem_cons_self)⟩
  have hnext : Chars.trimStart (gap ++ (operator.text.toList ++ rest)) =
      operator.text.toList ++ rest := by
    rw [Chars.trimStart_append_of_blank hgap, Chars.trimStart_eq_self_iff, hsign]
    rintro _ ⟨rfl⟩
    exact hblank
  obtain ⟨d, ds, hds, hd⟩ := hstop
  rw [hds] at hstart hnext
  have hd' : ¬ (!endsOperand d) = true := by rw [hd]; decide
  rw [hds, hstart, List.takeWhile_append_of_pos hoperand, List.dropWhile_append_of_pos hoperand,
    List.takeWhile_cons_of_neg (p := (!endsOperand ·)) hd',
    List.dropWhile_cons_of_neg (p := (!endsOperand ·)) hd', List.append_nil]
  exact ⟨rfl, hnext⟩

/-- **A comparison begins in one way only.** -/
theorem Begins.unique (h : Begins cs left operator rest)
    (h' : Begins cs left' operator' rest') :
    left = left' ∧ operator = operator' ∧ rest = rest' := by
  obtain ⟨hleft, hrest⟩ := h.cut
  obtain ⟨hleft', hrest'⟩ := h'.cut
  rw [hrest'] at hrest
  refine ⟨hleft.symm.trans hleft', ?_⟩
  cases operator <;> cases operator' <;> simp_all [Operator.text]

/-- Blanks around the text make no difference to how it begins. -/
theorem Begins.trim (h : Begins raw left operator rest) (hne : Chars.trim rest ≠ []) :
    ∃ gap, (∀ c ∈ gap, Text.isBlank c = true) ∧
      Begins (Chars.trim raw) left operator (gap ++ Chars.trim rest) := by
  obtain ⟨before, gap, hbefore, hgap, hraw⟩ := h.parts
  obtain ⟨gap', after, hgap', hafter, hrest⟩ := Chars.exists_append_trim rest
  have htrim : Chars.trim raw =
      left ++ (gap ++ (operator.text.toList ++ (gap' ++ Chars.trim rest))) := by
    have hself := (Chars.trim_eq_self_iff.1 (Chars.trim_trim rest)).2
    generalize Chars.trim rest = right at hne hself hrest
    have hcore : raw =
        before ++ ((left ++ (gap ++ (operator.text.toList ++ (gap' ++ right)))) ++ after) := by
      rw [hraw, hrest]
      simp only [List.append_assoc]
    rw [hcore, Chars.trim_append_of_blank hbefore hafter, Chars.trim_eq_self_iff]
    constructor
    · obtain ⟨c, left, rfl⟩ := List.exists_cons_of_ne_nil h.ne_nil
      rintro _ ⟨rfl⟩
      exact isBlank_eq_false_of_operand (h.operand c List.mem_cons_self)
    · obtain ⟨d, hd⟩ := Option.isSome_iff_exists.1 (List.getLast?_isSome.2 hne)
      simpa [List.getLast?_append, hd] using hself
  exact ⟨gap', hgap', h.ne_nil, h.operand, [], gap, nofun, hgap, htrim⟩

/-! ### Reading -/

/-- **How a text is read that begins as a comparison does.** -/
theorem Begins.parseChars (h : Begins raw left operator rest) (hne : Chars.trim rest ≠ []) :
    parseChars raw =
      if '\n' ∈ Chars.trim rest then .error (.unsupported (String.ofList (Chars.trim raw)))
      else do
        let path ← FieldPath.parseChars left
        let literal ← Literal.parseChars rest
        return operator.compare path literal := by
  obtain ⟨gap, hgap, hbegins⟩ := h.trim hne
  have hsome : (Chars.trim raw).isEmpty = false := by
    rw [List.isEmpty_eq_false_iff]
    exact List.ne_nil_of_mem hbegins.mem_sign
  have hunique : ∀ {left' operator' right}, Compares (Chars.trim raw) left' operator' right →
      left' = left ∧ operator' = operator ∧ Chars.trim right = Chars.trim rest := by
    intro left' operator' right h'
    obtain ⟨rest', hbegins', hright⟩ := h'.exists_begins
    obtain ⟨rfl, rfl, rfl⟩ := hbegins.unique hbegins'
    have hnone : ∀ c ∈ ([] : List Char), Text.isBlank c = true := nofun
    have hrest := Chars.trim_append_of_blank hgap hnone (Chars.trim rest)
    rw [List.append_nil, Chars.trim_trim] at hrest
    exact ⟨rfl, rfl, hright.symm.trans hrest⟩
  split_ifs with hline
  · -- the rest goes over several lines, so this is no comparison, and no path either
    have hnone : comparison? (Chars.trim raw) = none := by
      rw [Option.eq_none_iff_forall_ne_some]
      rintro ⟨left', operator', right⟩ hparts
      have hcompares := compares_of_comparison? hparts
      obtain ⟨-, -, hright⟩ := hunique hcompares
      exact hcompares.oneLine (Chars.mem_of_mem_trim (hright ▸ hline))
    have hsign : (Chars.trim raw).any isOperatorChar = true :=
      List.any_eq_true.2 ⟨_, hbegins.mem_sign, rfl⟩
    simp only [Expression.parseChars, hsome, hnone, hsign, Bool.or_true, Bool.false_eq_true,
      if_false, if_true]
  · have hcompares : Compares (Chars.trim raw) left operator (Chars.trim rest) :=
      ⟨hne, hline, gap, [], hgap, nofun, by rwa [List.append_nil]⟩
    obtain ⟨⟨left', operator', right⟩, hparts⟩ := hcompares.exists_comparison?
    obtain ⟨rfl, rfl, hright⟩ := hunique (compares_of_comparison? hparts)
    have hliteral : Literal.parseChars right = Literal.parseChars rest := by
      rw [← Literal.parseChars_trim, hright, Literal.parseChars_trim]
    simp only [Expression.parseChars, hsome, hparts, hliteral, Bool.false_eq_true, if_false]

/-- **What is read as an expression**: a comparison, or a path. -/
theorem parseChars_cases {expression : Expression} (h : parseChars raw = .ok expression) :
    (∃ left operator right path literal, Compares (Chars.trim raw) left operator right ∧
      FieldPath.parseChars left = .ok path ∧ Literal.parseChars right = .ok literal ∧
      expression = operator.compare path literal) ∨
    ∃ path, FieldPath.parseChars (Chars.trim raw) = .ok path ∧ expression = .field path := by
  simp only [parseChars] at h
  split at h
  · cases h
  · split at h
    · rename_i left operator right hparts
      obtain ⟨path, hpath, h⟩ := exists_of_bind_eq_ok h
      obtain ⟨literal, hliteral, h⟩ := exists_of_bind_eq_ok h
      exact .inl ⟨left, operator, right, path, literal, compares_of_comparison? hparts, hpath,
        hliteral, (Except.ok.inj h).symm⟩
    · split at h
      · cases h
      · obtain ⟨path, hpath, h⟩ := exists_of_bind_eq_ok h
        exact .inr ⟨path, hpath, (Except.ok.inj h).symm⟩

theorem compare_inj {path path' : FieldPath} {literal literal' : Literal}
    (h : operator.compare path literal = operator'.compare path' literal') :
    operator = operator' ∧ path = path' ∧ literal = literal' := by
  cases operator <;> cases operator' <;> cases h <;> exact ⟨rfl, rfl, rfl⟩

/-! ### Expressions as they are written -/

theorem trim_around (before after : Gap) (s : String) :
    Chars.trim (before.text ++ s ++ after.text).toList = Chars.trim s.toList := by
  rw [String.toList_append, String.toList_append, List.append_assoc,
    Chars.trim_append_of_blank before.isBlank after.isBlank]

theorem isOperatorChar_eq_false_of_isPathChar {c : Char} (h : FieldPath.isPathChar c = true) :
    isOperatorChar c = false :=
  Literal.isOperatorChar_eq_false (by decide) h

theorem endsOperand_eq_false_of_isPathChar {c : Char} (h : FieldPath.isPathChar c = true) :
    endsOperand c = false := by
  have hsign := isOperatorChar_eq_false_of_isPathChar h
  rw [endsOperand, FieldPath.isBlank_eq_false_of_isPathChar h, Bool.false_or,
    Bool.or_eq_false_iff, beq_eq_false_iff_ne, beq_eq_false_iff_ne]
  constructor <;> rintro rfl <;> cases hsign

/-- A path and an operator begin a comparison. -/
theorem begins_of_writes {left : String} {path : FieldPath} (h : FieldPath.Writes left path)
    (before gap : Gap) (operator : Operator) (rest : String) :
    Begins (before.text ++ left ++ gap.text ++ operator.text ++ rest).toList left.toList operator
      rest.toList := by
  refine ⟨h.ne_nil, fun c hc => endsOperand_eq_false_of_isPathChar (h.isPathChar c hc),
    before.text.toList, gap.text.toList, before.isBlank, gap.isBlank, ?_⟩
  simp only [String.toList_append, List.append_assoc]

/-- A path alone is read as the value at that path. -/
theorem parse_of_writes {left : String} {path : FieldPath} (h : FieldPath.Writes left path)
    (before after : Gap) : parse (before.text ++ left ++ after.text) = .ok (.field path) := by
  have htrim := (trim_around before after left).trans h.trim
  have hsome : left.toList.isEmpty = false := List.isEmpty_eq_false_iff.2 h.ne_nil
  have hnone : comparison? left.toList = none := by
    rw [Option.eq_none_iff_forall_ne_some]
    rintro ⟨left', operator, right⟩ hparts
    obtain ⟨rest, hbegins, -⟩ := (compares_of_comparison? hparts).exists_begins
    exact absurd (h.isPathChar _ hbegins.mem_sign) (by decide)
  have hblank : left.toList.any Text.isBlank = false := List.any_eq_false.2 fun c hc =>
    Bool.not_eq_true _ ▸ FieldPath.isBlank_eq_false_of_isPathChar (h.isPathChar c hc)
  have hsign : left.toList.any isOperatorChar = false := List.any_eq_false.2 fun c hc =>
    Bool.not_eq_true _ ▸ isOperatorChar_eq_false_of_isPathChar (h.isPathChar c hc)
  simp only [parse, parseChars, htrim, hsome, hnone, hblank, hsign, Bool.or_false,
    Bool.false_eq_true, if_false, h.parseChars]
  rfl

/-- **What is written is read.** A path alone is read as the value at that path, and a path, an
operator and a literal as the comparison of the one with the other, with blanks around the parts
or not. This holds for every text between quotation marks, whatever operators, quotation marks,
brackets and blanks it has. -/
theorem parse_spelling (before gap gap' after : Gap) (path : FieldPath.Spelling)
    (operator : Operator) (literal : Literal.Spelling) :
    parse (before.text ++ path.text ++ after.text) = .ok (.field path.path) ∧
    parse (before.text ++ path.text ++ gap.text ++ operator.text ++
        (gap'.text ++ literal.text ++ after.text)) =
      .ok (operator.compare path.path literal.literal) := by
  have hwrites : FieldPath.Writes path.text path.path := .inr ⟨path, rfl, rfl⟩
  refine ⟨parse_of_writes hwrites before after, ?_⟩
  have htrim := (trim_around gap' after literal.text).trans literal.trim_text
  have hliteral : Literal.parseChars (gap'.text ++ literal.text ++ after.text).toList =
      .ok literal.literal := by
    rw [← Literal.parseChars_trim, htrim, Literal.Spelling.parseChars_spelling]
  rw [parse, (begins_of_writes hwrites before gap operator _).parseChars
      (by rw [htrim]; exact literal.ne_nil_text),
    if_neg (by rw [htrim]; exact literal.newline_notMem_text), hwrites.parseChars, hliteral]
  rfl

end Syndication.Expression
