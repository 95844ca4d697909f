import Mathlib.Tactic.SplitIfs
import Syndication.Expression.Spelling
import Syndication.Proofs.Decimal.Numerals

/-!
# Reading literals

A text in quotation marks is told from its first and its last character, any other literal from
the whole of it. What is written for a literal is therefore read as that literal, whatever stands
between the marks.

Main statements:

* `parseChars_cases`: what is read as a literal.
* `parseChars_eq_string_iff`: what is read as a text.
* `parseChars_spelling`: what is written for a literal is read as it.
-/

namespace Syndication.Literal

open Expression (isOperatorChar)

variable {raw cs inner : List Char} {c quote : Char} {literal : Literal} {s : String}
  {mark : QuotationMark}

/-- Blanks around a literal make no difference. -/
theorem parseChars_trim (raw : List Char) : parseChars (Chars.trim raw) = parseChars raw := by
  simp only [parseChars, Chars.trim_trim]

/-! ### What is read as a literal -/

theorem unquote?_eq_some_iff :
    unquote? quote cs = some inner ↔ cs = quote :: (inner ++ [quote]) := by
  cases cs with
  | nil => simp [unquote?]
  | cons first rest =>
    rw [unquote?, Option.ite_none_right_eq_some]
    constructor
    · rintro ⟨⟨rfl, hlast⟩, hinner⟩
      obtain ⟨rest, rfl⟩ := List.getLast?_eq_some_iff.1 hlast
      rw [List.dropLast_concat] at hinner
      rw [Option.some.inj hinner]
    · intro h
      obtain ⟨rfl, rfl⟩ := List.cons.inj h
      simp

theorem toList_quote (mark : QuotationMark) (s : String) :
    (mark.quote s).toList = mark.char :: (s.toList ++ [mark.char]) :=
  String.toList_ofList

theorem eq_quote_of_unquote? (h : unquote? mark.char cs = some inner) :
    cs = (mark.quote (String.ofList inner)).toList := by
  rw [toList_quote, String.toList_ofList, unquote?_eq_some_iff.1 h]

/-- A character is no sign of an operator when it is of a kind that none of these is of. -/
theorem isOperatorChar_eq_false {p : Char → Bool}
    (hsigns : ['=', '!', '<', '>', '&', '|', '(', ')'].all (!p ·) = true) (h : p c = true) :
    isOperatorChar c = false := by
  rw [← Bool.not_eq_true, isOperatorChar, List.contains_iff_mem]
  intro hc
  have hsign := List.all_eq_true.1 hsigns c hc
  rw [h] at hsign
  cases hsign

theorem isOperatorChar_eq_false_of_word {word : String} (h : String.ofList cs = word)
    (hword : word.toList.all (!isOperatorChar ·) = true) : ∀ c ∈ cs, isOperatorChar c = false := by
  subst h
  rw [String.toList_ofList] at hword
  simpa using hword

theorem isOperatorChar_eq_false_of_isNumeralChar (h : Decimal.isNumeralChar c = true) :
    isOperatorChar c = false :=
  isOperatorChar_eq_false (by decide) h

/-- **What is read as a literal** is a text in quotation marks, which is read as what stands between
them, or it has no sign of an operator. -/
theorem parseChars_cases (h : parseChars raw = .ok literal) :
    (∃ (s : String) (mark : QuotationMark), literal = .string s ∧
      Chars.trim raw = (mark.quote s).toList) ∨
    (∀ s, literal ≠ .string s) ∧ ∀ c ∈ Chars.trim raw, isOperatorChar c = false := by
  simp only [parseChars] at h
  split_ifs at h with hnull hundefined htrue hfalse
  · obtain rfl := Except.ok.inj h
    exact .inr ⟨nofun, isOperatorChar_eq_false_of_word hnull (by decide)⟩
  · obtain rfl := Except.ok.inj h
    exact .inr ⟨nofun, isOperatorChar_eq_false_of_word hundefined (by decide)⟩
  · obtain rfl := Except.ok.inj h
    exact .inr ⟨nofun, isOperatorChar_eq_false_of_word htrue (by decide)⟩
  · obtain rfl := Except.ok.inj h
    exact .inr ⟨nofun, isOperatorChar_eq_false_of_word hfalse (by decide)⟩
  · split at h
    · rename_i inner hinner
      obtain rfl := Except.ok.inj h
      exact .inl ⟨_, .double, rfl, eq_quote_of_unquote? hinner⟩
    · split at h
      · rename_i inner hinner
        obtain rfl := Except.ok.inj h
        exact .inl ⟨_, .single, rfl, eq_quote_of_unquote? hinner⟩
      · split at h
        · rename_i i hi
          obtain rfl := Except.ok.inj h
          exact .inr ⟨nofun, fun c hc => isOperatorChar_eq_false_of_isNumeralChar
            (Decimal.isNumeralChar_of_int64? hi c hc)⟩
        · split at h
          · rename_i x hx
            obtain rfl := Except.ok.inj h
            exact .inr ⟨nofun, fun c hc => isOperatorChar_eq_false_of_isNumeralChar
              (Decimal.isNumeralChar_of_binary64? hx c hc)⟩
          · cases h

/-- How a text is read that is no word: its first character tells. -/
theorem parseChars_of_head (hhead : ∀ word ∈ ["null", "undefined", "true", "false"],
      word.toList.head? ≠ (Chars.trim raw).head?) :
    parseChars raw =
      match (unquote? '"' (Chars.trim raw)).or (unquote? '\'' (Chars.trim raw)) with
      | some inner => .ok (.string (String.ofList inner))
      | none =>
        match Decimal.int64? (Chars.trim raw), Decimal.binary64? (Chars.trim raw) with
        | some i, _ => .ok (.integer i)
        | none, some x => .ok (.double x)
        | none, none => .error (.invalidLiteral (String.ofList (Chars.trim raw))) := by
  have hne : ∀ word ∈ ["null", "undefined", "true", "false"],
      String.ofList (Chars.trim raw) ≠ word := by
    rintro word hword rfl
    exact hhead _ hword (by rw [String.toList_ofList])
  simp only [List.forall_mem_cons] at hne
  simp only [parseChars, if_neg hne.1, if_neg hne.2.1, if_neg hne.2.2.1, if_neg hne.2.2.2.1]
  cases unquote? '"' (Chars.trim raw) <;> cases unquote? '\'' (Chars.trim raw) <;>
    cases Decimal.int64? (Chars.trim raw) <;> cases Decimal.binary64? (Chars.trim raw) <;> rfl

theorem parseChars_of_quote (h : Chars.trim raw = (mark.quote s).toList) :
    parseChars raw = .ok (.string s) := by
  have hhead : ∀ word ∈ ["null", "undefined", "true", "false"],
      word.toList.head? ≠ (Chars.trim raw).head? := by
    rw [h, toList_quote, List.head?_cons]
    cases mark <;> decide
  have hinner : unquote? mark.char (Chars.trim raw) = some s.toList :=
    unquote?_eq_some_iff.2 (by rw [h, toList_quote])
  have hor : (unquote? '"' (Chars.trim raw)).or (unquote? '\'' (Chars.trim raw)) =
      some s.toList := by
    cases mark with
    | double => exact congrArg (Option.or · _) hinner
    | single =>
      have hnone : unquote? '"' (Chars.trim raw) = none := by
        rw [h, toList_quote]
        rfl
      rw [hnone]
      exact hinner
  rw [parseChars_of_head hhead, hor]
  exact congrArg (Except.ok ∘ Literal.string) String.ofList_toList

theorem eq_of_char {mark' : QuotationMark} (h : mark.char = mark'.char) : mark = mark' := by
  cases mark <;> cases mark' <;> first | rfl | exact absurd h (by decide)

/-- Two different quotation marks make no literal. -/
theorem parseChars_of_ne_mark {mark' : QuotationMark}
    (h : Chars.trim raw = mark.char :: (cs ++ [mark'.char])) (hne : mark ≠ mark') :
    parseChars raw = .error (.invalidLiteral (String.ofList (Chars.trim raw))) := by
  have hhead : ∀ word ∈ ["null", "undefined", "true", "false"],
      word.toList.head? ≠ (Chars.trim raw).head? := by
    rw [h, List.head?_cons]
    cases mark <;> decide
  have hunquote : ∀ quote, unquote? quote (Chars.trim raw) = none := by
    intro quote
    rw [Option.eq_none_iff_forall_ne_some]
    intro inner hinner
    obtain ⟨hfirst, hrest⟩ := List.cons.inj (h.symm.trans (unquote?_eq_some_iff.1 hinner))
    have hlast : mark'.char = quote := by
      have hlasts := congrArg List.getLast? hrest
      simpa using hlasts
    exact hne (eq_of_char (hfirst.trans hlast.symm))
  have hnumeral : ¬ ∀ c ∈ Chars.trim raw, Decimal.isNumeralChar c = true := by
    rw [h, List.forall_mem_cons]
    cases mark <;> exact fun hall => absurd hall.1 (by decide)
  have hinteger : Decimal.int64? (Chars.trim raw) = none :=
    Option.eq_none_iff_forall_ne_some.2 fun _ hi => hnumeral (Decimal.isNumeralChar_of_int64? hi)
  have hdouble : Decimal.binary64? (Chars.trim raw) = none :=
    Option.eq_none_iff_forall_ne_some.2 fun _ hx => hnumeral (Decimal.isNumeralChar_of_binary64? hx)
  rw [parseChars_of_head hhead, hunquote, hunquote, hinteger, hdouble]
  rfl

/-- **What is read as a text** is that text in quotation marks. -/
theorem parseChars_eq_string_iff :
    parseChars raw = .ok (.string s) ↔
      ∃ mark : QuotationMark, Chars.trim raw = (mark.quote s).toList := by
  refine ⟨fun h => ?_, fun ⟨mark, h⟩ => parseChars_of_quote h⟩
  rcases parseChars_cases h with ⟨s', mark, hs, htrim⟩ | ⟨hother, -⟩
  · exact ⟨mark, by rw [Literal.string.inj hs, htrim]⟩
  · exact absurd rfl (hother s)

/-! ### Reading what is written -/

theorem isBlank_eq_false_of_isNumeralChar (h : Decimal.isNumeralChar c = true) :
    Text.isBlank c = false := by
  rw [Decimal.isNumeralChar, Bool.or_eq_true, List.contains_iff_mem] at h
  rcases h with h | h
  · exact Text.isBlank_eq_false_of_isAlphanum (by simp [Char.isAlphanum, h])
  · have hsigns : ['+', '-', '.', 'e', 'E'].all (!Text.isBlank ·) = true := by decide
    simpa using List.all_eq_true.1 hsigns c h

/-- How a text is read that is made of the characters of a number: it is no word and nothing in
quotation marks. -/
theorem parseChars_of_isNumeralChar (hne : raw ≠ [])
    (hchars : ∀ c ∈ raw, Decimal.isNumeralChar c = true) :
    parseChars raw =
      match Decimal.int64? raw, Decimal.binary64? raw with
      | some i, _ => .ok (.integer i)
      | none, some x => .ok (.double x)
      | none, none => .error (.invalidLiteral (String.ofList raw)) := by
  have htrim : Chars.trim raw = raw :=
    Chars.trim_of_forall fun c hc => isBlank_eq_false_of_isNumeralChar (hchars c hc)
  obtain ⟨c, cs, rfl⟩ := List.exists_cons_of_ne_nil hne
  have hfirst : ∀ d, Decimal.isNumeralChar d = false → c ≠ d := by
    rintro d hd rfl
    rw [hchars c List.mem_cons_self] at hd
    cases hd
  have hunquote : ∀ d, Decimal.isNumeralChar d = false → unquote? d (c :: cs) = none :=
    fun d hd => if_neg fun h => hfirst d hd h.1
  rw [parseChars_of_head, htrim, hunquote '"' (by decide), hunquote '\'' (by decide)]
  · rfl
  · rw [htrim]
    simp only [List.forall_mem_cons, List.head?_cons, ne_eq]
    refine ⟨?_, ?_, ?_, ?_, nofun⟩ <;>
      exact fun h => hfirst _ (by decide) (Option.some.inj h).symm

namespace Spelling

theorem isNumeralChar_of_integer (value : Int64) :
    ∀ c ∈ (toString value.toInt).toList, Decimal.isNumeralChar c = true :=
  Decimal.isNumeralChar_of_int64? (Decimal.int64?_toString value)

/-- What is written for a literal does not begin or end with blanks. -/
theorem trim_text (l : Spelling) : Chars.trim l.text.toList = l.text.toList := by
  cases l with
  | null | undefined => decide
  | bool value => cases value <;> decide
  | integer value =>
    exact Chars.trim_of_forall fun c hc =>
      isBlank_eq_false_of_isNumeralChar (isNumeralChar_of_integer value c hc)
  | quoted mark s oneLine =>
    have hmark : Text.isBlank mark.char = false := by cases mark <;> decide
    rw [Chars.trim_eq_self_iff, text, toList_quote, ← List.cons_append, List.getLast?_append]
    simpa using hmark

theorem ne_nil_text (l : Spelling) : l.text.toList ≠ [] := by
  cases l with
  | null | undefined => decide
  | bool value => cases value <;> decide
  | integer value =>
    intro h
    have hint := Decimal.int64?_toString value
    rw [show (toString value.toInt).toList = [] from h] at hint
    cases hint
  | quoted mark s oneLine => simp [text, toList_quote]

theorem newline_notMem_text (l : Spelling) : '\n' ∉ l.text.toList := by
  cases l with
  | null | undefined => decide
  | bool value => cases value <;> decide
  | integer value => exact fun h => absurd (isNumeralChar_of_integer value _ h) (by decide)
  | quoted mark s oneLine =>
    have hmark : '\n' ≠ mark.char := by cases mark <;> decide
    simp [text, toList_quote, hmark, oneLine]

theorem parseChars_integer (value : Int64) :
    parseChars (integer value).text.toList = .ok (.integer value.toInt) := by
  have hinteger : Decimal.int64? (integer value).text.toList = some value.toInt :=
    Decimal.int64?_toString value
  rw [parseChars_of_isNumeralChar (ne_nil_text (integer value)) (isNumeralChar_of_integer value),
    hinteger]

/-- **What is written for a literal is read as it.** -/
theorem parseChars_spelling (l : Spelling) : parseChars l.text.toList = .ok l.literal := by
  cases l with
  | null | undefined => rfl
  | bool value => cases value <;> rfl
  | integer value => exact parseChars_integer value
  | quoted mark s oneLine => exact parseChars_of_quote (trim_text (.quoted mark s oneLine))

end Spelling

end Syndication.Literal
