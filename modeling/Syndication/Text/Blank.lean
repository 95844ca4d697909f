/-!
# Blank characters and trimming

A character is blank when Unicode gives it the property `White_Space`: the ASCII
blanks, the next-line control, the no-break space and the spaces and separators
of the general punctuation block. Everything that trims text, tells a blank text
from one with content, or skips blanks between tokens, uses this one class.

Main statements:

* `isBlank_of_isWhitespace`: every ASCII white space character is blank.
* `trimStart_eq_self_iff`, `trimEnd_eq_self_iff`, `trim_eq_self_iff`: a text is
  left alone exactly when it does not begin (end) with a blank.
* `exists_append_trim`: nothing but blanks is lost.
-/

namespace Syndication

namespace Text

/-- Whether a character has the property `White_Space`. -/
def isBlank (c : Char) : Bool :=
  let n := c.toNat
  (9 ≤ n && n ≤ 13) || n == 0x20 || n == 0x85 || n == 0xA0 || n == 0x1680 ||
    (0x2000 ≤ n && n ≤ 0x200A) || n == 0x2028 || n == 0x2029 || n == 0x202F ||
    n == 0x205F || n == 0x3000

/-- The ASCII white space characters are blank. -/
theorem isBlank_of_isWhitespace {c : Char} (h : c.isWhitespace = true) : isBlank c = true := by
  simp only [Char.isWhitespace, Bool.or_eq_true, decide_eq_true_eq] at h
  rcases h with ((h | h) | h) | h <;> subst h <;> decide

/-- The ASCII characters that print are not blank. -/
theorem isBlank_eq_false_of_printing {c : Char} (hleast : 0x20 < c.toNat)
    (hgreatest : c.toNat < 0x7F) : isBlank c = false := by
  simp only [isBlank, Bool.or_eq_false_iff, Bool.and_eq_false_iff, decide_eq_false_iff_not,
    beq_eq_false_iff_ne]
  omega

/-- The ASCII letters and digits are not blank. -/
theorem isBlank_eq_false_of_isAlphanum {c : Char} (h : c.isAlphanum = true) :
    isBlank c = false := by
  have hrange : 0x30 ≤ c.toNat ∧ c.toNat ≤ 0x7A := by
    have hval : c.toNat = c.val.toNat := rfl
    delta Char.isAlphanum Char.isAlpha Char.isUpper Char.isLower Char.isDigit at h
    simp [UInt32.le_iff_toNat_le] at h
    omega
  exact isBlank_eq_false_of_printing (by omega) (by omega)

end Text

namespace Chars

open Text (isBlank)

/-- The text without the blanks it begins with. -/
def trimStart (cs : List Char) : List Char :=
  cs.dropWhile isBlank

/-- The text without the blanks it ends with. -/
def trimEnd (cs : List Char) : List Char :=
  (cs.reverse.dropWhile isBlank).reverse

/-- The text without the blanks at either end. -/
def trim (cs : List Char) : List Char :=
  trimEnd (trimStart cs)

@[simp] theorem trimStart_nil : trimStart [] = [] := rfl

@[simp] theorem trimEnd_nil : trimEnd [] = [] := rfl

/-- A text is left alone exactly when it does not begin with a blank. -/
theorem trimStart_eq_self_iff {cs : List Char} :
    trimStart cs = cs ↔ ∀ c ∈ cs.head?, isBlank c = false := by
  cases cs with
  | nil => simp
  | cons c cs =>
    by_cases h : isBlank c = true
    · simp only [trimStart, List.dropWhile_cons_of_pos h, List.head?_cons, Option.mem_def,
        Option.some.injEq, forall_eq', h]
      constructor
      · intro heq
        have hle := (List.dropWhile_sublist isBlank (l := cs)).length_le
        rw [heq] at hle
        simp only [List.length_cons] at hle
        omega
      · simp
    · simp [trimStart, List.dropWhile_cons_of_neg h, h]

/-- A text is left alone exactly when it does not end with a blank. -/
theorem trimEnd_eq_self_iff {cs : List Char} :
    trimEnd cs = cs ↔ ∀ c ∈ cs.getLast?, isBlank c = false := by
  have h : trimEnd cs = cs ↔ trimStart cs.reverse = cs.reverse := by
    simp only [trimEnd, trimStart]
    constructor
    · intro h
      rw [← List.reverse_reverse (cs.reverse.dropWhile isBlank), h]
    · intro h
      rw [h, List.reverse_reverse]
  rw [h, trimStart_eq_self_iff, List.head?_reverse]

theorem trimStart_append_of_blank {blanks : List Char} (h : ∀ c ∈ blanks, isBlank c = true)
    (cs : List Char) : trimStart (blanks ++ cs) = trimStart cs :=
  List.dropWhile_append_of_pos h

theorem trimEnd_append_of_blank {blanks : List Char} (h : ∀ c ∈ blanks, isBlank c = true)
    (cs : List Char) : trimEnd (cs ++ blanks) = trimEnd cs := by
  rw [trimEnd, List.reverse_append, List.dropWhile_append_of_pos (by simpa using h), trimEnd]

/-- Blanks at the ends make no difference to what is left of a text. -/
theorem trim_append_of_blank {before after : List Char} (hbefore : ∀ c ∈ before, isBlank c = true)
    (hafter : ∀ c ∈ after, isBlank c = true) (cs : List Char) :
    trim (before ++ (cs ++ after)) = trim cs := by
  rw [trim, trimStart_append_of_blank hbefore, trim, trimStart, List.dropWhile_append]
  split
  · rename_i hblank
    have hnothing := trimStart_append_of_blank hafter []
    rw [List.append_nil] at hnothing
    rw [trimStart, List.isEmpty_iff.1 hblank, ← trimStart, hnothing, trimStart_nil]
  · exact trimEnd_append_of_blank hafter _

/-- A text is what is left of it when it is trimmed, with blanks around it. -/
theorem exists_append_trim (cs : List Char) :
    ∃ before after, (∀ c ∈ before, isBlank c = true) ∧ (∀ c ∈ after, isBlank c = true) ∧
      cs = before ++ (trim cs ++ after) := by
  refine ⟨cs.takeWhile isBlank, ((trimStart cs).reverse.takeWhile isBlank).reverse,
    List.all_eq_true.1 List.all_takeWhile, fun c hc => ?_, ?_⟩
  · exact List.all_eq_true.1 List.all_takeWhile c (List.mem_reverse.1 hc)
  · rw [trim, trimEnd, ← List.reverse_append, List.takeWhile_append_dropWhile,
      List.reverse_reverse, trimStart, List.takeWhile_append_dropWhile]

theorem mem_of_mem_trim {c : Char} {cs : List Char} (h : c ∈ trim cs) : c ∈ cs := by
  obtain ⟨before, after, -, -, hcs⟩ := exists_append_trim cs
  rw [hcs]
  exact List.mem_append_right _ (List.mem_append_left _ h)

@[simp] theorem trim_trim (cs : List Char) : trim (trim cs) = trim cs := by
  obtain ⟨before, after, hbefore, hafter, hcs⟩ := exists_append_trim cs
  have htrim := trim_append_of_blank hbefore hafter (trim cs)
  rw [← hcs] at htrim
  exact htrim.symm

/-- A text is left alone exactly when it neither begins nor ends with a blank. -/
theorem trim_eq_self_iff {cs : List Char} :
    trim cs = cs ↔ (∀ c ∈ cs.head?, isBlank c = false) ∧ ∀ c ∈ cs.getLast?, isBlank c = false := by
  rw [← trimStart_eq_self_iff, ← trimEnd_eq_self_iff]
  refine ⟨fun h => ?_, fun h => by rw [trim, h.1, h.2]⟩
  have hle : (trim cs).length ≤ (trimStart cs).length := by
    have hdrop := (List.dropWhile_sublist isBlank (l := (trimStart cs).reverse)).length_le
    rwa [List.length_reverse, ← List.length_reverse] at hdrop
  have hstart : trimStart cs = cs :=
    (List.dropWhile_suffix isBlank).eq_of_length_le (by rwa [h] at hle)
  exact ⟨hstart, by rwa [trim, hstart] at h⟩

/-- A text without blanks is left alone. -/
theorem trim_of_forall {cs : List Char} (h : ∀ c ∈ cs, isBlank c = false) : trim cs = cs :=
  trim_eq_self_iff.2 ⟨fun c hc => h c (List.mem_of_mem_head? hc),
    fun c hc => h c (List.mem_of_mem_getLast? hc)⟩

/-- What is left of a text does not end with blanks. -/
theorem eq_nil_of_trim_append {cs blanks : List Char} (h : trim (cs ++ blanks) = cs ++ blanks)
    (hblanks : ∀ c ∈ blanks, isBlank c = true) : blanks = [] := by
  by_cases hne : blanks = []
  · exact hne
  · have hlast := (trim_eq_self_iff.1 h).2 (blanks.getLast hne)
      (by rw [List.getLast?_append, List.getLast?_eq_some_getLast hne]; rfl)
    rw [hblanks _ (List.getLast_mem hne)] at hlast
    cases hlast

/-- A character that is not blank is left. -/
theorem mem_trim {c : Char} {cs : List Char} (h : c ∈ cs) (hc : isBlank c = false) :
    c ∈ trim cs := by
  obtain ⟨before, after, hbefore, hafter, hcs⟩ := exists_append_trim cs
  have hother : ∀ blanks : List Char, (∀ d ∈ blanks, isBlank d = true) → c ∉ blanks := by
    intro blanks hblanks hmem
    rw [hblanks c hmem] at hc
    cases hc
  rw [hcs, List.mem_append, List.mem_append] at h
  exact (h.resolve_left (hother before hbefore)).resolve_right (hother after hafter)

end Chars

namespace Text

/-- The text without the blanks at either end. -/
def trim (s : String) : String :=
  String.ofList (Chars.trim s.toList)

/-- The text without the blanks it begins with. -/
def trimStart (s : String) : String :=
  String.ofList (Chars.trimStart s.toList)

/-- The text without the blanks it ends with. -/
def trimEnd (s : String) : String :=
  String.ofList (Chars.trimEnd s.toList)

@[simp] theorem toList_trim (s : String) : (trim s).toList = Chars.trim s.toList := by
  simp [trim]

/-- Whether a text holds nothing but blanks. -/
def isBlankText (s : String) : Bool :=
  s.toList.all isBlank

/-- A text holds nothing but blanks when nothing is left of it. -/
theorem isBlankText_iff {s : String} : isBlankText s = true ↔ trim s = "" := by
  unfold trim isBlankText
  rw [List.all_eq_true, String.ofList_eq_empty_iff]
  constructor
  · intro hblank
    have hnothing : Chars.trim (s.toList ++ ([] ++ [])) = Chars.trim [] :=
      Chars.trim_append_of_blank hblank (List.forall_mem_nil _) []
    rwa [List.append_nil, List.append_nil] at hnothing
  · intro htrim c hc
    cases hother : isBlank c with
    | true => rfl
    | false =>
      have hmem : c ∈ Chars.trim s.toList := Chars.mem_trim hc hother
      rw [htrim] at hmem
      exact absurd hmem List.not_mem_nil

end Text

end Syndication
