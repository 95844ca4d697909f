/-!
# Looking for a text inside a text

Prefixes, occurrences, replacement of every occurrence, and cutting at a
character. Occurrences are found from the left and do not overlap.

Main statements:

* `contains_iff`: an occurrence splits the text around it.
* `replaceAll_of_not_contains`: a text without an occurrence is left alone.
* `intercalate_splitOn`: the pieces of a text cut at a character, put together
  with that character between them, are the text.
* `splitWhere_append`, `eq_false_of_mem_splitWhere`: a text is cut at each such
  character, and no piece holds one.
-/

namespace Syndication.Chars

/-- The rest of a text after a given beginning, if it begins so. -/
def stripPrefix? : List Char → List Char → Option (List Char)
  | [], cs => some cs
  | _ :: _, [] => none
  | p :: ps, c :: cs => if p = c then stripPrefix? ps cs else none

@[simp] theorem stripPrefix?_append (ps cs : List Char) : stripPrefix? ps (ps ++ cs) = some cs := by
  induction ps with
  | nil => rfl
  | cons p ps ih => simp [stripPrefix?, ih]

/-- What is stripped is a beginning of the text. -/
theorem stripPrefix?_eq_some_iff {ps cs rest : List Char} :
    stripPrefix? ps cs = some rest ↔ cs = ps ++ rest := by
  constructor
  · intro h
    induction ps generalizing cs with
    | nil => simpa [stripPrefix?] using h
    | cons p ps ih =>
      cases cs with
      | nil => simp [stripPrefix?] at h
      | cons c cs =>
        by_cases hpc : p = c
        · simp only [stripPrefix?, hpc, if_true] at h
          simp [hpc, ih h]
        · simp [stripPrefix?, hpc] at h
  · rintro rfl
    simp

/-- Whether a text begins with another. -/
def startsWith (beginning cs : List Char) : Bool :=
  (stripPrefix? beginning cs).isSome

/-- Whether a text ends with another. -/
def endsWith (ending cs : List Char) : Bool :=
  startsWith ending.reverse cs.reverse

/-- Whether a text occurs in another. -/
def contains (needle : List Char) : List Char → Bool
  | [] => needle.isEmpty
  | c :: cs => startsWith needle (c :: cs) || contains needle cs

/-- An occurrence splits the text around it. -/
theorem contains_iff {needle cs : List Char} :
    contains needle cs = true ↔ ∃ before after, cs = before ++ needle ++ after := by
  induction cs with
  | nil =>
    simp only [contains, List.isEmpty_iff]
    constructor
    · rintro rfl
      exact ⟨[], [], rfl⟩
    · rintro ⟨before, after, h⟩
      have h' := congrArg List.length h
      simp only [List.length_nil, List.length_append] at h'
      exact List.length_eq_zero_iff.1 (by omega)
  | cons c cs ih =>
    simp only [contains, Bool.or_eq_true, ih, startsWith, Option.isSome_iff_exists,
      stripPrefix?_eq_some_iff]
    constructor
    · rintro (⟨after, h⟩ | ⟨before, after, h⟩)
      · exact ⟨[], after, by simpa using h⟩
      · exact ⟨c :: before, after, by simp [h]⟩
    · rintro ⟨before, after, h⟩
      cases before with
      | nil => exact Or.inl ⟨after, by simpa using h⟩
      | cons b before =>
        simp only [List.cons_append, List.cons.injEq] at h
        exact Or.inr ⟨before, after, h.2⟩

/-- Replacement with `skip` characters of the current occurrence still to pass. -/
def replaceFrom (old new : List Char) : Nat → List Char → List Char
  | _, [] => []
  | skip + 1, _ :: cs => replaceFrom old new skip cs
  | 0, c :: cs =>
    if startsWith old (c :: cs) then new ++ replaceFrom old new (old.length - 1) cs
    else c :: replaceFrom old new 0 cs

/-- The text with every occurrence of `old`, which is not empty, replaced. -/
def replaceAll (old new cs : List Char) : List Char :=
  replaceFrom old new 0 cs

/-- A text without an occurrence is left alone. -/
theorem replaceAll_of_not_contains {old new cs : List Char} (h : contains old cs = false) :
    replaceAll old new cs = cs := by
  unfold replaceAll
  induction cs with
  | nil => rfl
  | cons c cs ih =>
    simp only [contains, Bool.or_eq_false_iff] at h
    simp [replaceFrom, h.1, ih h.2]

/-- The pieces of a text between the characters that satisfy a test. There is
always one. -/
def splitWhere (test : Char → Bool) : List Char → List (List Char)
  | [] => [[]]
  | c :: cs =>
    if test c then [] :: splitWhere test cs
    else match splitWhere test cs with
      | [] => [[c]]
      | piece :: rest => (c :: piece) :: rest

/-- The pieces of a text between the occurrences of a character. -/
def splitOn (separator : Char) (cs : List Char) : List (List Char) :=
  splitWhere (· == separator) cs

theorem splitWhere_ne_nil (test : Char → Bool) (cs : List Char) : splitWhere test cs ≠ [] := by
  cases cs with
  | nil => simp [splitWhere]
  | cons c cs =>
    unfold splitWhere
    split
    · simp
    · split <;> simp

/-- No piece holds a character at which the text is cut. -/
theorem eq_false_of_mem_splitWhere {test : Char → Bool} {cs piece : List Char}
    (h : piece ∈ splitWhere test cs) : ∀ c ∈ piece, test c = false := by
  induction cs generalizing piece with
  | nil =>
    rw [splitWhere, List.mem_singleton] at h
    simp [h]
  | cons c cs ih =>
    unfold splitWhere at h
    split at h
    · rcases List.mem_cons.1 h with rfl | h
      · simp
      · exact ih h
    · rename_i hc
      split at h
      · rw [List.mem_singleton] at h
        simpa [h] using hc
      · rename_i first rest hs
        rcases List.mem_cons.1 h with rfl | h
        · intro d hd
          rcases List.mem_cons.1 hd with rfl | hd
          · simpa using hc
          · exact ih (hs ▸ List.mem_cons_self) d hd
        · exact ih (hs ▸ List.mem_cons_of_mem _ h)

/-- A text is cut at a character that satisfies the test, whatever stands around it. -/
theorem splitWhere_append {test : Char → Bool} {c : Char} (hc : test c = true)
    (before after : List Char) :
    splitWhere test (before ++ c :: after) = splitWhere test before ++ splitWhere test after := by
  induction before with
  | nil => simp [splitWhere, hc]
  | cons d before ih =>
    cases hd : test d with
    | true => simp [splitWhere, hd, ih]
    | false =>
      obtain ⟨piece, rest, hpieces⟩ := List.exists_cons_of_ne_nil (splitWhere_ne_nil test before)
      simp [splitWhere, hd, ih, hpieces]

/-- A text without such a character is one piece. -/
theorem splitWhere_of_forall {test : Char → Bool} {cs : List Char}
    (h : ∀ c ∈ cs, test c = false) : splitWhere test cs = [cs] := by
  induction cs with
  | nil => rfl
  | cons c cs ih =>
    obtain ⟨hc, hcs⟩ := List.forall_mem_cons.1 h
    rw [splitWhere, if_neg (by simp [hc]), ih hcs]

/-- The pieces, put together with the character between them, are the text. -/
theorem intercalate_splitOn (separator : Char) (cs : List Char) :
    [separator].intercalate (splitOn separator cs) = cs := by
  unfold splitOn
  induction cs with
  | nil => rfl
  | cons c cs ih =>
    have hne := splitWhere_ne_nil (· == separator) cs
    cases hs : splitWhere (· == separator) cs with
    | nil => exact absurd hs hne
    | cons piece rest =>
      rw [hs] at ih
      by_cases h : c = separator
      · subst h
        simp only [splitWhere, beq_self_eq_true, if_true, hs]
        rw [← ih]
        simp [List.intercalate]
      · have hb : (c == separator) = false := by simpa using h
        simp only [splitWhere, hb, hs]
        rw [← ih]
        cases rest <;> simp [List.intercalate]

/-- Texts put together with a separator between them. -/
def join (separator : List Char) (parts : List (List Char)) : List Char :=
  (parts.intersperse separator).flatten

/-- A separator stands behind every part but the last. -/
theorem join_concat (separator : List Char) (parts : List (List Char)) (last : List Char) :
    join separator (parts ++ [last]) = parts.flatMap (· ++ separator) ++ last := by
  induction parts with
  | nil => simp [join]
  | cons part parts ih =>
    obtain ⟨next, rest, hrest⟩ := List.exists_cons_of_ne_nil
      (List.append_ne_nil_of_right_ne_nil parts (List.cons_ne_nil last []))
    rw [List.flatMap_cons, List.append_assoc, ← ih, List.cons_append, hrest]
    simp [join]

/-- The part of a text before the first occurrence of a character, and the part
after it, if it occurs. -/
def splitFirst? (separator : Char) : List Char → Option (List Char × List Char)
  | [] => none
  | c :: cs =>
    if c = separator then some ([], cs)
    else (splitFirst? separator cs).map fun (before, after) => (c :: before, after)

/-- A cut at the first separator loses nothing. -/
theorem eq_of_splitFirst? {separator : Char} {cs before after : List Char}
    (h : splitFirst? separator cs = some (before, after)) :
    cs = before ++ separator :: after := by
  induction cs generalizing before with
  | nil => simp [splitFirst?] at h
  | cons c cs ih =>
    unfold splitFirst? at h
    split at h
    · rename_i hc
      simp only [Option.some.injEq, Prod.mk.injEq] at h
      simp [← h.1, ← h.2, hc]
    · obtain ⟨⟨b, a⟩, hba, he⟩ := Option.map_eq_some_iff.1 h
      simp only [Prod.mk.injEq] at he
      obtain ⟨rfl, rfl⟩ := he
      rw [ih hba]
      rfl

/-- The last of the pieces of a text between the occurrences of a character. -/
def afterLast (separator : Char) (cs : List Char) : List Char :=
  ((splitOn separator cs).getLast?).getD []

end Syndication.Chars

namespace Syndication.Text

/-- Whether a text begins with another. -/
def startsWith (beginning s : String) : Bool :=
  Chars.startsWith beginning.toList s.toList

/-- Whether a text ends with another. -/
def endsWith (ending s : String) : Bool :=
  Chars.endsWith ending.toList s.toList

/-- Whether a text occurs in another. -/
def contains (needle s : String) : Bool :=
  Chars.contains needle.toList s.toList

/-- The text with every occurrence of `old`, which is not empty, replaced. -/
def replaceAll (old new s : String) : String :=
  String.ofList (Chars.replaceAll old.toList new.toList s.toList)

/-- The text with its ASCII letters in lower case. -/
def toAsciiLower (s : String) : String :=
  String.ofList (s.toList.map Char.toLower)

/-- The text with its ASCII letters in upper case. -/
def toAsciiUpper (s : String) : String :=
  String.ofList (s.toList.map Char.toUpper)

/-- Whether two texts differ at most in the case of ASCII letters. -/
def eqIgnoringAsciiCase (s t : String) : Bool :=
  s.toList.map Char.toLower == t.toList.map Char.toLower

end Syndication.Text
