import Mathlib.Tactic.SplitIfs
import Syndication.Json.Parser
import Syndication.Json.Printer

/-!
# Texts in a JSON text

A text is written between quotation marks, its quotation marks, backslashes and control characters
as escapes. Each character is read back from what is written for it, whatever follows.

* `exists_scanText_quote`: the units of a written text are found again, and the text from them.
-/

namespace Syndication.Json

/-- **A unit that stands for a character**, whatever follows it. -/
def TextUnit.StandsFor (u : TextUnit) (c : Char) : Prop :=
  ∀ units, assemble? (u :: units) = (assemble? units).map (c :: ·)

theorem standsFor_char (c : Char) : (TextUnit.char c).StandsFor c := fun _ => rfl

/-- A code unit that is no half of a surrogate pair stands for a character of its own. -/
theorem standsFor_code {c : Char} (h : c.toNat < 0x20) : (TextUnit.code c.toNat).StandsFor c := by
  have hhigh : isHighSurrogate c.toNat = false := by
    rw [isHighSurrogate, decide_eq_false (by omega), Bool.false_and]
  have hlow : isLowSurrogate c.toNat = false := by
    rw [isLowSurrogate, decide_eq_false (by omega), Bool.false_and]
  intro units
  have hchar : Char.ofNat c.toNat = c := Char.ofNat_toNat c
  cases units with
  | nil => simp [assemble?, hhigh, hlow, hchar]
  | cons u units =>
    cases u with
    | char d => simp [assemble?, hhigh, hlow, hchar]
    | code n => simp [assemble?, hhigh, hlow, hchar]

/-- The number of a control character is written with four hexadecimal digits. -/
theorem codeUnit?_control : ∀ n < 0x20,
    codeUnit? '0' '0' (Nat.digitChar (n / 16)) (Nat.digitChar (n % 16)) = some n := by
  decide

/-- **What is written for a character is read as a unit that stands for it**, whatever follows. -/
def ReadsAs (written : List Char) (u : TextUnit) : Prop :=
  ∀ rest, scanText (written ++ rest) =
    (scanText rest).bind fun (units, rest) => some (u :: units, rest)

/-- A character that needs no escape is read as it stands. -/
theorem readsAs_char {c : Char} (hquote : c ≠ '"') (hescape : c ≠ '\\')
    (hcontrol : ¬ c.toNat < 0x20) : ReadsAs [c] (.char c) := by
  intro rest
  have hnot : ¬ (c.toNat < 0x20 ∨ c = '\\') := by
    rintro (h | h)
    · exact hcontrol h
    · exact hescape h
  rw [List.singleton_append, scanText.eq_def]
  split
  · rename_i heq
    cases heq
  · rename_i heq
    exact absurd (List.cons.inj heq).1 hquote
  · rename_i heq
    exact absurd (List.cons.inj heq).1 hescape
  · rename_i heq
    exact absurd (List.cons.inj heq).1 hescape
  · rename_i heq
    obtain ⟨rfl, rfl⟩ := List.cons.inj heq
    rw [if_neg hnot]
    rfl

theorem readsAs_escape {e c : Char} (he : e ≠ 'u') (h : scanText.escaped? e = some c) :
    ReadsAs ['\\', e] (.char c) := by
  intro rest
  simp [scanText, h, he]

theorem readsAs_code {a b : Char} {n : Nat} (h : codeUnit? '0' '0' a b = some n) :
    ReadsAs ['\\', 'u', '0', '0', a, b] (.code n) := by
  intro rest
  simp [scanText, h]

/-- A character is read back from what is written for it. -/
theorem exists_readsAs_escapeChar (c : Char) :
    ∃ u : TextUnit, u.StandsFor c ∧ ReadsAs (escapeChar c) u := by
  unfold escapeChar
  split_ifs with hquote hescape hcontrol
  · subst hquote
    exact ⟨_, standsFor_char _, readsAs_escape (by decide) rfl⟩
  · subst hescape
    exact ⟨_, standsFor_char _, readsAs_escape (by decide) rfl⟩
  · split
    · exact ⟨_, standsFor_char _, readsAs_escape (by decide) rfl⟩
    · exact ⟨_, standsFor_char _, readsAs_escape (by decide) rfl⟩
    · exact ⟨_, standsFor_char _, readsAs_escape (by decide) rfl⟩
    · split_ifs with hback hfeed
      · have hc : c = '\x08' := Char.toNat_inj.1 hback
        exact ⟨_, hc ▸ standsFor_char _, readsAs_escape (by decide) rfl⟩
      · have hc : c = '\x0C' := Char.toNat_inj.1 hfeed
        exact ⟨_, hc ▸ standsFor_char _, readsAs_escape (by decide) rfl⟩
      · exact ⟨_, standsFor_code hcontrol, readsAs_code (codeUnit?_control _ hcontrol)⟩
  · exact ⟨_, standsFor_char c, readsAs_char hquote hescape hcontrol⟩

/-- **A written text is found again**, and the text is made of its units. -/
theorem exists_scanText_quote (s : String) (rest : List Char) : ∃ units,
    scanText (s.toList.flatMap escapeChar ++ '"' :: rest) = some (units, rest) ∧
      textDocument units = .text s := by
  have hchars (cs : List Char) : ∃ units,
      scanText (cs.flatMap escapeChar ++ '"' :: rest) = some (units, rest) ∧
        assemble? units = some cs := by
    induction cs with
    | nil => exact ⟨[], by simp [scanText], rfl⟩
    | cons c cs ih =>
      obtain ⟨units, hscan, hunits⟩ := ih
      obtain ⟨u, hu, hreads⟩ := exists_readsAs_escapeChar c
      refine ⟨u :: units, ?_, by rw [hu, hunits, Option.map_some]⟩
      rw [List.flatMap_cons, List.append_assoc, hreads, hscan, Option.bind_some]
  obtain ⟨units, hscan, hunits⟩ := hchars s.toList
  refine ⟨units, hscan, ?_⟩
  rw [textDocument, hunits]
  exact congrArg Document.text String.ofList_toList

end Syndication.Json
