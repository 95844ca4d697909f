import Mathlib.Data.List.Forall2
import Syndication.Proofs.Text.Scanning

/-!
# Which way to match is found

Where a pattern may match in several ways, the search takes the first one in its order that leads
on. A long run of characters ends where its class ends, a short one at the first place from which
the rest of the pattern matches; texts leave no choice.

Main statements:

* `Pattern.passMany_of_exact`, `Pattern.passMany_of_longest`: where a long run ends.
* `Pattern.passFew_of_shortest`, `Pattern.exists_shortest_of_passFew`: where a short run ends.
* `Pattern.run_literal`, `Pattern.run_literalIgnoringCase`: a text is passed in one way.
* `Pattern.Unanchored.replace_append`, `Pattern.Unanchored.replace_cons`: a replacement goes from
  match to match, whatever stands before.
-/

namespace Syndication.Pattern

variable {α : Type} {accepts : Char → Bool} {pattern : Pattern} {before : Option Char}
  {cs rest : List Char} {groups : List (Nat × Span)}

/-! ### Runs of characters -/

section Running

variable {next : Place → Option α}

/-- **A long run ends where its class ends** when what follows cannot begin within the class. -/
theorem passMany_of_exact (hcs : ∀ c ∈ cs, accepts c = true)
    (hrest : ∀ c ∈ rest.head?, accepts c = false)
    (hnext : ∀ before c rest, accepts c = true → next ⟨before, c :: rest⟩ = none) :
    passMany accepts next before (cs ++ rest) = next ⟨lastOf before cs, rest⟩ := by
  induction cs generalizing before with
  | nil =>
    cases rest with
    | nil => rfl
    | cons d rest =>
      rw [List.nil_append, passMany, if_neg (by simp [hrest d rfl])]
      rfl
  | cons c cs ih =>
    obtain ⟨hc, hcs⟩ := List.forall_mem_cons.1 hcs
    rw [List.cons_append, passMany, if_pos hc, ih hcs, hnext before c _ hc]
    change _ = next ⟨lastOf (some c) cs, rest⟩
    cases next ⟨lastOf (some c) cs, rest⟩ <;> rfl

/-- A long run ends where its class ends when what follows begins there. -/
theorem passMany_of_longest {r : α} (hcs : ∀ c ∈ cs, accepts c = true)
    (hrest : ∀ c ∈ rest.head?, accepts c = false)
    (hnext : next ⟨lastOf before cs, rest⟩ = some r) :
    passMany accepts next before (cs ++ rest) = some r := by
  induction cs generalizing before with
  | nil =>
    cases rest with
    | nil => exact hnext
    | cons d rest =>
      rw [List.nil_append, passMany, if_neg (by simp [hrest d rfl])]
      exact hnext
  | cons c cs ih =>
    obtain ⟨hc, hcs⟩ := List.forall_mem_cons.1 hcs
    rw [List.cons_append, passMany, if_pos hc, ih hcs hnext]

/-- **A short run ends at the first place** from which what follows goes on. -/
theorem passFew_of_shortest {r : α} (hcs : ∀ c ∈ cs, accepts c = true)
    (hnext : ∀ before front c back, cs = front ++ c :: back →
      next ⟨before, c :: (back ++ rest)⟩ = none)
    (hlast : next ⟨lastOf before cs, rest⟩ = some r) :
    passFew accepts next before (cs ++ rest) = some r := by
  induction cs generalizing before with
  | nil =>
    cases rest with
    | nil => exact hlast
    | cons d rest =>
      have hd : next ⟨before, d :: rest⟩ = some r := hlast
      rw [List.nil_append, passFew, hd]
  | cons c cs ih =>
    obtain ⟨hc, hcs⟩ := List.forall_mem_cons.1 hcs
    rw [List.cons_append, passFew, hnext before [] c cs rfl]
    simp only [if_pos hc]
    exact ih hcs (fun before front d back h => hnext before (c :: front) d back (by rw [h]; rfl))
      hlast

/-- A short run that is found ends at the first place from which what follows goes on. -/
theorem exists_shortest_of_passFew {r : α} (h : passFew accepts next before cs = some r) :
    ∃ front rest, cs = front ++ rest ∧ (∀ c ∈ front, accepts c = true) ∧
      next ⟨lastOf before front, rest⟩ = some r ∧
      ∀ early late, front = early ++ late → late ≠ [] →
        next ⟨lastOf before early, late ++ rest⟩ = none := by
  induction cs generalizing before with
  | nil => exact ⟨[], [], rfl, by simp, h, by simp⟩
  | cons c cs ih =>
    rw [passFew] at h
    split at h
    · rename_i found hfound
      exact ⟨[], c :: cs, rfl, by simp, hfound.trans h, by simp⟩
    · rename_i hnone
      split at h
      · rename_i hc
        obtain ⟨front, rest, rfl, hfront, hlast, hearlier⟩ := ih h
        refine ⟨c :: front, rest, rfl, List.forall_mem_cons.2 ⟨hc, hfront⟩, hlast, ?_⟩
        intro early late hsplit hlate
        cases early with
        | nil =>
          obtain rfl := hsplit
          exact hnone
        | cons d early =>
          obtain ⟨rfl, rfl⟩ := List.cons.inj hsplit
          exact hearlier early late rfl hlate
      · cases h

end Running

section Repeating

variable {next : Place → List (Nat × Span) → Option α}

theorem run_many_of_exact (hcs : ∀ c ∈ cs, accepts c = true)
    (hrest : ∀ c ∈ rest.head?, accepts c = false)
    (hnext : ∀ before c rest, accepts c = true → next ⟨before, c :: rest⟩ groups = none) :
    (many accepts).run ⟨before, cs ++ rest⟩ groups next =
      next ⟨lastOf before cs, rest⟩ groups :=
  passMany_of_exact hcs hrest hnext

theorem run_many1_of_exact (hne : cs ≠ []) (hcs : ∀ c ∈ cs, accepts c = true)
    (hrest : ∀ c ∈ rest.head?, accepts c = false)
    (hnext : ∀ before c rest, accepts c = true → next ⟨before, c :: rest⟩ groups = none) :
    (many1 accepts).run ⟨before, cs ++ rest⟩ groups next =
      next ⟨lastOf before cs, rest⟩ groups := by
  obtain ⟨c, cs, rfl⟩ := List.exists_cons_of_ne_nil hne
  obtain ⟨hc, hcs⟩ := List.forall_mem_cons.1 hcs
  rw [many1, run, List.cons_append, run]
  simp only [hc, if_true]
  exact run_many_of_exact hcs hrest hnext

theorem run_many1_of_longest {r : α} (hne : cs ≠ []) (hcs : ∀ c ∈ cs, accepts c = true)
    (hrest : ∀ c ∈ rest.head?, accepts c = false)
    (hnext : next ⟨lastOf before cs, rest⟩ groups = some r) :
    (many1 accepts).run ⟨before, cs ++ rest⟩ groups next = some r := by
  obtain ⟨c, cs, rfl⟩ := List.exists_cons_of_ne_nil hne
  obtain ⟨hc, hcs⟩ := List.forall_mem_cons.1 hcs
  rw [many1, run, List.cons_append, run]
  simp only [hc, if_true]
  exact passMany_of_longest hcs hrest hnext

end Repeating

/-! ### Texts -/

section Spelling

variable {next : Place → List (Nat × Span) → Option α}

theorem run_char (c : Char) (before : Option Char) (rest : List Char) :
    (char c).run ⟨before, c :: rest⟩ groups next = next ⟨some c, rest⟩ groups := by
  simp [char, run]

theorem run_char_of_ne {c d : Char} (h : d ≠ c) (before : Option Char) (rest : List Char) :
    (char c).run ⟨before, d :: rest⟩ groups next = none := by
  simp [char, run, h]

theorem run_seq_char_of_ne {second : Pattern} {c d : Char} (h : d ≠ c) (before : Option Char)
    (rest : List Char) :
    ((char c).seq second).run ⟨before, d :: rest⟩ groups next = none := by
  rw [run, run_char_of_ne h]

/-- A given text is passed in one way. -/
theorem run_literal (s : String) (before : Option Char) (rest : List Char) :
    (literal s).run ⟨before, s.toList ++ rest⟩ groups next =
      next ⟨lastOf before s.toList, rest⟩ groups := by
  unfold literal
  generalize s.toList = cs
  induction cs generalizing before with
  | nil => rfl
  | cons c cs ih =>
    rw [List.foldr_cons, run, List.cons_append, run_char]
    exact ih (some c)

/-- A given text is passed where it stands. -/
theorem exists_of_run_literal {s : String} {p : Place} {r : α}
    (h : (literal s).run p groups next = some r) :
    ∃ rest, p.rest = s.toList ++ rest ∧ next ⟨lastOf p.before s.toList, rest⟩ groups = some r := by
  obtain ⟨q, _, hcovers, hq⟩ := exists_covers_of_run h
  obtain ⟨hrest, rfl⟩ := hcovers.literal
  obtain ⟨cs, hcs, hbefore⟩ := hcovers.exists_append
  obtain rfl : cs = s.toList := List.append_cancel_right (hcs.symm.trans hrest)
  obtain ⟨before, rest⟩ := q
  obtain rfl : before = lastOf p.before s.toList := hbefore
  exact ⟨rest, hrest, hq⟩

/-- **The ways to write a text** when case is ignored. -/
def Spells (s : String) (cs : List Char) : Prop :=
  List.Forall₂ (fun letter c => eqIgnoringCase letter c = true) s.toList cs

/-- A text is passed in one way, also when case is ignored. -/
theorem run_literalIgnoringCase {s : String} (h : Spells s cs) (before : Option Char)
    (rest : List Char) :
    (literalIgnoringCase s).run ⟨before, cs ++ rest⟩ groups next =
      next ⟨lastOf before cs, rest⟩ groups := by
  unfold Spells at h
  unfold literalIgnoringCase
  generalize s.toList = letters at h
  induction h generalizing before with
  | nil => rfl
  | @cons letter c letters cs hc _ ih =>
    rw [List.foldr_cons, run, List.cons_append, run]
    simp only [hc, if_true]
    exact ih (some c)

/-- A text is not passed where another character stands. -/
theorem run_literalIgnoringCase_of_ne {s : String} {c : Char}
    (h : ∀ letter ∈ s.toList.head?, eqIgnoringCase letter c = false) (hne : s ≠ "")
    (before : Option Char) (rest : List Char) :
    (literalIgnoringCase s).run ⟨before, c :: rest⟩ groups next = none := by
  have hletters : s.toList ≠ [] := fun hnil => hne (String.toList_eq_nil_iff.1 hnil)
  unfold literalIgnoringCase
  obtain ⟨letter, letters, hs⟩ := List.exists_cons_of_ne_nil hletters
  rw [hs] at h ⊢
  rw [List.foldr_cons, run, run]
  simp [h letter rfl]

theorem Covers.literalIgnoringCase {s : String} {p q : Place} {groups' : List (Nat × Span)}
    (h : (literalIgnoringCase s).Covers p groups q groups') :
    ∃ cs, Spells s cs ∧ p.rest = cs ++ q.rest ∧ q.before = lastOf p.before cs ∧
      groups' = groups := by
  unfold Pattern.literalIgnoringCase at h
  unfold Spells
  generalize s.toList = letters at h
  induction letters generalizing p groups with
  | nil =>
    obtain ⟨rfl, rfl⟩ := h
    exact ⟨[], .nil, rfl, rfl, rfl⟩
  | cons letter letters ih =>
    obtain ⟨m, _, ⟨c, hrest, hbefore, hc, rfl⟩, htail⟩ := h
    obtain ⟨cs, hcs, hm, hq, rfl⟩ := ih htail
    refine ⟨c :: cs, .cons hc hcs, by rw [hrest, hm]; rfl, ?_, rfl⟩
    rw [hq, hbefore]
    rfl

end Spelling

/-! ### Replacing from match to match -/

/-- **A pattern does not look back**: what stands before a place makes no difference. -/
def Unanchored (pattern : Pattern) : Prop :=
  ∀ before before' cs, pattern.matchAt ⟨before, cs⟩ = pattern.matchAt ⟨before', cs⟩

namespace Unanchored

theorem scanFrom_eq (h : pattern.Unanchored) (skip : Nat) (before before' : Option Char)
    (cs : List Char) : pattern.scanFrom skip before cs = pattern.scanFrom skip before' cs := by
  cases cs with
  | nil => cases skip <;> rfl
  | cons c cs =>
    cases skip with
    | succ skip => rfl
    | zero => rw [scanFrom, scanFrom, h before before']

variable {replacement : Match → List Char}

/-- A character at which nothing matches stays. -/
theorem replace_cons (h : pattern.Unanchored) {c : Char} {cs : List Char}
    (hnone : pattern.matchAt ⟨none, c :: cs⟩ = none) :
    pattern.replace replacement (c :: cs) = c :: pattern.replace replacement cs := by
  rw [replace, scan, scanFrom, hnone]
  simp only [List.flatMap_cons, Piece.render, List.singleton_append]
  rw [h.scanFrom_eq 0 (some c) none]
  rfl

/-- Characters at which nothing matches stay. -/
theorem replace_append_of_none (h : pattern.Unanchored) {cs rest : List Char}
    (hnone : ∀ front c back, cs = front ++ c :: back →
      pattern.matchAt ⟨none, c :: (back ++ rest)⟩ = none) :
    pattern.replace replacement (cs ++ rest) = cs ++ pattern.replace replacement rest := by
  induction cs with
  | nil => rfl
  | cons c cs ih =>
    rw [List.cons_append, h.replace_cons (hnone [] c cs rfl),
      ih fun front d back hcs => hnone (c :: front) d back (by rw [hcs]; rfl)]
    rfl

/-- **A match is replaced**, and the search goes on behind it. -/
theorem replace_append (h : pattern.Unanchored) {m : Match}
    (hm : pattern.matchAt ⟨none, cs ++ rest⟩ = some m) (hwhole : m.whole = ⟨cs ++ rest, rest⟩)
    (hne : cs ≠ []) :
    pattern.replace replacement (cs ++ rest) =
      replacement m ++ pattern.replace replacement rest := by
  have htext : m.text = cs := by rw [Match.text, hwhole, Span.text_mk_append]
  rw [← htext] at hm hne ⊢
  obtain ⟨before, hscan⟩ := scanFrom_of_matchAt hm hne
  rw [replace, scan, hscan, List.flatMap_cons, Piece.render, h.scanFrom_eq 0 before none]
  rfl

end Unanchored

end Syndication.Pattern
