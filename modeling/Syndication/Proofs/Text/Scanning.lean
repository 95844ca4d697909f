import Mathlib.Tactic.ByContra
import Syndication.Proofs.Text.Matching

/-!
# The pieces of a text

A scan cuts a text into the matches of a pattern and the characters between them. From each of
its cuts it goes on as it would from the beginning, so what stands behind a cut says at once what
was tried there: a plain character is one at which nothing matches, and a hit is the match that
was found.

Main statements:

* `Pattern.exists_scanFrom_of_append`: a scan goes on from each of its cuts.
* `Pattern.delete_eq_self_iff`: a deletion changes nothing just when there is nothing to delete.
* `Pattern.exists_front_of_kept_append`: how a part of what is left of a text lies in the text.
-/

namespace Syndication.Pattern

variable {α : Type} {accepts : Char → Bool} {pattern : Pattern} {before : Option Char}
  {text cs rest : List Char} {c : Char} {m : Match}

/-! ### Cutting lists -/

/-- A beginning without a certain character ends before that character. -/
theorem exists_append_of_notMem {ps qs : List Char} (h : ps ++ qs = cs ++ c :: rest)
    (hc : c ∉ ps) : ∃ middle, cs = ps ++ middle ∧ qs = middle ++ c :: rest := by
  rcases List.append_eq_append_iff.1 h with ⟨middle, rfl, hqs⟩ | ⟨middle, rfl, hrest⟩
  · exact ⟨middle, rfl, hqs⟩
  · cases middle with
    | nil => exact ⟨[], by simp, by simpa using hrest.symm⟩
    | cons d middle =>
      obtain ⟨rfl, -⟩ := List.cons.inj hrest
      exact absurd (by simp) hc

/-- A text ends where the first of certain characters stands. -/
theorem append_cons_inj {cs ds after after' : List Char} {c : Char} (hcs : c ∉ cs) (hds : c ∉ ds)
    (h : cs ++ c :: after = ds ++ c :: after') : cs = ds ∧ after = after' := by
  obtain ⟨middle, rfl, hafter⟩ := exists_append_of_notMem h hcs
  cases middle with
  | nil => exact ⟨(List.append_nil cs).symm, (List.cons.inj hafter).2⟩
  | cons d middle =>
    obtain ⟨rfl, -⟩ := List.cons.inj hafter
    exact absurd (by simp) hds

/-- What begins with a character that is missing before a text, and ends with one that is missing
behind it, lies in the text. -/
theorem exists_append_between {front back left middle right : List Char} {a z : Char}
    (h : front ++ (cs ++ back) = left ++ a :: (middle ++ z :: right)) (ha : a ∉ front)
    (hz : z ∉ back) : ∃ left' right', cs = left' ++ a :: (middle ++ z :: right') := by
  obtain ⟨left', -, hcs⟩ := exists_append_of_notMem h ha
  have hsplit : cs ++ back = (left' ++ a :: middle) ++ z :: right := by
    rw [hcs]
    simp
  rcases List.append_eq_append_iff.1 hsplit with ⟨rest, -, hback⟩ | ⟨rest, hrest, hright⟩
  · exact absurd (by rw [hback]; simp) hz
  · cases rest with
    | nil => exact absurd (by rw [← List.nil_append back, ← hright]; simp) hz
    | cons d rest =>
      obtain ⟨rfl, -⟩ := List.cons.inj hright
      exact ⟨left', rest, by rw [hrest]; simp⟩

/-! ### What a way to match covers -/

/-- The character before a place that lies behind some characters. -/
def lastOf (before : Option Char) : List Char → Option Char
  | [] => before
  | c :: cs => lastOf (some c) cs

theorem lastOf_append (before : Option Char) (cs ds : List Char) :
    lastOf before (cs ++ ds) = lastOf (lastOf before cs) ds := by
  induction cs generalizing before with
  | nil => rfl
  | cons c cs ih => exact ih (some c)

theorem lastOf_of_ne_nil (h : cs ≠ []) : lastOf before cs = cs.getLast? := by
  induction cs generalizing before with
  | nil => exact absurd rfl h
  | cons c cs ih =>
    cases cs with
    | nil => rfl
    | cons d cs =>
      rw [lastOf, ih (List.cons_ne_nil d cs), List.getLast?_cons_cons]

theorem Place.Runs.before_eq {p q : Place} (h : p.Runs accepts q) :
    ∃ cs, p.rest = cs ++ q.rest ∧ q.before = lastOf p.before cs := by
  induction h with
  | stay p => exact ⟨[], rfl, rfl⟩
  | @pass before c cs q _ _ ih =>
    obtain ⟨passed, hpassed, hbefore⟩ := ih
    exact ⟨c :: passed, congrArg (c :: ·) hpassed, hbefore⟩

/-- A way to match leads over characters of the text. -/
theorem Covers.exists_append {p q : Place} {groups groups' : List (Nat × Span)}
    (h : pattern.Covers p groups q groups') :
    ∃ cs, p.rest = cs ++ q.rest ∧ q.before = lastOf p.before cs := by
  induction pattern generalizing p groups q groups' with
  | empty =>
    obtain ⟨rfl, -⟩ := h
    exact ⟨[], rfl, rfl⟩
  | wordEdge | textStart | textEnd =>
    obtain ⟨-, rfl, -⟩ := h
    exact ⟨[], rfl, rfl⟩
  | one accepts =>
    obtain ⟨c, hrest, hbefore, -⟩ := h
    exact ⟨[c], hrest, hbefore⟩
  | many accepts | few accepts => exact h.1.before_eq
  | seq first second ih₁ ih₂ =>
    obtain ⟨m, between, hfirst, hsecond⟩ := h
    obtain ⟨cs, hcs, hm⟩ := ih₁ hfirst
    obtain ⟨ds, hds, hq⟩ := ih₂ hsecond
    exact ⟨cs ++ ds, by rw [hcs, hds, List.append_assoc], by rw [hq, hm, lastOf_append]⟩
  | alt first second ih₁ ih₂ =>
    rcases h with h | h
    · exact ih₁ h
    · exact ih₂ h
  | group number body ih =>
    obtain ⟨inner, hbody, -⟩ := h
    exact ih hbody

theorem run_eq_none {p : Place} {groups : List (Nat × Span)}
    {next : Place → List (Nat × Span) → Option α}
    (h : ∀ q groups', pattern.Covers p groups q groups' → next q groups' = none) :
    pattern.run p groups next = none := by
  cases hrun : pattern.run p groups next with
  | none => rfl
  | some r =>
    obtain ⟨q, groups', hcovers, hq⟩ := exists_covers_of_run hrun
    rw [h q groups' hcovers] at hq
    cases hq

/-- A match covers its text, and what follows it stands behind. -/
theorem text_append_stop_of_matchAt {p : Place} (h : pattern.matchAt p = some m) :
    m.text ++ m.whole.stop = p.rest := by
  obtain ⟨q, hcovers, hwhole⟩ := exists_covers_of_matchAt h
  obtain ⟨passed, hpassed, -⟩ := hcovers.exists_append
  rw [Match.text, hwhole, hpassed, Span.text_mk_append]

/-! ### A scan goes on from each of its cuts -/

theorem text_ne_nil_iff : m.text ≠ [] ↔ m.whole.length ≠ 0 := by
  rw [← Span.length_text, ne_eq, ne_eq, List.length_eq_zero_iff]
  rfl

/-- **A scan goes on from each of its cuts** as it would from the beginning. -/
theorem exists_scanFrom_of_append {front back : List Piece}
    (h : pattern.scanFrom 0 before text = front ++ back) :
    ∃ before', pattern.scanFrom 0 before' (back.flatMap Piece.text) = back := by
  induction front generalizing before text with
  | nil =>
    refine ⟨before, ?_⟩
    have htext := flatMap_text_scanFrom pattern 0 before text
    rw [h, List.nil_append, List.drop_zero] at htext
    rw [htext, h, List.nil_append]
  | cons piece front ih =>
    cases text with
    | nil => cases h
    | cons c cs =>
      rw [scanFrom] at h
      split at h
      · rename_i m hm
        split at h
        · exact ih (List.cons.inj h).2
        · -- behind a match the scan has characters to pass first
          rename_i hlength
          have hne : m.text ≠ [] := text_ne_nil_iff.2 hlength
          obtain ⟨before', hscan⟩ :=
            scanFrom_of_matchAt (by rwa [text_append_stop_of_matchAt hm]) hne
          rw [text_append_stop_of_matchAt hm, scanFrom, hm] at hscan
          simp only [if_neg hlength] at hscan
          have htail := (List.cons.inj hscan).2.symm.trans (List.cons.inj h).2
          exact ih htail
      · exact ih (List.cons.inj h).2

/-- At a plain character of a scan nothing is found but perhaps the empty text. -/
theorem text_eq_nil_of_plain {qs : List Piece} (h : pattern.scanFrom 0 before text = .plain c :: qs)
    (hm : pattern.matchAt ⟨before, text⟩ = some m) : m.text = [] := by
  cases text with
  | nil => cases h
  | cons d ds =>
    rw [scanFrom, hm] at h
    by_contra hne
    simp only [if_neg (text_ne_nil_iff.1 hne)] at h
    cases (List.cons.inj h).1

/-- A hit of a scan is the match found there. -/
theorem matchAt_of_hit {qs : List Piece} (h : pattern.scanFrom 0 before text = .hit m :: qs) :
    pattern.matchAt ⟨before, text⟩ = some m ∧ m.text ≠ [] := by
  cases text with
  | nil => cases h
  | cons d ds =>
    rw [scanFrom] at h
    split at h
    · rename_i found hfound
      split at h
      · cases (List.cons.inj h).1
      · rename_i hlength
        cases (List.cons.inj h).1
        exact ⟨hfound, text_ne_nil_iff.2 hlength⟩
    · cases (List.cons.inj h).1

/-- Behind a hit stands what the pieces after it make up. -/
theorem stop_of_hit {front qs : List Piece}
    (h : pattern.scanFrom 0 before text = front ++ .hit m :: qs) :
    m.whole.stop = qs.flatMap Piece.text := by
  obtain ⟨before', hscan⟩ := exists_scanFrom_of_append h
  have hstop := text_append_stop_of_matchAt (matchAt_of_hit hscan).1
  exact List.append_cancel_left hstop

/-! ### What a deletion leaves -/

/-- The characters of a piece that a deletion leaves. -/
def Piece.kept : Piece → List Char :=
  Piece.render fun _ => []

@[simp] theorem Piece.kept_plain (c : Char) : (Piece.plain c).kept = [c] := rfl

@[simp] theorem Piece.kept_hit (m : Match) : (Piece.hit m).kept = [] := rfl

theorem delete_eq (pattern : Pattern) (text : List Char) :
    pattern.delete text = (pattern.scan text).flatMap Piece.kept := rfl

theorem length_flatMap_kept_le (pieces : List Piece) :
    (pieces.flatMap Piece.kept).length ≤ (pieces.flatMap Piece.text).length := by
  induction pieces with
  | nil => exact Nat.le_refl _
  | cons piece pieces ih =>
    cases piece with
    | plain c => simpa [Piece.text] using ih
    | hit m =>
      simp only [List.flatMap_cons, Piece.kept_hit, List.nil_append, List.length_append]
      omega

theorem length_delete_le (pattern : Pattern) (text : List Char) :
    (pattern.delete text).length ≤ text.length := by
  have h := length_flatMap_kept_le (pattern.scan text)
  rwa [flatMap_text_scan, ← delete_eq] at h

/-- A match makes a deletion shorter. -/
theorem length_delete_lt (h : pattern.allMatches text ≠ []) :
    (pattern.delete text).length < text.length := by
  obtain ⟨m, hm⟩ := List.exists_mem_of_ne_nil _ h
  obtain ⟨piece, hmem, hpiece⟩ := List.mem_filterMap.1 hm
  obtain rfl : piece = .hit m := by cases piece <;> simp_all [Piece.match?]
  obtain ⟨front, back, hscan⟩ := List.append_of_mem hmem
  obtain ⟨before, hback⟩ := exists_scanFrom_of_append hscan
  have hpos := List.length_pos_iff.2 (matchAt_of_hit hback).2
  have hfront := length_flatMap_kept_le front
  have hrest := length_flatMap_kept_le back
  have htext := congrArg List.length (flatMap_text_scan pattern text)
  rw [hscan] at htext
  rw [delete_eq, hscan]
  simp only [List.flatMap_append, List.flatMap_cons, Piece.kept_hit, Piece.text, List.nil_append,
    List.length_append] at htext ⊢
  omega

/-- **A deletion changes nothing just when there is nothing to delete.** -/
theorem delete_eq_self_iff : pattern.delete text = text ↔ pattern.allMatches text = [] := by
  constructor
  · intro h
    by_contra hne
    have hlt := length_delete_lt hne
    rw [h] at hlt
    exact Nat.lt_irrefl _ hlt
  · exact replace_of_allMatches_eq_nil

/-- Where nothing matches from any character on, there are no matches. -/
theorem allMatches_eq_nil
    (h : ∀ front c back, text = front ++ c :: back →
      ∀ before, pattern.matchAt ⟨before, c :: back⟩ = none) :
    pattern.allMatches text = [] := by
  by_contra hne
  obtain ⟨m, hm⟩ := List.exists_mem_of_ne_nil _ hne
  obtain ⟨piece, hmem, hpiece⟩ := List.mem_filterMap.1 hm
  obtain rfl : piece = .hit m := by cases piece <;> simp_all [Piece.match?]
  obtain ⟨front, back, hscan⟩ := List.append_of_mem hmem
  obtain ⟨before, hback⟩ := exists_scanFrom_of_append hscan
  obtain ⟨hfound, hne⟩ := matchAt_of_hit hback
  have htext := flatMap_text_scan pattern text
  rw [hscan, List.flatMap_append] at htext
  obtain ⟨c, cs, hcs⟩ := List.exists_cons_of_ne_nil
    (List.append_ne_nil_of_left_ne_nil hne (back.flatMap Piece.text))
  have hback' : (Piece.hit m :: back).flatMap Piece.text = c :: cs := hcs
  rw [hback'] at htext hfound
  rw [h _ c cs htext.symm before] at hfound
  cases hfound

/-- A character that is left comes from a plain piece. -/
theorem exists_plain_of_kept_append {pieces : List Piece} {left right : List Char}
    (h : pieces.flatMap Piece.kept = left ++ c :: right) :
    ∃ front back, pieces = front ++ .plain c :: back ∧ front.flatMap Piece.kept = left ∧
      back.flatMap Piece.kept = right := by
  induction pieces generalizing left with
  | nil => simp at h
  | cons piece pieces ih =>
    cases piece with
    | plain d =>
      rw [List.flatMap_cons, Piece.kept_plain, List.singleton_append] at h
      cases left with
      | nil =>
        obtain ⟨rfl, hright⟩ := List.cons.inj h
        exact ⟨[], pieces, rfl, rfl, hright⟩
      | cons e left =>
        obtain ⟨rfl, htail⟩ := List.cons.inj h
        obtain ⟨front, back, rfl, rfl, hback⟩ := ih htail
        exact ⟨.plain d :: front, back, rfl, rfl, hback⟩
    | hit m =>
      obtain ⟨front, back, rfl, hfront, hback⟩ := ih h
      exact ⟨.hit m :: front, back, rfl, hfront, hback⟩

/-- Pieces are plain characters, or they begin with plain characters and a match. -/
theorem exists_first_hit (pieces : List Piece) :
    (∃ cs : List Char, pieces = cs.map Piece.plain) ∨
      ∃ (cs : List Char) (m : Match) (back : List Piece),
        pieces = cs.map Piece.plain ++ .hit m :: back := by
  induction pieces with
  | nil => exact .inl ⟨[], rfl⟩
  | cons piece pieces ih =>
    cases piece with
    | hit m => exact .inr ⟨[], m, pieces, rfl⟩
    | plain c =>
      rcases ih with ⟨cs, rfl⟩ | ⟨cs, m, back, rfl⟩
      · exact .inl ⟨c :: cs, rfl⟩
      · exact .inr ⟨c :: cs, m, back, rfl⟩

/-- Pieces end in plain characters, behind the last match if there is one. -/
theorem exists_front (pieces : List Piece) :
    ∃ (front : List Piece) (tail : List Char), pieces = front ++ tail.map Piece.plain ∧
      (front = [] ∨ ∃ front' m, front = front' ++ [.hit m]) := by
  induction pieces with
  | nil => exact ⟨[], [], rfl, .inl rfl⟩
  | cons piece pieces ih =>
    obtain ⟨front, tail, rfl, rfl | ⟨front', m, rfl⟩⟩ := ih
    · cases piece with
      | plain c => exact ⟨[], c :: tail, rfl, .inl rfl⟩
      | hit m => exact ⟨[.hit m], tail, rfl, .inr ⟨[], m, rfl⟩⟩
    · exact ⟨piece :: (front' ++ [.hit m]), tail, rfl, .inr ⟨piece :: front', m, rfl⟩⟩

@[simp] theorem flatMap_render_map_plain (replacement : Match → List Char) (cs : List Char) :
    (cs.map Piece.plain).flatMap (Piece.render replacement) = cs := by
  induction cs with
  | nil => rfl
  | cons c cs ih => exact congrArg (c :: ·) ih

@[simp] theorem flatMap_kept_map_plain (cs : List Char) :
    (cs.map Piece.plain).flatMap Piece.kept = cs :=
  flatMap_render_map_plain _ cs

@[simp] theorem flatMap_text_map_plain (cs : List Char) :
    (cs.map Piece.plain).flatMap Piece.text = cs := by
  induction cs with
  | nil => rfl
  | cons c cs ih => simp [Piece.text, ih]

/-- **How a part of what is left lies in the text**: behind the last match before its end it stands
there without a gap. -/
theorem exists_front_of_kept_append {pieces : List Piece} {word right : List Char}
    (h : pieces.flatMap Piece.kept = word ++ right) (hword : word ≠ []) :
    ∃ (front : List Piece) (tail : List Char) (back : List Piece),
      pieces = front ++ (tail.map Piece.plain ++ back) ∧ tail ≠ [] ∧
      front.flatMap Piece.kept ++ tail = word ∧ back.flatMap Piece.kept = right ∧
      (front = [] ∨ ∃ front' m, front = front' ++ [.hit m]) := by
  rcases List.eq_nil_or_concat word with rfl | ⟨word, c, rfl⟩
  · exact absurd rfl hword
  · rw [List.concat_eq_append, List.append_assoc, List.singleton_append] at h
    obtain ⟨before, back, rfl, hbefore, hback⟩ := exists_plain_of_kept_append h
    obtain ⟨front, tail, rfl, hfront⟩ := exists_front before
    rw [List.flatMap_append, flatMap_kept_map_plain] at hbefore
    refine ⟨front, tail ++ [c], back, by simp, by simp, ?_, hback, hfront⟩
    rw [← List.append_assoc, hbefore, List.concat_eq_append]

end Syndication.Pattern
