import Syndication.Text.Pattern

/-!
# What patterns match

A pattern is matched by a search that goes on when what follows fails. Apart from the order in
which the ways to match are tried, it matches what it says: `Pattern.Covers` describes, without a
search, from where to where a pattern may lead, and with which groups. The search finds one of
these ways, and it finds one whenever there is one that what follows accepts.

Main statements:

* `Pattern.exists_covers_of_run`: what is found is a way to match.
* `Pattern.isSome_run_of_covers`: when there is a way that leads on, one is found.
* `Pattern.scanFrom_of_matchAt`: the search goes on behind a match.
* `Pattern.exists_matchAt_of_first?`, `Pattern.first?_of_matchAt`: the first match is a match, and a
  match of the whole text is the first one.
* `Pattern.Passes.seq`: what a pattern may pass over, put together from what its parts may.
-/

namespace Syndication.Pattern

variable {α : Type} {accepts : Char → Bool}

/-- The text between what follows it and all of that. -/
theorem Span.text_mk_append (cs rest : List Char) : (⟨cs ++ rest, rest⟩ : Span).text = cs := by
  simp [Span.text, Span.length]

/-! ### Runs of characters -/

/-- **A run of characters** of a class leads from one place to another. -/
inductive Place.Runs (accepts : Char → Bool) : Place → Place → Prop
  /-- The run ends where it begins. -/
  | stay (p : Place) : Runs accepts p p
  /-- The run goes on behind a character. -/
  | pass {before : Option Char} {c : Char} {cs : List Char} {q : Place} (accepted : accepts c = true)
      (rest : Runs accepts ⟨some c, cs⟩ q) : Runs accepts ⟨before, c :: cs⟩ q

/-- The characters of a run. -/
theorem Place.Runs.exists_append {p q : Place} (h : p.Runs accepts q) :
    ∃ cs, p.rest = cs ++ q.rest ∧ ∀ c ∈ cs, accepts c = true := by
  induction h with
  | stay p => exact ⟨[], rfl, by simp⟩
  | @pass before c cs q hc _ ih =>
    obtain ⟨passed, hpassed, hall⟩ := ih
    exact ⟨c :: passed, congrArg (c :: ·) hpassed, List.forall_mem_cons.2 ⟨hc, hall⟩⟩

/-- Characters of a class are a run. -/
theorem Place.exists_runs_append {cs : List Char} (h : ∀ c ∈ cs, accepts c = true)
    (before : Option Char) (rest : List Char) :
    ∃ before', (⟨before, cs ++ rest⟩ : Place).Runs accepts ⟨before', rest⟩ := by
  induction cs generalizing before with
  | nil => exact ⟨before, .stay _⟩
  | cons c cs ih =>
    obtain ⟨hc, hcs⟩ := List.forall_mem_cons.1 h
    obtain ⟨before', hruns⟩ := ih hcs (some c)
    exact ⟨before', .pass hc hruns⟩

section Passing

variable {next : Place → Option α} {before : Option Char} {cs : List Char} {r : α}

theorem exists_runs_of_passMany (h : passMany accepts next before cs = some r) :
    ∃ q, (⟨before, cs⟩ : Place).Runs accepts q ∧ next q = some r := by
  induction cs generalizing before with
  | nil => exact ⟨_, .stay _, h⟩
  | cons c cs ih =>
    rw [passMany] at h
    split at h
    · rename_i hc
      split at h
      · rename_i found hfound
        obtain ⟨q, hruns, hq⟩ := ih (hfound.trans h)
        exact ⟨q, .pass hc hruns, hq⟩
      · exact ⟨_, .stay _, h⟩
    · exact ⟨_, .stay _, h⟩

theorem exists_runs_of_passFew (h : passFew accepts next before cs = some r) :
    ∃ q, (⟨before, cs⟩ : Place).Runs accepts q ∧ next q = some r := by
  induction cs generalizing before with
  | nil => exact ⟨_, .stay _, h⟩
  | cons c cs ih =>
    rw [passFew] at h
    split at h
    · rename_i found hfound
      exact ⟨_, .stay _, hfound.trans h⟩
    · split at h
      · rename_i hc
        obtain ⟨q, hruns, hq⟩ := ih h
        exact ⟨q, .pass hc hruns, hq⟩
      · cases h

theorem isSome_passMany {p q : Place} (h : p.Runs accepts q) (hq : (next q).isSome = true) :
    (passMany accepts next p.before p.rest).isSome = true := by
  induction h with
  | stay p =>
    obtain ⟨before, cs⟩ := p
    cases cs with
    | nil => exact hq
    | cons c cs =>
      rw [passMany]
      split
      · split
        · rfl
        · exact hq
      · exact hq
  | pass hc _ ih =>
    rw [passMany, if_pos hc]
    split
    · rfl
    · rename_i hnone
      exact absurd (ih hq) (by simp [hnone])

theorem isSome_passFew {p q : Place} (h : p.Runs accepts q) (hq : (next q).isSome = true) :
    (passFew accepts next p.before p.rest).isSome = true := by
  induction h with
  | stay p =>
    obtain ⟨before, cs⟩ := p
    cases cs with
    | nil => exact hq
    | cons c cs =>
      rw [passFew]
      split
      · rfl
      · rename_i hnone
        exact absurd hq (by simp [hnone])
  | pass hc _ ih =>
    rw [passFew]
    split
    · rfl
    · rw [if_pos hc]
      exact ih hq

end Passing

/-! ### Ways to match -/

/-- **The ways in which a pattern may match**: from where to where, and with which groups before
and after it. -/
def Covers : Pattern → Place → List (Nat × Span) → Place → List (Nat × Span) → Prop
  | .empty, p, groups, q, groups' => q = p ∧ groups' = groups
  | .one accepts, p, groups, q, groups' =>
    ∃ c, p.rest = c :: q.rest ∧ q.before = some c ∧ accepts c = true ∧ groups' = groups
  | .many accepts, p, groups, q, groups' => p.Runs accepts q ∧ groups' = groups
  | .few accepts, p, groups, q, groups' => p.Runs accepts q ∧ groups' = groups
  | .seq first second, p, groups, q, groups' =>
    ∃ m between, first.Covers p groups m between ∧ second.Covers m between q groups'
  | .alt first second, p, groups, q, groups' =>
    first.Covers p groups q groups' ∨ second.Covers p groups q groups'
  | .group number body, p, groups, q, groups' =>
    ∃ inner, body.Covers p groups q inner ∧ groups' = (number, ⟨p.rest, q.rest⟩) :: inner
  | .wordEdge, p, groups, q, groups' => p.isWordEdge = true ∧ q = p ∧ groups' = groups
  | .textStart, p, groups, q, groups' => p.before.isNone = true ∧ q = p ∧ groups' = groups
  | .textEnd, p, groups, q, groups' => p.rest.isEmpty = true ∧ q = p ∧ groups' = groups

section Covering

variable {first second body : Pattern} {p m q : Place} {groups between groups' : List (Nat × Span)}

theorem Covers.seq (hfirst : first.Covers p groups m between)
    (hsecond : second.Covers m between q groups') : (first.seq second).Covers p groups q groups' :=
  ⟨m, between, hfirst, hsecond⟩

theorem Covers.group (number : Nat) (h : body.Covers p groups q groups') :
    (body.group number).Covers p groups q ((number, ⟨p.rest, q.rest⟩) :: groups') :=
  ⟨groups', h, rfl⟩

theorem covers_char (c : Char) (before : Option Char) (cs : List Char)
    (groups : List (Nat × Span)) :
    (char c).Covers ⟨before, c :: cs⟩ groups ⟨some c, cs⟩ groups :=
  ⟨c, rfl, rfl, beq_self_eq_true c, rfl⟩

theorem covers_many (h : p.Runs accepts q) (groups : List (Nat × Span)) :
    (many accepts).Covers p groups q groups :=
  ⟨h, rfl⟩

theorem covers_few1 {c : Char} {cs : List Char} (hc : accepts c = true)
    (h : (⟨some c, cs⟩ : Place).Runs accepts q) (before : Option Char)
    (groups : List (Nat × Span)) :
    (few1 accepts).Covers ⟨before, c :: cs⟩ groups q groups :=
  Covers.seq ⟨c, rfl, rfl, hc, rfl⟩ ⟨h, rfl⟩

end Covering

section Inverting

variable {p q : Place} {groups groups' : List (Nat × Span)} {s : String}

/-- A nonempty run of characters. -/
theorem Covers.exists_many1 (h : (many1 accepts).Covers p groups q groups') :
    ∃ cs, cs ≠ [] ∧ (∀ c ∈ cs, accepts c = true) ∧ p.rest = cs ++ q.rest ∧ groups' = groups := by
  obtain ⟨m, _, ⟨c, hrest, -, hc, rfl⟩, hruns, rfl⟩ := h
  obtain ⟨cs, hm, hcs⟩ := hruns.exists_append
  refine ⟨c :: cs, List.cons_ne_nil _ _, List.forall_mem_cons.2 ⟨hc, hcs⟩, ?_, rfl⟩
  rw [hrest, hm]
  rfl

theorem Covers.exists_few1 (h : (few1 accepts).Covers p groups q groups') :
    ∃ cs, cs ≠ [] ∧ (∀ c ∈ cs, accepts c = true) ∧ p.rest = cs ++ q.rest ∧ groups' = groups := by
  have hmany : (many1 accepts).Covers p groups q groups' := h
  exact hmany.exists_many1

theorem exists_blanks_of_covers (h : blanks.Covers p groups q groups') :
    ∃ gap, (∀ c ∈ gap, Text.isBlank c = true) ∧ p.rest = gap ++ q.rest ∧ groups' = groups := by
  obtain ⟨gap, hrest, hgap⟩ := h.1.exists_append
  exact ⟨gap, hgap, hrest, h.2⟩

theorem Covers.literal (h : (literal s).Covers p groups q groups') :
    p.rest = s.toList ++ q.rest ∧ groups' = groups := by
  unfold Pattern.literal at h
  generalize s.toList = cs at h
  induction cs generalizing p groups with
  | nil =>
    obtain ⟨rfl, rfl⟩ := h
    exact ⟨rfl, rfl⟩
  | cons c cs ih =>
    obtain ⟨m, _, ⟨d, hrest, -, hd, rfl⟩, htail⟩ := h
    obtain ⟨hm, rfl⟩ := ih htail
    rw [hrest, hm, eq_of_beq hd]
    exact ⟨rfl, rfl⟩

end Inverting

/-! ### Texts that a pattern may pass over -/

/-- **A pattern may pass over a text** that a given text follows, whatever stands before it. -/
def Passes (pattern : Pattern) (cs rest : List Char) : Prop :=
  ∀ before groups, ∃ before' groups',
    pattern.Covers ⟨before, cs ++ rest⟩ groups ⟨before', rest⟩ groups'

section Passing

variable {first second body : Pattern} {cs cs' rest : List Char}

theorem Passes.seq (hfirst : first.Passes cs (cs' ++ rest)) (hsecond : second.Passes cs' rest) :
    (first.seq second).Passes (cs ++ cs') rest := fun before groups => by
  obtain ⟨b, between, h⟩ := hfirst before groups
  obtain ⟨b', groups', h'⟩ := hsecond b between
  rw [List.append_assoc]
  exact ⟨b', groups', h.seq h'⟩

theorem Passes.group (number : Nat) (h : body.Passes cs rest) :
    (body.group number).Passes cs rest := fun before groups => by
  obtain ⟨b, groups', h⟩ := h before groups
  exact ⟨b, _, h.group number⟩

theorem Passes.left (second : Pattern) (h : first.Passes cs rest) :
    (first.alt second).Passes cs rest := fun before groups => by
  obtain ⟨b, groups', h⟩ := h before groups
  exact ⟨b, groups', .inl h⟩

theorem Passes.right (first : Pattern) (h : second.Passes cs rest) :
    (first.alt second).Passes cs rest := fun before groups => by
  obtain ⟨b, groups', h⟩ := h before groups
  exact ⟨b, groups', .inr h⟩

theorem passes_textEnd : textEnd.Passes [] [] :=
  fun before groups => ⟨before, groups, rfl, rfl, rfl⟩

theorem passes_many (h : ∀ c ∈ cs, accepts c = true) : (many accepts).Passes cs rest :=
  fun before groups => by
    obtain ⟨b, hruns⟩ := Place.exists_runs_append h before rest
    exact ⟨b, groups, covers_many hruns groups⟩

theorem passes_few1 (hne : cs ≠ []) (h : ∀ c ∈ cs, accepts c = true) :
    (few1 accepts).Passes cs rest := fun before groups => by
  obtain ⟨c, cs, rfl⟩ := List.exists_cons_of_ne_nil hne
  obtain ⟨hc, hcs⟩ := List.forall_mem_cons.1 h
  obtain ⟨b, hruns⟩ := Place.exists_runs_append hcs (some c) rest
  exact ⟨b, groups, covers_few1 hc hruns before groups⟩

theorem passes_many1 (hne : cs ≠ []) (h : ∀ c ∈ cs, accepts c = true) :
    (many1 accepts).Passes cs rest :=
  passes_few1 hne h

theorem passes_char (c : Char) : (char c).Passes [c] rest :=
  fun before groups => ⟨some c, groups, covers_char c before rest groups⟩

theorem passes_literal (s : String) : (Pattern.literal s).Passes s.toList rest := by
  unfold Pattern.literal
  generalize s.toList = cs
  induction cs with
  | nil => exact fun before groups => ⟨before, groups, rfl, rfl⟩
  | cons c cs ih => exact (passes_char c).seq ih

end Passing

section Searching

variable {pattern : Pattern} {p q : Place} {groups groups' : List (Nat × Span)}
  {next : Place → List (Nat × Span) → Option α} {r : α}

/-- **What is found is a way to match.** -/
theorem exists_covers_of_run (h : pattern.run p groups next = some r) :
    ∃ q groups', pattern.Covers p groups q groups' ∧ next q groups' = some r := by
  induction pattern generalizing p groups next with
  | empty => exact ⟨p, groups, ⟨rfl, rfl⟩, h⟩
  | one accepts =>
    rw [run] at h
    split at h
    · cases h
    · rename_i c cs hrest
      split at h
      · rename_i hc
        exact ⟨_, groups, ⟨c, hrest, rfl, hc, rfl⟩, h⟩
      · cases h
  | many accepts =>
    obtain ⟨q, hruns, hq⟩ := exists_runs_of_passMany h
    exact ⟨q, groups, ⟨hruns, rfl⟩, hq⟩
  | few accepts =>
    obtain ⟨q, hruns, hq⟩ := exists_runs_of_passFew h
    exact ⟨q, groups, ⟨hruns, rfl⟩, hq⟩
  | seq first second ih₁ ih₂ =>
    obtain ⟨m, between, hfirst, h⟩ := ih₁ h
    obtain ⟨q, groups', hsecond, hq⟩ := ih₂ h
    exact ⟨q, groups', ⟨m, between, hfirst, hsecond⟩, hq⟩
  | alt first second ih₁ ih₂ =>
    rw [run] at h
    split at h
    · rename_i found hfound
      obtain ⟨q, groups', hfirst, hq⟩ := ih₁ (hfound.trans h)
      exact ⟨q, groups', .inl hfirst, hq⟩
    · obtain ⟨q, groups', hsecond, hq⟩ := ih₂ h
      exact ⟨q, groups', .inr hsecond, hq⟩
  | group number body ih =>
    obtain ⟨q, inner, hbody, hq⟩ := ih h
    exact ⟨q, _, ⟨inner, hbody, rfl⟩, hq⟩
  | wordEdge | textStart | textEnd =>
    rw [run] at h
    split at h
    · rename_i hp
      exact ⟨p, groups, ⟨hp, rfl, rfl⟩, h⟩
    · cases h

/-- **When there is a way that leads on, one is found.** -/
theorem isSome_run_of_covers (h : pattern.Covers p groups q groups')
    (hq : (next q groups').isSome = true) : (pattern.run p groups next).isSome = true := by
  induction pattern generalizing p groups q groups' next with
  | empty =>
    obtain ⟨rfl, rfl⟩ := h
    exact hq
  | one accepts =>
    obtain ⟨c, hrest, hbefore, hc, rfl⟩ := h
    obtain ⟨before, rest⟩ := q
    cases hbefore
    rw [run, hrest]
    simpa only [hc, if_true] using hq
  | many accepts =>
    obtain ⟨hruns, rfl⟩ := h
    exact isSome_passMany hruns hq
  | few accepts =>
    obtain ⟨hruns, rfl⟩ := h
    exact isSome_passFew hruns hq
  | seq first second ih₁ ih₂ =>
    obtain ⟨m, between, hfirst, hsecond⟩ := h
    exact ih₁ hfirst (ih₂ hsecond hq)
  | alt first second ih₁ ih₂ =>
    rw [run]
    split
    · rfl
    · rename_i hnone
      rcases h with hfirst | hsecond
      · exact absurd (ih₁ hfirst hq) (by simp [hnone])
      · exact ih₂ hsecond hq
  | group number body ih =>
    obtain ⟨inner, hbody, rfl⟩ := h
    exact ih hbody hq
  | wordEdge | textStart | textEnd =>
    obtain ⟨hp, rfl, rfl⟩ := h
    rw [run, if_pos hp]
    exact hq

/-- A match is a way to match. -/
theorem exists_covers_of_matchAt {m : Match} (h : pattern.matchAt p = some m) :
    ∃ q, pattern.Covers p [] q m.groups ∧ m.whole = ⟨p.rest, q.rest⟩ := by
  obtain ⟨q, groups, hcovers, hm⟩ := exists_covers_of_run h
  cases hm
  exact ⟨q, hcovers, rfl⟩

theorem isSome_matchAt_of_covers (h : pattern.Covers p [] q groups) :
    (pattern.matchAt p).isSome = true :=
  isSome_run_of_covers h rfl

end Searching

/-! ### Scanning -/

/-- The characters that were still to pass are passed over. -/
theorem scanFrom_append (pattern : Pattern) (before : Option Char) (passed rest : List Char) :
    ∃ before', pattern.scanFrom passed.length before (passed ++ rest) =
      pattern.scanFrom 0 before' rest := by
  induction passed generalizing before with
  | nil => exact ⟨before, rfl⟩
  | cons c passed ih => exact ih (some c)

/-- **The search goes on behind a match**, if that is one of anything. -/
theorem scanFrom_of_matchAt {pattern : Pattern} {before : Option Char} {rest : List Char}
    {m : Match} (h : pattern.matchAt ⟨before, m.text ++ rest⟩ = some m) (hm : m.text ≠ []) :
    ∃ before', pattern.scanFrom 0 before (m.text ++ rest) =
      .hit m :: pattern.scanFrom 0 before' rest := by
  have hlength : m.whole.length = m.text.length := m.whole.length_text.symm
  generalize m.text = text at h hm hlength
  cases text with
  | nil => exact absurd rfl hm
  | cons c cs =>
    obtain ⟨before', hpassed⟩ := scanFrom_append pattern (some c) cs rest
    refine ⟨before', ?_⟩
    rw [List.cons_append] at h ⊢
    rw [scanFrom, h]
    dsimp only
    rw [hlength, List.length_cons, if_neg (Nat.succ_ne_zero _), Nat.add_sub_cancel, hpassed]

/-- What is found is a match somewhere, and when it is one at the beginning, it begins there. -/
theorem exists_matchAt_of_hit_mem {pattern : Pattern} {skip : Nat} {before : Option Char}
    {cs : List Char} {m : Match} (h : .hit m ∈ pattern.scanFrom skip before cs) :
    ∃ p, pattern.matchAt p = some m ∧ (p.before = none → before = none ∧ p.rest = cs) := by
  induction cs generalizing skip before with
  | nil => cases skip <;> cases h
  | cons c cs ih =>
    have hlater {skip : Nat} (h : .hit m ∈ pattern.scanFrom skip (some c) cs) :
        ∃ p, pattern.matchAt p = some m ∧ (p.before = none → before = none ∧ p.rest = c :: cs) := by
      obtain ⟨p, hp, hfirst⟩ := ih h
      exact ⟨p, hp, fun hnone => nomatch (hfirst hnone).1⟩
    cases skip with
    | succ skip => exact hlater h
    | zero =>
      rw [scanFrom] at h
      split at h
      · rename_i found hfound
        split at h
        · exact hlater ((List.mem_cons.1 h).resolve_left (by simp))
        · rcases List.mem_cons.1 h with h | h
          · cases h
            exact ⟨_, hfound, fun hnone => ⟨hnone, rfl⟩⟩
          · exact hlater h
      · exact hlater ((List.mem_cons.1 h).resolve_left (by simp))

/-- The first match is a match somewhere, and when it is one at the beginning, it begins there. -/
theorem exists_matchAt_of_first? {pattern : Pattern} {cs : List Char} {m : Match}
    (h : pattern.first? cs = some m) :
    ∃ p, pattern.matchAt p = some m ∧ (p.before = none → p.rest = cs) := by
  obtain ⟨piece, hmem, hpiece⟩ := List.exists_of_findSome?_eq_some h
  cases piece with
  | plain c => cases hpiece
  | hit found =>
    cases hpiece
    obtain ⟨p, hp, hfirst⟩ := exists_matchAt_of_hit_mem hmem
    exact ⟨p, hp, fun hnone => (hfirst hnone).2⟩

/-- A match that is no shorter than the text is the text. -/
theorem text_eq_of_first? {pattern : Pattern} {cs : List Char} {m : Match}
    (h : pattern.first? cs = some m) (hlength : m.text.length = cs.length) : m.text = cs := by
  obtain ⟨earlier, piece, later, hscan, hpiece, -⟩ := List.findSome?_eq_some_iff.1 h
  obtain rfl : piece = .hit m := by
    cases piece <;> simp_all [Piece.match?]
  have htext := flatMap_text_scan pattern cs
  rw [hscan, List.flatMap_append, List.flatMap_cons, Piece.text] at htext
  have hsum := congrArg List.length htext
  rw [List.length_append, List.length_append] at hsum
  -- nothing is left for the pieces around the match
  have hearlier : earlier.flatMap Piece.text = [] := List.length_eq_zero_iff.1 (by omega)
  have hlater : later.flatMap Piece.text = [] := List.length_eq_zero_iff.1 (by omega)
  rwa [hearlier, hlater, List.nil_append, List.append_nil] at htext

/-- A match of a whole text is the first one. -/
theorem first?_of_matchAt {pattern : Pattern} {m : Match}
    (h : pattern.matchAt ⟨none, m.text⟩ = some m) (hm : m.text ≠ []) :
    pattern.first? m.text = some m := by
  rw [← List.append_nil m.text] at h
  obtain ⟨before, hscan⟩ := scanFrom_of_matchAt h hm
  rw [List.append_nil] at hscan
  rw [first?, scan, hscan]
  rfl

end Syndication.Pattern
