import Syndication.Proofs.Text.Scanning

/-!
# Changes to a text

A text that is changed in some places is written as a list of edits: characters that are kept, and
parts for which other texts are put in. The list says of every part that is changed what stands
around it before the change. When a text is changed twice, and the second change keeps to
characters that the first one kept, both are one change of the text.

Main statements:

* `Swaps`: what is changed, and where in the text it stands.
* `exists_kept_of_edited`: a character that is not put in was kept.
* `exists_merged`: two changes in one.
-/

namespace Syndication.Text

/-- A part of a change to a text. -/
inductive Edit where
  /-- A character stays as it is. -/
  | kept (c : Char)
  /-- A text is put in for another. -/
  | swapped (old new : List Char)
deriving DecidableEq, Repr

/-- The characters of an edit before the change. -/
def Edit.old : Edit → List Char
  | .kept c => [c]
  | .swapped old _ => old

/-- The characters of an edit after the change. -/
def Edit.new : Edit → List Char
  | .kept c => [c]
  | .swapped _ new => new

/-- The text before a change. -/
def original (edits : List Edit) : List Char :=
  edits.flatMap Edit.old

/-- The text after a change. -/
def edited (edits : List Edit) : List Char :=
  edits.flatMap Edit.new

/-- Characters that stay as they are. -/
def keep (cs : List Char) : List Edit :=
  cs.map .kept

/-- **A change puts a text in for another** that stands between two parts of the original text. -/
def Swaps (edits : List Edit) (left old new right : List Char) : Prop :=
  ∃ front back, edits = front ++ .swapped old new :: back ∧ original front = left ∧
    original back = right

variable {edits front back : List Edit} {cs ds xs ys : List Char} {c : Char}
  {left old new right : List Char}

section

@[simp] theorem original_nil : original [] = [] := rfl

@[simp] theorem edited_nil : edited [] = [] := rfl

@[simp] theorem original_kept : original (.kept c :: edits) = c :: original edits := rfl

@[simp] theorem edited_kept : edited (.kept c :: edits) = c :: edited edits := rfl

@[simp] theorem original_swapped : original (.swapped old new :: edits) = old ++ original edits :=
  rfl

@[simp] theorem edited_swapped : edited (.swapped old new :: edits) = new ++ edited edits := rfl

@[simp] theorem original_append : original (front ++ back) = original front ++ original back :=
  List.flatMap_append

@[simp] theorem edited_append : edited (front ++ back) = edited front ++ edited back :=
  List.flatMap_append

@[simp] theorem original_keep : original (keep cs) = cs := by
  induction cs with
  | nil => rfl
  | cons c cs ih => exact congrArg (c :: ·) ih

@[simp] theorem edited_keep : edited (keep cs) = cs := by
  induction cs with
  | nil => rfl
  | cons c cs ih => exact congrArg (c :: ·) ih

@[simp] theorem keep_nil : keep [] = [] := rfl

@[simp] theorem keep_cons : keep (c :: cs) = .kept c :: keep cs := rfl

@[simp] theorem keep_append : keep (cs ++ ds) = keep cs ++ keep ds :=
  List.map_append

end

/-- What is put in stands behind the characters that are kept before it. -/
theorem exists_append_of_keep (h : keep cs ++ edits = front ++ .swapped old new :: back) :
    ∃ middle, front = keep cs ++ middle ∧ edits = middle ++ .swapped old new :: back := by
  induction cs generalizing front with
  | nil => exact ⟨front, rfl, h⟩
  | cons c cs ih =>
    cases front with
    | nil => cases (List.cons.inj h).1
    | cons edit front =>
      obtain ⟨rfl, hrest⟩ := List.cons.inj h
      obtain ⟨middle, rfl, hedits⟩ := ih hrest
      exact ⟨middle, rfl, hedits⟩

/-! ### Finding kept characters -/

/-- **A character that is not put in was kept.** -/
theorem exists_kept_of_edited (h : edited edits = xs ++ c :: ys)
    (hc : ∀ old new, Edit.swapped old new ∈ edits → c ∉ new) :
    ∃ front back, edits = front ++ .kept c :: back ∧ edited front = xs ∧ edited back = ys := by
  induction edits generalizing xs with
  | nil => simp at h
  | cons edit edits ih =>
    have hlater := fun old new hmem => hc old new (List.mem_cons_of_mem edit hmem)
    cases edit with
    | kept d =>
      cases xs with
      | nil =>
        obtain ⟨rfl, hys⟩ := List.cons.inj h
        exact ⟨[], edits, rfl, rfl, hys⟩
      | cons e xs =>
        obtain ⟨rfl, htail⟩ := List.cons.inj h
        obtain ⟨front, back, rfl, rfl, hback⟩ := ih htail hlater
        exact ⟨.kept d :: front, back, rfl, rfl, hback⟩
    | swapped old new =>
      rw [edited_swapped] at h
      obtain ⟨middle, rfl, hrest⟩ :=
        Pattern.exists_append_of_notMem h (hc old new List.mem_cons_self)
      obtain ⟨front, back, rfl, rfl, hback⟩ := ih hrest hlater
      exact ⟨.swapped old new :: front, back, rfl, rfl, hback⟩

/-- A change keeps characters up to the first text that it puts in. -/
theorem exists_keep (edits : List Edit) :
    ∃ cs back, edits = keep cs ++ back ∧
      (back = [] ∨ ∃ old new back', back = .swapped old new :: back') := by
  induction edits with
  | nil => exact ⟨[], [], rfl, .inl rfl⟩
  | cons edit edits ih =>
    cases edit with
    | kept c =>
      obtain ⟨cs, back, rfl, hback⟩ := ih
      exact ⟨c :: cs, back, rfl, hback⟩
    | swapped old new => exact ⟨[], _, rfl, .inr ⟨old, new, edits, rfl⟩⟩

/-- A character that is neither left nor replaced did not stand in the text. -/
theorem notMem_original (h : c ∉ edited edits)
    (hc : ∀ old new, Edit.swapped old new ∈ edits → c ∉ old) : c ∉ original edits := by
  intro hmem
  obtain ⟨edit, hedit, hmem⟩ := List.mem_flatMap.1 hmem
  cases edit with
  | kept d => exact h (List.mem_flatMap.2 ⟨.kept d, hedit, hmem⟩)
  | swapped old new => exact hc old new hedit hmem

/-! ### Two changes in one -/

section Merging

variable {P : List Char → List Char → List Char → List Char → Prop} {pre post : List Char}

/-- Every part that is changed satisfies a condition on it and on what stands around it, where the
text stands between two others. -/
def Each (P : List Char → List Char → List Char → List Char → Prop) (pre : List Char)
    (edits : List Edit) (post : List Char) : Prop :=
  ∀ front old new back, edits = front ++ .swapped old new :: back →
    P (pre ++ original front) old new (original back ++ post)

theorem each_iff : Each P [] edits [] ↔
    ∀ left old new right, Swaps edits left old new right → P left old new right := by
  constructor
  · rintro h _ old new _ ⟨front, back, hsplit, rfl, rfl⟩
    simpa using h front old new back hsplit
  · intro h front old new back hsplit
    simpa using h _ old new _ ⟨front, back, hsplit, rfl, rfl⟩

theorem each_append : Each P pre (front ++ back) post ↔
    Each P pre front (original back ++ post) ∧ Each P (pre ++ original front) back post := by
  constructor
  · refine fun h => ⟨fun front' old new back' hsplit => ?_, fun front' old new back' hsplit => ?_⟩
    · have hP := h front' old new (back' ++ back) (by rw [hsplit]; simp)
      rwa [original_append, List.append_assoc] at hP
    · have hP := h (front ++ front') old new back' (by rw [hsplit]; simp)
      rwa [original_append, ← List.append_assoc] at hP
  · rintro ⟨hfront, hback⟩ front' old new back' hsplit
    -- the text that is put in is put in on one side or on the other
    rcases List.append_eq_append_iff.1 hsplit with ⟨middle, rfl, hrest⟩ | ⟨middle, rfl, hrest⟩
    · have hP := hback middle old new back' hrest
      rwa [List.append_assoc, ← original_append] at hP
    · cases middle with
      | nil =>
        have hP := hback [] old new back' (by simpa using hrest.symm)
        simpa using hP
      | cons edit middle =>
        obtain ⟨rfl, rfl⟩ := List.cons.inj hrest
        have hP := hfront front' old new middle rfl
        rwa [← List.append_assoc, ← original_append] at hP

theorem each_swapped : Each P pre (.swapped old new :: edits) post ↔
    P pre old new (original edits ++ post) ∧ Each P (pre ++ old) edits post := by
  rw [← List.singleton_append, each_append]
  refine and_congr ⟨fun h => ?_, fun h front old' new' back hsplit => ?_⟩ (by simp)
  · simpa using h [] old new [] rfl
  · obtain ⟨rfl, hrest⟩ | ⟨middle, rfl, hrest⟩ := List.append_eq_cons_iff.1 hsplit.symm
    · obtain ⟨hedit, rfl⟩ := List.cons.inj hrest
      cases hedit
      simpa using h
    · simp at hrest

/-- What is kept in front of the same place is the same, whatever is kept there. -/
theorem exists_append_of_edited {middle : List Edit} (xs : List Char)
    (h : front ++ back = middle ++ .kept c :: edits)
    (hedited : edited front ++ xs = edited middle) :
    ∃ between, middle = front ++ between ∧ back = between ++ .kept c :: edits ∧
      edited between = xs := by
  rcases List.append_eq_append_iff.1 h with ⟨between, rfl, hback⟩ | ⟨between, rfl, hrest⟩
  · exact ⟨between, rfl, hback, by simpa using hedited.symm⟩
  · cases between with
    | nil =>
      rw [List.append_nil] at hedited
      exact ⟨[], by simp, by simpa using hrest.symm, by simpa using hedited⟩
    | cons edit between =>
      obtain ⟨rfl, -⟩ := List.cons.inj hrest
      simp at hedited

/-- The edits of two changes, where a part of the text in between has been passed. -/
theorem exists_merged_from {second : List Edit} (xs : List Char)
    (hfirst : Each P pre edits post) (htext : edited edits = xs ++ original second)
    (hsecond : ∀ front old new back, second = front ++ .swapped old new :: back →
      old ≠ [] ∧ ∃ front' back', edits = front' ++ (keep old ++ back') ∧
        edited front' = xs ++ original front ∧
        P (pre ++ original front') old new (original back' ++ post)) :
    ∃ merged, original merged = original edits ∧ edited merged = xs ++ edited second ∧
      Each P pre merged post := by
  -- the induction follows the second change, and `xs` is what it has kept of the text in between
  induction second generalizing edits pre xs with
  | nil => exact ⟨edits, rfl, htext, hfirst⟩
  | cons edit second ih =>
    cases edit with
    | kept c =>
      obtain ⟨merged, horiginal, hedited, heach⟩ := ih (xs ++ [c]) hfirst (by simpa using htext)
        fun front old new back hsplit => by
          have h := hsecond (.kept c :: front) old new back (by rw [hsplit]; rfl)
          simpa using h
      exact ⟨merged, horiginal, by simpa using hedited, heach⟩
    | swapped old new =>
      obtain ⟨-, front, back, rfl, hfront, hP⟩ := hsecond [] old new second rfl
      rw [original_nil, List.append_nil] at hfront
      rw [each_append, each_append, original_keep] at hfirst
      rw [edited_append, edited_append, edited_keep, hfront, original_swapped] at htext
      -- behind the part that is changed first, both changes go on as they would from there
      obtain ⟨merged, horiginal, hedited, heach⟩ := ih [] hfirst.2.2
        (by simpa using htext) fun front' old' new' back' hsplit => by
          obtain ⟨hne, earlier, later, hedits, hearlier, hP'⟩ :=
            hsecond (.swapped old new :: front') old' new' back' (by rw [hsplit]; rfl)
          obtain ⟨d, ds, rfl⟩ := List.exists_cons_of_ne_nil hne
          rw [keep_cons, List.cons_append, ← List.append_assoc] at hedits
          obtain ⟨between, rfl, rfl, hbetween⟩ :=
            exists_append_of_edited (original front') hedits (by simp [hearlier, hfront])
          refine ⟨hne, between, later, rfl, by simpa using hbetween, ?_⟩
          simpa using hP'
      refine ⟨front ++ .swapped old new :: merged, by simp [horiginal], by simp [hfront, hedited],
        ?_⟩
      rw [each_append, each_swapped, original_swapped, horiginal]
      rw [original_append, original_keep] at hfirst
      exact ⟨hfirst.1, hP, heach⟩

/-- **Two changes in one.** The second change keeps to characters that the first one kept; then
one change of the text does what both do, and changes what they change. -/
theorem exists_merged {first second : List Edit}
    (hfirst : ∀ left old new right, Swaps first left old new right → P left old new right)
    (htext : edited first = original second)
    (hsecond : ∀ left old new right, Swaps second left old new right →
      old ≠ [] ∧ ∃ front back, first = front ++ (keep old ++ back) ∧ edited front = left ∧
        P (original front) old new (original back)) :
    ∃ merged, original merged = original first ∧ edited merged = edited second ∧
      ∀ left old new right, Swaps merged left old new right → P left old new right := by
  obtain ⟨merged, horiginal, hedited, heach⟩ :=
    exists_merged_from [] (each_iff.2 hfirst) (by simpa using htext)
      fun front old new back hsplit => by
        obtain ⟨hne, front', back', hfirst', hedited, hP⟩ :=
          hsecond _ old new _ ⟨front, back, hsplit, rfl, rfl⟩
        exact ⟨hne, front', back', hfirst', by simpa using hedited, by simpa using hP⟩
  exact ⟨merged, horiginal, by simpa using hedited, each_iff.1 heach⟩

end Merging

end Syndication.Text
