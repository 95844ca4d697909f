import Syndication.Files.Path

/-!
# The names in a directory

A directory lists its entries by name. The name of an entry has no slash and is neither empty
nor one of the two that stand for directories, so it can be read off again from the path of the
entry, and so can its extension: the part after its last point, where a part before it is left.

* `fileName?_entryPath`: the name of an entry, from its path.
* `extension?_entryPath_eq_some_iff`: the extension of an entry, from its name.
-/

namespace Syndication

namespace Chars

variable {separator : Char} {cs before after : List Char}

theorem splitFirst?_eq_some_iff :
    splitFirst? separator cs = some (before, after) ↔
      cs = before ++ separator :: after ∧ separator ∉ before := by
  induction cs generalizing before with
  | nil => simp [splitFirst?]
  | cons c cs ih =>
    rw [splitFirst?]
    split
    · rename_i hc
      subst hc
      cases before with
      | nil => simp [eq_comm]
      | cons d before => simp +contextual
    · rename_i hc
      cases before with
      | nil => simp [hc]
      | cons d before =>
        simp only [Option.map_eq_some_iff, Prod.mk.injEq, Prod.exists, List.cons.injEq]
        constructor
        · rintro ⟨_, _, hcut, ⟨rfl, rfl⟩, rfl⟩
          obtain ⟨rfl, hnot⟩ := ih.1 hcut
          exact ⟨by simp, by simp [hnot, Ne.symm hc]⟩
        · rintro ⟨hcs, hnot⟩
          obtain ⟨rfl, rfl⟩ := List.cons.inj hcs
          exact ⟨before, after, ih.2 ⟨rfl, fun hb => hnot (List.mem_cons_of_mem _ hb)⟩,
            ⟨rfl, rfl⟩, rfl⟩

end Chars

namespace Files

variable {name extension : String}

/-- **A name that an entry of a directory may have.** -/
structure IsName (name : String) : Prop where
  noSlash : '/' ∉ name.toList
  goesOn : staysHere name = false
  notBack : name ≠ ".."

instance (name : String) : Decidable (IsName name) :=
  decidable_of_iff ('/' ∉ name.toList ∧ staysHere name = false ∧ name ≠ "..")
    ⟨fun ⟨noSlash, goesOn, notBack⟩ => ⟨noSlash, goesOn, notBack⟩,
      fun h => ⟨h.noSlash, h.goesOn, h.notBack⟩⟩

theorem exists_toList_entryPath (directory name : String) :
    ∃ before, (entryPath directory name).toList = before ++ '/' :: name.toList := by
  rw [entryPath]
  split
  · rename_i hends
    obtain ⟨rest, hrest⟩ := Option.isSome_iff_exists.1 hends
    have hdirectory : directory.toList = rest.reverse ++ ['/'] := by
      have hreversed := Chars.stripPrefix?_eq_some_iff.1 hrest
      simpa using congrArg List.reverse hreversed
    exact ⟨rest.reverse, by simp [hdirectory]⟩
  · exact ⟨directory.toList, by simp⟩

/-- The name of an entry, from its path. -/
theorem fileName?_entryPath (h : IsName name) (directory : String) :
    fileName? (entryPath directory name) = some name := by
  obtain ⟨before, hpath⟩ := exists_toList_entryPath directory name
  have hname : Chars.splitOn '/' name.toList = [name.toList] := by
    refine Chars.splitWhere_of_forall fun c hc => ?_
    rw [beq_eq_false_iff_ne]
    rintro rfl
    exact h.noSlash hc
  have hpieces : pieces (entryPath directory name) =
      (Chars.splitOn '/' before).map String.ofList ++ [name] := by
    rw [pieces, hpath, Chars.splitOn, Chars.splitWhere_append (by simp)]
    change List.map _ (_ ++ Chars.splitOn '/' name.toList) = _
    rw [hname, List.map_append]
    simp [Chars.splitOn]
  have hkept : [name].filter (!staysHere ·) = [name] := by simp [h.goesOn]
  rw [fileName?, hpieces, List.filter_append, hkept, List.getLast?_concat]
  simp [h.notBack]

/-- The extension is what follows the last point, unless nothing stands before that point. -/
theorem splitName_eq_some_iff :
    (splitName name).2 = some extension ↔
      '.' ∉ extension.toList ∧ ∃ stem : String, stem ≠ "" ∧ name = stem ++ "." ++ extension := by
  constructor
  · -- the last point is the first of the name in reverse
    intro h
    rw [splitName] at h
    split at h
    · rename_i extension' stem hcut
      obtain ⟨hreversed, hnot⟩ := Chars.splitFirst?_eq_some_iff.1 hcut
      split at h
      · cases h
      · rename_i hstem
        obtain rfl : String.ofList extension'.reverse = extension := Option.some.inj h
        refine ⟨by simpa using hnot, String.ofList stem.reverse, ?_, ?_⟩
        · intro hempty
          have hnil := congrArg String.toList hempty
          simp only [String.toList_ofList] at hnil
          simp_all
        · rw [← String.toList_inj]
          simpa using congrArg List.reverse hreversed
    · cases h
  · rintro ⟨hnot, stem, hstem, rfl⟩
    have hcut : Chars.splitFirst? '.' (stem ++ "." ++ extension).toList.reverse =
        some (extension.toList.reverse, stem.toList.reverse) := by
      refine Chars.splitFirst?_eq_some_iff.2 ⟨by simp, by simpa using hnot⟩
    have hne : stem.toList.reverse.isEmpty = false := by
      simpa [String.toList_eq_nil_iff] using hstem
    rw [splitName, hcut]
    simp [hne]

/-- The extension of an entry, from its name. -/
theorem extension?_entryPath_eq_some_iff (h : IsName name) (directory : String) :
    extension? (entryPath directory name) = some extension ↔
      '.' ∉ extension.toList ∧ ∃ stem : String, stem ≠ "" ∧ name = stem ++ "." ++ extension := by
  rw [extension?, fileName?_entryPath h, Option.bind_some, splitName_eq_some_iff]

end Files

end Syndication
