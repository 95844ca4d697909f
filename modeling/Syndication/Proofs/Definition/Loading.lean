import Mathlib.Data.List.Nodup
import Mathlib.Data.List.Induction
import Syndication.Definition.Library
import Syndication.Files.Tree
import Syndication.Proofs.Files.Naming

/-!
# Definition files are loaded independently

A directory is loaded file by file, in the order of the names, and the ids of the definitions
that were taken so far go along from file to file. What comes of a file therefore depends on the
files before it, but on nothing of them besides the ids that they were given: a file that is
refused leaves no trace.

`Library.verdicts` puts every file together with what came of it. What comes of one more file is
`DefinitionFile.resultAfter` the verdicts before it (`verdicts_concat`), and everything else is
shown by adding the files one after another.

Main statements:

* `verdicts_concat`: what comes of one more file.
* `nodup_ids`: no id is given twice.
* `verdicts_filter`: files that were refused can be left out.
* `Library.loads_independently`: the library of a directory.
-/

namespace Syndication

/-! ### The definition files of a directory -/

namespace DefinitionFormat

/-- The extensions of the files of a format. -/
def extensions : DefinitionFormat → List String
  | .yaml => ["yaml", "yml"]
  | .json => ["json"]

/-- **The names of the files of a format**: something, a point and an extension of the format. -/
def Names (format : DefinitionFormat) (name : String) : Prop :=
  ∃ stem : String, stem ≠ "" ∧ ∃ extension ∈ format.extensions, name = stem ++ "." ++ extension

theorem ofPath?_eq_some_iff {path : String} {format : DefinitionFormat} :
    ofPath? path = some format ↔
      ∃ extension ∈ format.extensions, Files.extension? path = some extension := by
  unfold ofPath?
  cases format <;> split <;> simp_all [extensions]

theorem ofPath?_entryPath_eq_some_iff {name : String} {format : DefinitionFormat}
    (h : Files.IsName name) (directory : String) :
    ofPath? (Files.entryPath directory name) = some format ↔ format.Names name := by
  have hpoint : ∀ extension ∈ format.extensions, '.' ∉ extension.toList := by
    cases format <;> decide
  simp only [ofPath?_eq_some_iff, Files.extension?_entryPath_eq_some_iff h]
  constructor
  · rintro ⟨extension, hmem, -, stem, hstem, hname⟩
    exact ⟨stem, hstem, extension, hmem, hname⟩
  · rintro ⟨stem, hstem, extension, hmem, hname⟩
    exact ⟨extension, hmem, hpoint extension hmem, stem, hstem, hname⟩

end DefinitionFormat

/-- **A directory that can be read**, and the names of what lies in it. -/
structure FileTree.Lists (t : FileTree) (directory : String) (names : List String) : Prop where
  entry : t.entry directory = .directory names
  nodup : names.Nodup
  isName : ∀ name ∈ names, Files.IsName name

/-- **The definition files of a directory** are the files in it that have the name of a file of
some format, whether they can be read or not. -/
structure DefinitionFile.StandsIn (f : DefinitionFile) (t : FileTree) (directory : String)
    (names : List String) : Prop where
  listed : f.name ∈ names
  path : f.path = Files.entryPath directory f.name
  format : f.format.Names f.name
  entry : t.entry f.path = f.content.elim .unreadable .file

namespace Library

variable {parse : DefinitionParser} {t t' : FileTree} {directory name : String}
  {names names' : List String} {files : List DefinitionFile} {f : DefinitionFile}

/-- The definition file that an entry is, if it is one. -/
def fileAt? (t : FileTree) (directory name : String) : Option DefinitionFile :=
  let path := Files.entryPath directory name
  (DefinitionFormat.ofPath? path).bind fun format =>
    match t.entry path with
    | .file content => some ⟨name, path, format, some content⟩
    | .unreadable => some ⟨name, path, format, none⟩
    | _ => none

/-- The definition files of a directory, in the order of their names. -/
def filesIn (t : FileTree) (directory : String) (names : List String) : List DefinitionFile :=
  sorted (names.filterMap (fileAt? t directory))

theorem fileAt?_eq_some_iff (h : Files.IsName name) :
    fileAt? t directory name = some f ↔
      f.name = name ∧ f.path = Files.entryPath directory name ∧ f.format.Names name ∧
        t.entry f.path = f.content.elim .unreadable .file := by
  obtain ⟨name', path, format, content⟩ := f
  simp only [fileAt?, Option.bind_eq_some_iff, DefinitionFormat.ofPath?_entryPath_eq_some_iff h]
  constructor
  · rintro ⟨format', hformat, hentry⟩
    split at hentry <;> cases hentry
    · exact ⟨rfl, rfl, hformat, ‹_›⟩
    · exact ⟨rfl, rfl, hformat, ‹_›⟩
  · rintro ⟨rfl, rfl, hformat, hentry⟩
    refine ⟨format, hformat, ?_⟩
    rw [hentry]
    cases content <;> rfl

theorem perm_sorted (files : List DefinitionFile) : (sorted files).Perm files :=
  List.mergeSort_perm files _

theorem mem_filesIn_iff (h : t.Lists directory names) :
    f ∈ filesIn t directory names ↔ f.StandsIn t directory names := by
  rw [filesIn, (perm_sorted _).mem_iff, List.mem_filterMap]
  constructor
  · rintro ⟨name, hname, hf⟩
    obtain ⟨rfl, hpath, hformat, hentry⟩ := (fileAt?_eq_some_iff (h.isName name hname)).1 hf
    exact ⟨hname, hpath, hformat, hentry⟩
  · rintro ⟨hname, hpath, hformat, hentry⟩
    exact ⟨f.name, hname, (fileAt?_eq_some_iff (h.isName _ hname)).2 ⟨rfl, hpath, hformat, hentry⟩⟩

theorem name_of_fileAt? (hf : fileAt? t directory name = some f) : f.name = name := by
  simp only [fileAt?, Option.bind_eq_some_iff] at hf
  obtain ⟨format, -, hentry⟩ := hf
  split at hentry <;> cases hentry <;> rfl

/-- No two files have the same name, so the order of the names leaves no choice. -/
theorem pairwise_filesIn (h : t.Lists directory names) :
    (filesIn t directory names).Pairwise (·.name < ·.name) := by
  have hnodup : ((names.filterMap (fileAt? t directory)).map (·.name)).Nodup := by
    refine h.nodup.sublist ?_
    clear h
    induction names with
    | nil => exact .slnil
    | cons name rest ih =>
      cases hf : fileAt? t directory name with
      | none => simpa [hf] using ih.cons name
      | some f => simpa [hf, name_of_fileAt? hf] using ih.cons_cons name
  have hordered : (filesIn t directory names).Pairwise (·.name ≤ ·.name) := by
    have hsorted : (filesIn t directory names).Pairwise (decide <| ·.name ≤ ·.name) := by
      refine List.pairwise_mergeSort ?_ ?_ _
      · simpa using fun a b c => String.le_trans
      · simpa using fun a b => String.le_total _ _
    exact hsorted.imp of_decide_eq_true
  have hdistinct : (filesIn t directory names).Pairwise (·.name ≠ ·.name) := by
    rw [← ((perm_sorted _).map DefinitionFile.name).nodup_iff] at hnodup
    exact List.pairwise_map.1 hnodup
  refine (hordered.and hdistinct).imp fun {f g} hfg => ?_
  exact String.not_le.1 fun hgf => hfg.2 (String.le_antisymm hfg.1 hgf)

/-- Only what lies in a directory is looked at, and nothing is changed. -/
theorem run_files (t : FileTree) (directory : String) (names : List String) :
    FileTree.run (Library.files directory names) t =
      (names.filterMap (fileAt? t directory), t) := by
  have hfile (name : String) :
      FileTree.run (file? directory name) t = (fileAt? t directory name, t) := by
    unfold file? fileAt?
    dsimp only
    cases DefinitionFormat.ofPath? (Files.entryPath directory name) <;> rfl
  induction names with
  | nil => rfl
  | cons name rest ih =>
    rw [Library.files, List.filterMap_cons]
    refine (FileTree.run_bind _ _ t).trans ?_
    rw [hfile]
    refine (FileTree.run_bind _ _ t).trans ?_
    rw [ih]
    cases fileAt? t directory name <;> rfl

end Library

/-! ### What comes of the files -/

/-- A file, and what came of it. -/
structure DefinitionFile.Verdict where
  file : DefinitionFile
  result : DefinitionResult

namespace DefinitionFile.Verdict

/-- The id with which the file was taken, if it was. -/
def id? (v : Verdict) : Option String :=
  v.result.toOption.map (·.id)

/-- Whether the file was taken with an id. -/
def takes (v : Verdict) (id : String) : Bool :=
  v.id? == some id

@[simp] theorem takes_error (f : DefinitionFile) (e : DefinitionError) (id : String) :
    takes ⟨f, .error e⟩ id = false := rfl

@[simp] theorem takes_ok (f : DefinitionFile) (d : Definition) (id : String) :
    takes ⟨f, .ok d⟩ id = (d.id == id) := rfl

theorem takes_iff {v : Verdict} {id : String} :
    v.takes id = true ↔ ∃ d, v.result = .ok d ∧ d.id = id := by
  obtain ⟨f, result⟩ := v
  cases result <;> simp

end DefinitionFile.Verdict

/-- **What comes of a file** after others: it is refused for itself, or because a file before it
was taken with its id, or it is taken. -/
def DefinitionFile.resultAfter (parse : DefinitionParser) (earlier : List Verdict)
    (f : DefinitionFile) : DefinitionResult :=
  match f.read parse with
  | .error e => .error e
  | .ok d =>
    match earlier.find? (·.takes d.id) with
    | some first => .error (.duplicateId d.id first.file.path f.path)
    | none => .ok d

theorem DefinitionFile.resultAfter_eq_ok_iff {parse : DefinitionParser} {earlier : List Verdict}
    {f : DefinitionFile} {d : Definition} :
    f.resultAfter parse earlier = .ok d ↔
      f.read parse = .ok d ∧ ∀ v ∈ earlier, v.takes d.id = false := by
  unfold resultAfter
  split
  · rename_i e hread
    simp [hread]
  · rename_i d' hread
    rw [hread]
    split
    · rename_i first hfirst
      have htakes := List.find?_some hfirst
      refine ⟨nofun, ?_⟩
      rintro ⟨⟨⟩, hnone⟩
      rw [hnone first (List.mem_of_find?_eq_some hfirst)] at htakes
      cases htakes
    · rename_i hnone
      refine ⟨?_, And.left⟩
      rintro ⟨⟩
      exact ⟨rfl, by simpa using hnone⟩

/-- **A file fails** that cannot be read as text, does not parse, or holds no valid definition. -/
def DefinitionFile.Fails (parse : DefinitionParser) (f : DefinitionFile) : Prop :=
  ∃ e, f.read parse = .error e

namespace Library

open DefinitionFile (Verdict)

variable {parse : DefinitionParser} {t t' : FileTree} {directory : String}
  {names names' : List String} {files : List DefinitionFile}
  {taken : List (String × String)} {earlier : List Verdict}

/-- The verdicts on files that are read one after another. -/
def verdictsFrom (parse : DefinitionParser) (taken : List (String × String))
    (files : List DefinitionFile) : List Verdict :=
  (files.zip (resultsFrom parse taken files)).map fun (file, result) => ⟨file, result⟩

/-- **The verdicts on files**, in their order. -/
def verdicts (parse : DefinitionParser) (files : List DefinitionFile) : List Verdict :=
  verdictsFrom parse [] files

@[simp] theorem map_file_verdicts (parse : DefinitionParser) (files : List DefinitionFile) :
    (verdicts parse files).map (·.file) = files := by
  rw [verdicts, verdictsFrom, List.map_map]
  exact List.map_fst_zip (Nat.le_of_eq (results_length parse [] files).symm)

theorem map_result_verdicts (parse : DefinitionParser) (files : List DefinitionFile) :
    (verdicts parse files).map (·.result) = resultsFrom parse [] files := by
  rw [verdicts, verdictsFrom, List.map_map]
  exact List.map_snd_zip (Nat.le_of_eq (results_length parse [] files))

/-- The ids that go along are those of the files that were taken. -/
def Records (taken : List (String × String)) (earlier : List Verdict) : Prop :=
  ∀ id, taken.lookup id = (earlier.find? (·.takes id)).map (·.file.path)

/-- What one file does to the ids that go along. -/
theorem exists_records_cons (parse : DefinitionParser) (h : Records taken earlier)
    (f : DefinitionFile) :
    ∃ taken', Records taken' (earlier ++ [⟨f, f.resultAfter parse earlier⟩]) ∧
      ∀ rest, verdictsFrom parse taken (f :: rest) =
        ⟨f, f.resultAfter parse earlier⟩ :: verdictsFrom parse taken' rest := by
  have hrefused (e : DefinitionError) : Records taken (earlier ++ [⟨f, .error e⟩]) := by
    intro id
    rw [h id, List.find?_append, List.find?_singleton, Verdict.takes_error]
    simp
  cases hread : f.read parse with
  | error e =>
    have hresult : f.resultAfter parse earlier = .error e := by
      rw [DefinitionFile.resultAfter, hread]
    rw [hresult]
    exact ⟨taken, hrefused e, fun rest => by simp [verdictsFrom, resultsFrom, hread]⟩
  | ok d =>
    have hid := h d.id
    cases hfirst : earlier.find? (·.takes d.id) with
    | some first =>
      -- the id stays with the file that was taken first
      have hresult : f.resultAfter parse earlier =
          .error (.duplicateId d.id first.file.path f.path) := by
        simp only [DefinitionFile.resultAfter, hread, hfirst]
      rw [hresult]
      rw [hfirst] at hid
      exact ⟨taken, hrefused _, fun rest => by simp [verdictsFrom, resultsFrom, hread, hid]⟩
    | none =>
      have hresult : f.resultAfter parse earlier = .ok d := by
        simp only [DefinitionFile.resultAfter, hread, hfirst]
      rw [hresult]
      rw [hfirst] at hid
      -- from now on the id goes along with this file
      refine ⟨(d.id, f.path) :: taken, fun id => ?_, fun rest => by
        simp [verdictsFrom, resultsFrom, hread, hid]⟩
      rw [List.find?_append, List.find?_singleton, Verdict.takes_ok, List.lookup_cons]
      by_cases hsame : id = d.id
      · subst hsame
        simp [hfirst]
      · rw [beq_eq_false_iff_ne.2 hsame]
        simp [Ne.symm hsame, h id]

/-- What several files do. -/
theorem exists_records_append (parse : DefinitionParser) (h : Records taken earlier)
    (files : List DefinitionFile) :
    ∃ taken', Records taken' (earlier ++ verdictsFrom parse taken files) ∧
      ∀ rest, verdictsFrom parse taken (files ++ rest) =
        verdictsFrom parse taken files ++ verdictsFrom parse taken' rest := by
  induction files generalizing taken earlier with
  | nil => exact ⟨taken, by simpa [verdictsFrom, resultsFrom] using h, fun rest => rfl⟩
  | cons f files ih =>
    obtain ⟨between, hbetween, hcons⟩ := exists_records_cons parse h f
    obtain ⟨taken', hrecords, happend⟩ := ih hbetween
    refine ⟨taken', ?_, fun rest => ?_⟩
    · rw [hcons]
      simpa using hrecords
    · rw [List.cons_append, hcons, hcons, happend]
      rfl

/-- **What comes of one more file.** -/
theorem verdicts_concat (files : List DefinitionFile) (f : DefinitionFile) :
    verdicts parse (files ++ [f]) =
      verdicts parse files ++ [⟨f, f.resultAfter parse (verdicts parse files)⟩] := by
  have hnone : Records [] [] := fun _ => rfl
  obtain ⟨taken, hrecords, happend⟩ := exists_records_append parse hnone files
  obtain ⟨_, -, hcons⟩ := exists_records_cons parse hrecords f
  rw [verdicts, happend, hcons]
  rfl

theorem verdicts_nil : verdicts parse [] = [] :=
  rfl

/-- Every result is what comes of its file after the verdicts before it. -/
theorem result_of_split {v : Verdict} {later : List Verdict}
    (h : verdicts parse files = earlier ++ v :: later) :
    v.result = v.file.resultAfter parse earlier := by
  induction files using List.reverseRecOn generalizing later with
  | nil => simp [verdicts_nil] at h
  | append_singleton files f ih =>
    rw [verdicts_concat] at h
    rcases List.eq_nil_or_concat later with rfl | ⟨later', last, rfl⟩
    · -- the verdict on the last file
      obtain ⟨hearlier, hlast⟩ := List.append_inj' h rfl
      rw [← hearlier, ← List.singleton_injective hlast]
    · rw [List.concat_eq_append, ← List.cons_append, ← List.append_assoc] at h
      exact ih (List.append_inj' h rfl).1

/-- Only a file that holds a definition is taken. -/
theorem exists_read_of_takes {v : Verdict} {id : String} (hv : v ∈ verdicts parse files)
    (htakes : v.takes id = true) : ∃ d, v.file.read parse = .ok d := by
  obtain ⟨earlier, later, hsplit⟩ := List.append_of_mem hv
  obtain ⟨d, hd, -⟩ := Verdict.takes_iff.1 htakes
  rw [result_of_split hsplit] at hd
  exact ⟨d, (DefinitionFile.resultAfter_eq_ok_iff.1 hd).1⟩

/-- **No id is given twice.** -/
theorem nodup_ids (parse : DefinitionParser) (files : List DefinitionFile) :
    ((verdicts parse files).filterMap (·.id?)).Nodup := by
  induction files using List.reverseRecOn with
  | nil => exact List.nodup_nil
  | append_singleton files f ih =>
    rw [verdicts_concat, List.filterMap_append]
    cases hresult : f.resultAfter parse (verdicts parse files) with
    | error e => simpa [Verdict.id?, Except.toOption] using ih
    | ok d =>
      have hnew : d.id ∉ (verdicts parse files).filterMap (·.id?) := by
        rw [List.mem_filterMap]
        rintro ⟨v, hv, hid⟩
        have htakes : v.takes d.id = true := beq_iff_eq.2 hid
        rw [(DefinitionFile.resultAfter_eq_ok_iff.1 hresult).2 v hv] at htakes
        cases htakes
      change (_ ++ [d.id]).Nodup
      rw [← List.concat_eq_append]
      exact ih.concat hnew

/-! ### Files that come and go -/

/-- Files that were refused have no part in what comes of the files after them. -/
theorem resultAfter_filter {keep : Verdict → Bool}
    (h : ∀ v ∈ earlier, keep v = false → ∀ id, v.takes id = false) (f : DefinitionFile) :
    f.resultAfter parse (earlier.filter keep) = f.resultAfter parse earlier := by
  have hfirst (id : String) :
      (earlier.filter keep).find? (·.takes id) = earlier.find? (·.takes id) := by
    induction earlier with
    | nil => rfl
    | cons v earlier ih =>
      obtain ⟨hv, hothers⟩ := List.forall_mem_cons.1 h
      cases hkeep : keep v with
      | true => rw [List.filter_cons_of_pos hkeep, List.find?_cons, List.find?_cons, ih hothers]
      | false =>
        rw [List.filter_cons_of_neg (by simp [hkeep]), ih hothers, List.find?_cons, hv hkeep id]
  simp only [DefinitionFile.resultAfter, hfirst]

/-- **Files that were refused can be left out**, for whatever reason they were, and nothing else
changes. -/
theorem verdicts_filter {keep : DefinitionFile → Bool}
    (h : ∀ v ∈ verdicts parse files, keep v.file = false → ∀ id, v.takes id = false) :
    verdicts parse (files.filter keep) = (verdicts parse files).filter (keep ·.file) := by
  induction files using List.reverseRecOn with
  | nil => rfl
  | append_singleton files f ih =>
    rw [verdicts_concat] at h
    have hbefore : ∀ v ∈ verdicts parse files, keep v.file = false → ∀ id, v.takes id = false :=
      fun v hv => h v (List.mem_append_left _ hv)
    rw [verdicts_concat, List.filter_append, List.filter_append]
    cases hkeep : keep f with
    | false => simpa [hkeep] using ih hbefore
    | true =>
      have hlast : [f].filter keep = [f] := List.filter_cons_of_pos hkeep
      rw [hlast, verdicts_concat, ih hbefore, resultAfter_filter hbefore]
      simp [hkeep]

/-- A file that fails is refused wherever it stands. -/
theorem takes_eq_false_of_fails {v : Verdict} (hv : v ∈ verdicts parse files)
    (hfails : v.file.Fails parse) (id : String) : v.takes id = false := by
  obtain ⟨e, he⟩ := hfails
  by_contra htakes
  obtain ⟨d, hd⟩ := exists_read_of_takes hv (Bool.not_eq_false _ ▸ htakes)
  rw [he] at hd
  cases hd

theorem file_mem_of_mem_verdicts {v : Verdict} (hv : v ∈ verdicts parse files) :
    v.file ∈ files := by
  rw [← map_file_verdicts parse files]
  exact List.mem_map_of_mem hv

/-- In two directories the files that both hold stand in the same order. -/
theorem filter_filesIn (h : t.Lists directory names) (h' : t'.Lists directory names') :
    (filesIn t directory names).filter (· ∈ filesIn t' directory names') =
      (filesIn t' directory names').filter (· ∈ filesIn t directory names) := by
  have hordered := pairwise_filesIn h
  have hordered' := pairwise_filesIn h'
  refine List.Perm.eq_of_pairwise ?_ (hordered.filter _) (hordered'.filter _) ?_
  · intro f g _ _ hfg hgf
    exact absurd hgf (String.lt_asymm hfg)
  · have hnodup {l : List DefinitionFile} (hl : l.Pairwise (·.name < ·.name)) : l.Nodup := by
      refine hl.imp ?_
      rintro f _ hlt rfl
      exact String.lt_irrefl f.name hlt
    refine (List.perm_ext_iff_of_nodup ((hnodup hordered).filter _)
      ((hnodup hordered').filter _)).2 fun f => ?_
    simp only [List.mem_filter, decide_eq_true_eq]
    exact and_comm

/-- What comes of reading a directory. -/
theorem run_loadWith (parse : DefinitionParser) (t : FileTree) (directory : String) :
    FileTree.run (loadWith parse directory) t =
      (match t.entry directory with
        | .directory names =>
          .ok ⟨directory, (verdicts parse (filesIn t directory names)).map (·.result)⟩
        | _ => .error (.missingDirectory directory), t) := by
  refine (FileTree.run_bind _ _ t).trans ?_
  change FileTree.run (match t.entry directory with
    | .directory names => _
    | _ => _) t = _
  cases t.entry directory with
  | absent | file | unreadable => rfl
  | directory names =>
    refine (FileTree.run_bind _ _ t).trans ?_
    simp only [run_files, map_result_verdicts]
    rfl

/-- **Definition files are loaded independently.** The library of a directory that can be read has
one result for each definition file, in the order of the names. No id is given twice, and every
result is the file's own error, the refusal that names the first file before it that was taken
with its id, or its definition. In a directory that differs in files alone that fail, the files
that are in both have the same results. -/
theorem loads_independently (parse : DefinitionParser) (h : t.Lists directory names) :
    FileTree.run (loadWith parse directory) t =
      (.ok ⟨directory, (verdicts parse (filesIn t directory names)).map (·.result)⟩, t) ∧
    -- one result for each file, in the order of the names
    (verdicts parse (filesIn t directory names)).map (·.file) = filesIn t directory names ∧
    (filesIn t directory names).Pairwise (·.name < ·.name) ∧
    (∀ f, f ∈ filesIn t directory names ↔ f.StandsIn t directory names) ∧
    -- what the results are
    ((verdicts parse (filesIn t directory names)).filterMap (·.id?)).Nodup ∧
    (∀ earlier v later,
      verdicts parse (filesIn t directory names) = earlier ++ v :: later →
        v.result = v.file.resultAfter parse earlier) ∧
    -- files that fail can come and go
    ∀ (t' : FileTree) (names' : List String), t'.Lists directory names' →
      (∀ f ∈ filesIn t directory names, f ∉ filesIn t' directory names' → f.Fails parse) →
      (∀ f ∈ filesIn t' directory names', f ∉ filesIn t directory names → f.Fails parse) →
      (verdicts parse (filesIn t directory names)).filter
          (·.file ∈ filesIn t' directory names') =
        (verdicts parse (filesIn t' directory names')).filter
          (·.file ∈ filesIn t directory names) := by
  refine ⟨?_, map_file_verdicts _ _, pairwise_filesIn h, fun f => mem_filesIn_iff h,
    nodup_ids _ _, fun earlier v later hsplit => result_of_split hsplit, ?_⟩
  · rw [run_loadWith, h.entry]
  · intro t' names' h' hgone hnew
    -- both sides are the verdicts on the files that both directories hold
    have hleft : verdicts parse
        ((filesIn t directory names).filter (· ∈ filesIn t' directory names')) = _ :=
      verdicts_filter fun v hv hout => takes_eq_false_of_fails hv
        (hgone v.file (file_mem_of_mem_verdicts hv) (of_decide_eq_false hout))
    have hright : verdicts parse
        ((filesIn t' directory names').filter (· ∈ filesIn t directory names)) = _ :=
      verdicts_filter fun v hv hout => takes_eq_false_of_fails hv
        (hnew v.file (file_mem_of_mem_verdicts hv) (of_decide_eq_false hout))
    rw [← hleft, ← hright, filter_filesIn h h']

end Library

/-! ### Definitions in JSON -/

/-- What bytes that write a definition in JSON are read as. -/
def DefinitionSpec.reading? (content : List UInt8) : Option Definition :=
  (((Text.decode? content).bind Json.scan?).bind ofDocument?).bind fun spec =>
    (Definition.validate spec).toOption

theorem DefinitionFile.read_standard_of_reading? {f : DefinitionFile} {content : List UInt8}
    {d : Definition} (hformat : f.format = .json) (hcontent : f.content = some content)
    (h : DefinitionSpec.reading? content = some d) : f.read .standard = .ok d := by
  simp only [DefinitionSpec.reading?, Option.bind_eq_some_iff] at h
  obtain ⟨spec, ⟨document, ⟨text, htext, hdocument⟩, hspec⟩, hvalid⟩ := h
  have hstandard : DefinitionParser.standard .json (String.ofList text) = some spec := by
    simp [DefinitionParser.standard, DefinitionFormat.document?, Json.document?, hdocument, hspec]
  simp only [read, hcontent, hformat, Option.bind_some, htext, hstandard]
  cases hv : Definition.validate spec with
  | error e => simp [hv, Except.toOption] at hvalid
  | ok d' => simpa [hv, Except.toOption] using hvalid

/-! ### A directory with a file of each kind -/

namespace MixedLibrary

section Files

variable (content : List UInt8)

/-- A file of the directory. -/
def file (name : String) (content : Option (List UInt8)) : DefinitionFile :=
  ⟨name, "definitions/" ++ name, .json, content⟩

/-- Two files with a definition, a file that cannot be read between them, and a file with another
name. -/
def tree : FileTree where
  directories := [["definitions"]]
  files :=
    [(["c.json", "definitions"], some content), (["b.json", "definitions"], none),
      (["a.json", "definitions"], some content), (["notes.txt", "definitions"], some [])]

def names : List String :=
  ["c.json", "b.json", "a.json", "notes.txt"]

/-- The directory without the file that cannot be read. -/
def tidied : FileTree where
  directories := [["definitions"]]
  files := [(["a.json", "definitions"], some content), (["c.json", "definitions"], some content)]

theorem lists_tree : (tree content).Lists "definitions" names :=
  ⟨rfl, by decide, by decide +kernel⟩

theorem lists_tidied : (tidied content).Lists "definitions" ["a.json", "c.json"] :=
  ⟨rfl, by decide, by decide +kernel⟩

theorem filesIn_tree : Library.filesIn (tree content) "definitions" names =
    [file "a.json" (some content), file "b.json" none, file "c.json" (some content)] := by
  have hfiles : names.filterMap (Library.fileAt? (tree content) "definitions") =
      [file "c.json" (some content), file "b.json" none, file "a.json" (some content)] := rfl
  rw [Library.filesIn, hfiles, Library.sorted]
  simp [List.mergeSort, file]

theorem filesIn_tidied : Library.filesIn (tidied content) "definitions" ["a.json", "c.json"] =
    [file "a.json" (some content), file "c.json" (some content)] := by
  have hfiles : ["a.json", "c.json"].filterMap (Library.fileAt? (tidied content) "definitions") =
      [file "a.json" (some content), file "c.json" (some content)] := rfl
  rw [Library.filesIn, hfiles, Library.sorted]
  simp [List.mergeSort, file]

theorem results_tree {d : Definition} (hid : d.id = "demo")
    (h : ∀ name, (file name (some content)).read .standard = .ok d) :
    Library.resultsFrom .standard []
        [file "a.json" (some content), file "b.json" none, file "c.json" (some content)] =
      [.ok d, .error .unreadableFile,
        .error (.duplicateId "demo" "definitions/a.json" "definitions/c.json")] := by
  have hunread : (file "b.json" none).read .standard = .error .unreadableFile := rfl
  simp only [Library.resultsFrom, h, hunread, hid, List.lookup_nil, List.lookup_cons,
    beq_self_eq_true]
  rfl

end Files

/-- The bytes of a definition. -/
def content : List UInt8 :=
  ("\x7b\"id\":\"demo\",\"name\":\"Demo\",\"homepage\":\"http://d.test\"," ++
    "\"auth\":\x7b\"url\":\"http://d.test\"\x7d\x7d").toList.map (UInt8.ofNat ·.toNat)

/-- Wherever the definition stands, it is read. -/
theorem exists_read_content :
    ∃ d, d.id = "demo" ∧ ∀ name, (file name (some content)).read .standard = .ok d := by
  have hread : (DefinitionSpec.reading? content).map (·.id) = some "demo" := by
    decide +kernel
  obtain ⟨d, hd, hid⟩ := Option.map_eq_some_iff.1 hread
  exact ⟨d, hid, fun name => DefinitionFile.read_standard_of_reading? rfl rfl hd⟩

/-- The definition is taken once, and no trace is left of the file that cannot be read. -/
theorem loads_independently_mixed :
    (tree content).Lists "definitions" names ∧
    (tidied content).Lists "definitions" ["a.json", "c.json"] ∧
    ∃ d, d.id = "demo" ∧
      FileTree.run (Library.load "definitions") (tree content) =
        (.ok ⟨"definitions", [.ok d, .error .unreadableFile,
          .error (.duplicateId "demo" "definitions/a.json" "definitions/c.json")]⟩, tree content) ∧
      (Library.verdicts .standard (Library.filesIn (tree content) "definitions" names)).filter
          (·.file ∈ Library.filesIn (tidied content) "definitions" ["a.json", "c.json"]) =
        (Library.verdicts .standard
          (Library.filesIn (tidied content) "definitions" ["a.json", "c.json"])).filter
            (·.file ∈ Library.filesIn (tree content) "definitions" names) := by
  obtain ⟨d, hid, hread⟩ := exists_read_content
  -- the bytes themselves do not matter any more
  generalize content = bytes at hread ⊢
  obtain ⟨hrun, -, -, -, -, -, hothers⟩ :=
    Library.loads_independently .standard (lists_tree bytes)
  refine ⟨lists_tree bytes, lists_tidied bytes, d, hid, ?_,
    hothers (tidied bytes) _ (lists_tidied bytes) ?_ ?_⟩
  · rw [Library.load, hrun, Library.map_result_verdicts, filesIn_tree, results_tree bytes hid hread]
  · rw [filesIn_tree, filesIn_tidied]
    intro f hf hgone
    rcases List.mem_cons.1 hf with rfl | hf
    · exact absurd List.mem_cons_self hgone
    · rcases List.mem_cons.1 hf with rfl | hf
      · exact ⟨.unreadableFile, rfl⟩
      · exact absurd (List.mem_cons_of_mem _ hf) hgone
  · rw [filesIn_tree, filesIn_tidied]
    intro f hf hnew
    refine absurd ?_ hnew
    rcases List.mem_cons.1 hf with rfl | hf
    · exact List.mem_cons_self
    · exact List.mem_cons_of_mem _ (List.mem_cons_of_mem _ hf)

end MixedLibrary

end Syndication
