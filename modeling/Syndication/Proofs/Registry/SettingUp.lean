import Syndication.CommandLine.Inspection
import Syndication.Proofs.Definition.Loading
import Syndication.Proofs.Registry.Registration

/-!
# Registries of directories

The definitions of a directory have different ids, so they do not get in each other's way when
they are registered: a definition is kept out of the registry only by what it asks for itself.
Whether others are registered with it, all of them or those that are enabled, makes no difference.
A directory is therefore validated by the very registrations that are made when its registry is
set up.

Main statements:

* `Library.nodup_ids_of_load`: the definitions of a directory have different ids.
* `Library.problems_eq_nil_iff`: when a library has no problem.
* `Registry.setUp_of_validated`: what validation promises.
-/

namespace Syndication

namespace Settings

/-- Settings are read without writing anything. -/
theorem looksOnly_load (asked : Option String) (environment : List (String × String)) :
    (load asked environment).LooksOnly := by
  refine FileProgram.looksOnly_bind (FileProgram.looksOnly_entry _) fun entry => ?_
  cases entry with
  | absent | file | unreadable => exact .done _
  | directory names =>
    dsimp only
    split
    · exact .done _
    · refine FileProgram.looksOnly_bind (FileProgram.looksOnly_entry _) fun entry => ?_
      cases entry <;> exact .done _

end Settings

/-- No hook is provided but the one that drops empty collections, and that only to a definition
that asks for nothing else. -/
theorem Hooks.provides_forDefinition_iff (d : Definition) :
    (∀ hook ∈ d.hooks, (forDefinition d).provides hook = true) ↔
      ∀ hook ∈ d.hooks, hook = .prepareBody := by
  have hdrop (hook : Hook) : dropEmpty.provides hook = true ↔ hook = .prepareBody := beq_iff_eq
  unfold forDefinition
  split
  · exact forall₂_congr fun hook _ => hdrop hook
  · rename_i hnot
    simp only [Bool.and_eq_true, Bool.not_eq_true', List.isEmpty_eq_false_iff, List.all_eq_true,
      not_and] at hnot
    constructor
    · exact fun h hook hmem => absurd (h hook hmem) Bool.false_ne_true
    · exact fun h hook hmem =>
        (hnot (List.ne_nil_of_mem hmem) fun hook hmem => (hdrop hook).2 (h hook hmem)).elim

/-- **Which definitions can be bound**: those that ask for nothing but that empty collections are
dropped. -/
theorem Definition.exists_bind_iff (d : Definition) :
    (∃ p, Platform.bind d (Hooks.forDefinition d) = .ok p) ↔
      ∀ hook ∈ d.hooks, hook = .prepareBody := by
  rw [Platform.bind_isOk_iff, Hooks.provides_forDefinition_iff]

theorem Definition.exists_bind_error_iff (d : Definition) :
    (∃ cause, Platform.bind d (Hooks.forDefinition d) = .error cause) ↔
      ∃ hook ∈ d.hooks, hook ≠ .prepareBody := by
  have hbind := d.exists_bind_iff
  cases hp : Platform.bind d (Hooks.forDefinition d) with
  | error cause => simpa [hp] using hbind
  | ok p => simpa [hp] using hbind

namespace Library

variable {parse : DefinitionParser} {t : FileTree} {directory : String} {l : Library}
  {s : Settings}

/-- Definitions are read without writing anything. -/
theorem looksOnly_loadWith (parse : DefinitionParser) (directory : String) :
    (loadWith parse directory).LooksOnly := by
  have hfile (directory name : String) : (file? directory name).LooksOnly := by
    unfold file?
    dsimp only
    split
    · exact .done _
    · refine FileProgram.looksOnly_bind (FileProgram.looksOnly_entry _) fun entry => ?_
      cases entry <;> exact .done _
  have hfiles (names : List String) : (Library.files directory names).LooksOnly := by
    induction names with
    | nil => exact .done _
    | cons name rest ih =>
      refine FileProgram.looksOnly_bind (hfile directory name) fun file => ?_
      exact FileProgram.looksOnly_bind ih fun files => .done _
  refine FileProgram.looksOnly_bind (FileProgram.looksOnly_entry _) fun entry => ?_
  cases entry with
  | absent | file | unreadable => exact .done _
  | directory names => exact FileProgram.looksOnly_bind (hfiles names) fun files => .done _

/-- The ids of the definitions of a library are those with which its files were taken. -/
theorem map_id_definitions (directory : String) (files : List DefinitionFile) :
    (definitions ⟨directory, (verdicts parse files).map (·.result)⟩).map (·.id) =
      (verdicts parse files).filterMap (·.id?) := by
  rw [definitions, List.map_filterMap, List.filterMap_map]
  rfl

/-- **The definitions of a directory have different ids.** -/
theorem nodup_ids_of_load (h : (FileTree.run (loadWith parse directory) t).1 = .ok l) :
    l.directory = directory ∧ (l.definitions.map (·.id)).Nodup := by
  rw [run_loadWith] at h
  split at h
  · cases h
    rw [map_id_definitions]
    exact ⟨rfl, nodup_ids _ _⟩
  · cases h

theorem nodup_map_id_filter (h : (l.definitions.map (·.id)).Nodup) (asked : Definition → Bool) :
    ((l.definitions.filter asked).map (·.id)).Nodup :=
  h.sublist (List.filter_sublist.map _)

/-! ### Problems -/

/-- A library without refused files holds nothing but definitions. -/
theorem results_of_errors_eq_nil (h : l.errors = []) : l.results = l.definitions.map .ok := by
  obtain ⟨directory, results⟩ := l
  induction results with
  | nil => rfl
  | cons result results ih =>
    cases result with
    | error e => cases h
    | ok d => exact congrArg (.ok d :: ·) (ih h)

/-- What is reported about definitions with different ids that are registered. -/
theorem skipped_register (h : (l.definitions.map (·.id)).Nodup) (asked : Definition → Bool) :
    (l.register asked).2 = (l.definitions.filter asked).filterMap fun d =>
      match Platform.bind d (Hooks.forDefinition d) with
      | .error cause => some (d.id, .definition cause)
      | .ok _ => none :=
  Registry.failures_registerAll (nodup_map_id_filter h asked) fun _ _ => rfl

theorem skipped_register_eq_nil_iff (h : (l.definitions.map (·.id)).Nodup)
    (asked : Definition → Bool) :
    (l.register asked).2 = [] ↔ ∀ d ∈ l.definitions, asked d = true →
      ∃ p, Platform.bind d (Hooks.forDefinition d) = .ok p := by
  rw [skipped_register h, List.filterMap_eq_nil_iff]
  simp only [List.mem_filter, and_imp]
  refine forall₃_congr fun d _ _ => ?_
  cases Platform.bind d (Hooks.forDefinition d) <;> simp

/-- **When a library has no problem**: there is something in it, every file was taken, and every
definition can be bound. -/
theorem problems_eq_nil_iff (h : (l.definitions.map (·.id)).Nodup) :
    l.problems = [] ↔ l.definitions ≠ [] ∧ l.errors = [] ∧
      ∀ d ∈ l.definitions, ∃ p, Platform.bind d (Hooks.forDefinition d) = .ok p := by
  have hall := skipped_register_eq_nil_iff h fun _ => true
  simp only [forall_const] at hall
  rw [← hall]
  unfold problems
  dsimp only
  split
  · rename_i hempty
    simp_all
  · rename_i hfull
    simp only [Bool.and_eq_true, List.isEmpty_iff, List.append_eq_nil_iff,
      List.map_eq_nil_iff] at hfull ⊢
    exact ⟨fun hfound => ⟨fun hnone => hfull ⟨hnone, hfound⟩, hfound⟩, And.right⟩

end Library

namespace Registry

variable {t : FileTree} {s : Settings} {directory : String} {l : Library}

/-- What comes of setting up the registry of a directory that can be read. -/
theorem run_setUp (h : (FileTree.run (Library.load directory) t).1 = .ok l) (s : Settings) :
    FileTree.run (setUp s directory) t = (.ok ((ofLibrary s l).1, setUpEvents s l), t) := by
  refine (FileTree.run_bind_of_looksOnly (Library.looksOnly_loadWith _ _) _ t).trans ?_
  rw [show (FileTree.run (Library.loadWith .standard directory) t).1 = .ok l from h]
  rfl

/-- What is found in the registry of a library. -/
theorem get?_ofLibrary_eq_some_iff (h : (l.definitions.map (·.id)).Nodup) {id : String}
    {p : Platform} :
    (ofLibrary s l).1.get? id = some p ↔
      ∃ d ∈ l.enabled s, d.id = id ∧ Platform.bind d (Hooks.forDefinition d) = .ok p :=
  get?_registerAll_eq_some_iff (Library.nodup_map_id_filter h _)

/-- The ids in the registry of a library are those of the enabled definitions that can be
bound. -/
theorem ids_ofLibrary (h : (l.definitions.map (·.id)).Nodup) {bound : List Definition}
    (hsub : bound.Sublist (l.enabled s))
    (hbound : ∀ d ∈ l.enabled s,
      d ∈ bound ↔ ∃ p, Platform.bind d (Hooks.forDefinition d) = .ok p) :
    (ofLibrary s l).1.ids = (bound.map (·.id)).mergeSort := by
  have hnodup : (bound.map (·.id)).Nodup :=
    (Library.nodup_map_id_filter h _).sublist (hsub.map _)
  refine ids_eq_mergeSort hnodup fun id => ?_
  simp only [List.mem_map, get?_ofLibrary_eq_some_iff h]
  constructor
  · rintro ⟨d, hd, rfl⟩
    obtain ⟨p, hp⟩ := (hbound d (hsub.subset hd)).1 hd
    exact ⟨p, d, hsub.subset hd, rfl, hp⟩
  · rintro ⟨p, d, hd, rfl, hp⟩
    exact ⟨d, (hbound d hd).2 ⟨p, hp⟩, rfl⟩

/-! ### Validation -/

/-- **What validation finds.** It goes well exactly when there is a library without problems. -/
theorem code_validate_eq_zero_iff {config asked : Option String} {around : Surroundings}
    (hplace : directory =
      asked.getD (FileTree.run (Inspection.settingsOrStandard config around) t).1.definitionsDir) :
    (FileTree.run (Inspection.validate config asked around) t).1.code = 0 ↔
      ∃ l, (FileTree.run (Library.load directory) t).1 = .ok l ∧ l.problems = [] := by
  have hsettings : (Inspection.settingsOrStandard config around).LooksOnly :=
    FileProgram.looksOnly_bind (Settings.looksOnly_load _ _) fun found => by
      cases found <;> exact .done _
  have hrun : FileTree.run (Inspection.validate config asked around) t = _ :=
    (FileTree.run_bind_of_looksOnly hsettings _ t).trans
      (FileTree.run_bind_of_looksOnly (Library.looksOnly_loadWith _ _) _ t)
  rw [← hplace] at hrun
  rw [hrun]
  cases hfound : (FileTree.run (Library.load directory) t).1 with
  | error e =>
    rw [show (FileTree.run (Library.loadWith .standard directory) t).1 = .error e from hfound]
    simp [Output.ofError]
  | ok l =>
    rw [show (FileTree.run (Library.loadWith .standard directory) t).1 = .ok l from hfound]
    simpa using l.validate_code

/-- **What validation promises.** When the definitions of a directory are found to be valid, then
whatever the settings are, the registry that is set up for the directory holds exactly the
definitions that are enabled: nothing is reported but that the files were read, and the ids are
the sorted ids of the enabled definitions. -/
theorem setUp_of_validated {config asked : Option String} {around : Surroundings}
    (hplace : directory =
      asked.getD (FileTree.run (Inspection.settingsOrStandard config around) t).1.definitionsDir)
    (h : (FileTree.run (Inspection.validate config asked around) t).1.code = 0) :
    ∃ l, FileTree.run (Library.load directory) t = (.ok l, t) ∧ l.definitions ≠ [] ∧
      l.results = l.definitions.map .ok ∧
      ∀ s : Settings, ∃ r,
        FileTree.run (setUp s directory) t = (.ok (r, l.readEvents), t) ∧
        r.ids = ((l.enabled s).map (·.id)).mergeSort ∧
        ∀ d, d ∈ l.enabled s ↔ ∃ p, r.get? d.id = some p ∧ p.definition = d := by
  obtain ⟨l, hload, hproblems⟩ := (code_validate_eq_zero_iff hplace).1 h
  have hnodup := (Library.nodup_ids_of_load hload).2
  obtain ⟨hsome, herrors, hbound⟩ := (Library.problems_eq_nil_iff hnodup).1 hproblems
  have hread : FileTree.run (Library.load directory) t = (.ok l, t) := by
    rw [← hload]
    exact FileTree.run_of_looksOnly (Library.looksOnly_loadWith _ _) t
  refine ⟨l, hread, hsome, Library.results_of_errors_eq_nil herrors, fun s => ?_⟩
  have henabled : ∀ d ∈ l.enabled s, ∃ p, Platform.bind d (Hooks.forDefinition d) = .ok p :=
    fun d hd => hbound d (l.enabled_subset s hd)
  have hskipped : (ofLibrary s l).2 = [] :=
    (Library.skipped_register_eq_nil_iff hnodup _).2 fun d hd _ => hbound d hd
  refine ⟨(ofLibrary s l).1, ?_, ?_, fun d => ?_⟩
  · rw [run_setUp hload, setUpEvents, hskipped]
    simp [Library.skipEvents, herrors, skipEvents]
  · exact ids_ofLibrary hnodup (List.Sublist.refl _) fun d hd => iff_of_true hd (henabled d hd)
  · simp only [get?_ofLibrary_eq_some_iff hnodup]
    constructor
    · intro hd
      obtain ⟨p, hp⟩ := henabled d hd
      exact ⟨p, ⟨d, hd, rfl, hp⟩, (Platform.eq_of_bind hp).1⟩
    · rintro ⟨p, ⟨e, he, -, hp⟩, rfl⟩
      rw [(Platform.eq_of_bind hp).1]
      exact he

end Registry

/-! ### A directory with two definitions -/

namespace TwoFiles

/-- A file of the directory. -/
def file (name : String) (content : List UInt8) : DefinitionFile :=
  ⟨name, "./platforms/" ++ name, .json, some content⟩

/-- The directory with some bytes in its two files. -/
def tree (first second : List UInt8) : FileTree where
  directories := [["platforms"]]
  files := [(["b.json", "platforms"], some second), (["a.json", "platforms"], some first)]

variable {first second : List UInt8} {d e : Definition}

theorem filesIn_tree : Library.filesIn (tree first second) "./platforms" ["b.json", "a.json"] =
    [file "a.json" first, file "b.json" second] := by
  have hfiles : ["b.json", "a.json"].filterMap
      (Library.fileAt? (tree first second) "./platforms") =
      [file "b.json" second, file "a.json" first] := rfl
  rw [Library.filesIn, hfiles, Library.sorted]
  simp [List.mergeSort, file]

/-- The library of the directory. -/
theorem load_tree (hd : (file "a.json" first).read .standard = .ok d)
    (he : (file "b.json" second).read .standard = .ok e) (hne : d.id ≠ e.id) :
    (FileTree.run (Library.load "./platforms") (tree first second)).1 =
      .ok ⟨"./platforms", [.ok d, .ok e]⟩ := by
  have hnames : (tree first second).entry "./platforms" = .directory ["b.json", "a.json"] := rfl
  have hload := Library.run_loadWith .standard (tree first second) "./platforms"
  rw [hnames] at hload
  rw [Library.load, hload]
  dsimp only
  rw [filesIn_tree, Library.map_result_verdicts]
  have hnew : [(d.id, (file "a.json" first).path)].lookup e.id = none := by
    rw [List.lookup_cons, beq_eq_false_iff_ne.2 (Ne.symm hne)]
    rfl
  simp only [Library.resultsFrom, hd, he, List.lookup_nil, hnew]

/-- The bytes of a definition that asks for some hooks. -/
def content (id hooks : String) : List UInt8 :=
  ["\x7b\"id\":\"", id, "\",\"name\":\"Demo\",", "\"homepage\":\"http://d.test\",",
    "\"auth\":\x7b\"url\":", "\"http://d.test\"\x7d,", "\"hooks\":[", hooks, "]\x7d"].flatMap
      (·.toList.map (UInt8.ofNat ·.toNat))

/-- A definition that lets empty collections be dropped. -/
def alpha : List UInt8 :=
  content "alpha" "\"prepare_body\""

/-- A definition without hooks. -/
def beta : List UInt8 :=
  content "beta" ""

/-- The id and the hooks of the definition that bytes are read as. -/
def reading? (content : List UInt8) : Option (String × List Hook) :=
  (DefinitionSpec.reading? content).map fun d => (d.id, d.hooks)

theorem exists_read {content : List UInt8} {id : String} {hooks : List Hook}
    (h : reading? content = some (id, hooks)) :
    ∃ d, d.id = id ∧ d.hooks = hooks ∧ ∀ name, (file name content).read .standard = .ok d := by
  obtain ⟨d, hd, hfound⟩ := Option.map_eq_some_iff.1 h
  obtain ⟨hid, hhooks⟩ := Prod.mk.inj hfound
  exact ⟨d, hid, hhooks, fun name => DefinitionFile.read_standard_of_reading? rfl rfl hd⟩

/-- Both definitions are read. -/
theorem reading?_alpha_beta : reading? alpha = some ("alpha", [.prepareBody]) ∧
    reading? beta = some ("beta", []) := by
  decide +kernel

/-- The surroundings of a command without any variable. -/
def around : Surroundings :=
  ⟨[], (⟨0⟩, ⟨1⟩), 0⟩

/-- Settings that leave out the second definition. -/
def settings : Settings :=
  { Settings.standard with platforms := [("beta", ⟨false, none, none⟩)] }

/-- The directory is found to be valid, and the definition that is enabled is registered. -/
theorem setUp_of_validated_twoFiles :
    (FileTree.run (Inspection.validate none none around) (tree alpha beta)).1.code = 0 ∧
    ∃ r events, FileTree.run (Registry.setUp settings "./platforms") (tree alpha beta) =
        (.ok (r, events), tree alpha beta) ∧
      r.ids = ["alpha"] := by
  obtain ⟨d, hdid, hdhooks, hd⟩ := exists_read reading?_alpha_beta.1
  obtain ⟨e, heid, hehooks, he⟩ := exists_read reading?_alpha_beta.2
  -- the bytes themselves do not matter any more
  generalize alpha = first at hd ⊢
  generalize beta = second at he ⊢
  have hload := load_tree (hd "a.json") (he "b.json") (by rw [hdid, heid]; decide)
  have hplace : "./platforms" = Option.getD none (FileTree.run
      (Inspection.settingsOrStandard none around) (tree first second)).1.definitionsDir := by
    rfl
  have hvalid : (FileTree.run (Inspection.validate none none around) (tree first second)).1.code
      = 0 := by
    refine (Registry.code_validate_eq_zero_iff hplace).2 ⟨_, hload, ?_⟩
    refine (Library.problems_eq_nil_iff (Library.nodup_ids_of_load hload).2).2 ⟨nofun, rfl, ?_⟩
    have hbound : ∀ f ∈ [d, e], ∀ hook ∈ f.hooks, hook = .prepareBody := by
      simp [hdhooks, hehooks]
    exact fun f hf => f.exists_bind_iff.2 (hbound f hf)
  obtain ⟨l, hl, -, -, hsetUp⟩ := Registry.setUp_of_validated hplace hvalid
  obtain ⟨r, hrun, hids, -⟩ := hsetUp settings
  refine ⟨hvalid, r, _, hrun, ?_⟩
  rw [hl] at hload
  obtain rfl := Except.ok.inj hload
  have henabled : Library.enabled ⟨"./platforms", [.ok d, .ok e]⟩ settings = [d] := by
    simp [Library.enabled, Library.definitions, Except.toOption, Settings.isEnabled, settings,
      KeyMap.find?, hdid, heid]
  rw [hids, henabled, List.map_singleton, hdid, List.mergeSort_singleton]

end TwoFiles

end Syndication
