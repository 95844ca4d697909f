import Syndication.CommandLine.Readiness
import Syndication.Proofs.Registry.SettingUp
import Syndication.Proofs.Sync.Threading

/-!
# What it means that all is ready

A diagnosis looks at files and settings and does not bind a definition to its hooks. When it finds
all to be well, the registry can be set up, and it holds every definition that is enabled, with
one exception: a definition that asks for a hook that nothing provides. Such a definition is
skipped, and a sync answers for it that it is not registered.

Main statements:

* `Diagnosis.overall_take_eq_ok_iff`: what it takes that all is well.
* `Diagnosis.setUp_of_ok`: what can be relied on then.
* `TwoFiles.ok_without_registration`: all is well, and a platform is missing.
-/

namespace Syndication

namespace Diagnosis

/-! ### What is checked -/

variable {s : Settings} {environment : List (String × String)} {directory : String}
  {found : Except DefinitionError Library}

/-- A platform needs a cookie. -/
theorem status_checkPlatform_eq_ok_iff (d : Definition) :
    (checkPlatform s environment d).status = .ok ↔
      ((s.platform d.id).cookie? environment).isSome = true := by
  unfold checkPlatform
  dsimp only
  split
  · rename_i hname
    simp [hname, PlatformSettings.cookie?, Check.warn]
  · split
    · rename_i hset
      exact iff_of_true rfl hset
    · rename_i hset
      exact iff_of_false nofun hset

/-- The checks of platforms go well when each enabled platform has its cookie. -/
theorem status_checkPlatforms_eq_ok_iff (l : Library) :
    (∀ c ∈ (checkPlatforms s environment l).map (·.2), c.status = .ok) ↔
      ∀ d ∈ l.enabled s, ((s.platform d.id).cookie? environment).isSome = true := by
  constructor
  · intro hall d hd
    have hkey : d.id ∈ (checkPlatforms s environment l).keys :=
      KeyMap.mem_keys_ofEntries.2 (by simpa using ⟨d, hd, rfl⟩)
    obtain ⟨⟨id, c⟩, hentry, hid⟩ := List.mem_map.1 hkey
    obtain ⟨e, -, he⟩ := List.mem_map.1 (KeyMap.mem_ofEntries hentry)
    cases he
    have hcookie := (status_checkPlatform_eq_ok_iff e).1 (hall _ (List.mem_map_of_mem hentry))
    rwa [show e.id = d.id from hid] at hcookie
  · intro hcookies c hc
    obtain ⟨entry, hentry, rfl⟩ := List.mem_map.1 hc
    obtain ⟨d, hd, rfl⟩ := List.mem_map.1 (KeyMap.mem_ofEntries hentry)
    exact (status_checkPlatform_eq_ok_iff d).2 (hcookies d hd)

/-- A library needs a definition, and none of its files may be refused. -/
theorem status_checkLibrary_eq_ok_iff (l : Library) :
    (checkLibrary l).status = .ok ↔ l.definitions ≠ [] ∧ l.errors = [] := by
  unfold checkLibrary
  dsimp only
  split
  · rename_i hnone
    simp_all [Check.error]
  · split <;> simp_all [Check.ok, Check.warn]

theorem status_checkDirectory_eq_ok_iff :
    (checkDirectory directory found).status = .ok ↔
      ∃ l, found = .ok l ∧ l.definitions ≠ [] ∧ l.errors = [] := by
  cases found with
  | error e => simp [checkDirectory, Check.error]
  | ok l => simp [checkDirectory, status_checkLibrary_eq_ok_iff]

theorem status_checkTransport_eq_ok_iff :
    (checkTransport s).status = .ok ↔ s.transport = .http := by
  unfold checkTransport
  cases s.transport <;> simp [Check.ok, Check.warn]

/-- What it takes that all is well when there are settings. -/
theorem overall_ofLibrary_eq_ok_iff :
    (ofLibrary s environment directory found).overall = .ok ↔ s.transport = .http ∧
      ∃ l, found = .ok l ∧ l.definitions ≠ [] ∧ l.errors = [] ∧
        ∀ d ∈ l.enabled s, ((s.platform d.id).cookie? environment).isSome = true := by
  rw [overall_eq_ok_iff]
  simp only [checks, common, ofLibrary, List.mem_append, or_imp, forall_and,
    List.mem_cons, forall_eq, List.not_mem_nil, false_imp_iff, and_true,
    status_checkDirectory_eq_ok_iff, status_checkTransport_eq_ok_iff]
  cases found with
  | error e => simp
  | ok l =>
    simp only [status_checkPlatforms_eq_ok_iff, Except.ok.injEq, exists_eq_left']
    simp only [checkSettings, Check.ok, true_and]
    tauto

/-! ### What a diagnosis finds -/

variable {config asked : Option String} {around : Surroundings} {t : FileTree}

/-- **What it takes that all is well**: settings and definitions can be read, no file is refused,
requests are sent over the network, and each enabled platform has its cookie. -/
theorem overall_take_eq_ok_iff :
    (FileTree.run (take config asked around) t).1.overall = .ok ↔
      ∃ s l, (FileTree.run (Settings.load config around.environment) t).1 = .ok s ∧
        (FileTree.run (Library.load (asked.getD s.definitionsDir)) t).1 = .ok l ∧
        s.transport = .http ∧ l.definitions ≠ [] ∧ l.errors = [] ∧
        ∀ d ∈ l.enabled s, ((s.platform d.id).cookie? around.environment).isSome = true := by
  have hrun : FileTree.run (take config asked around) t = _ :=
    FileTree.run_bind_of_looksOnly (Settings.looksOnly_load config around.environment) _ t
  rw [hrun]
  cases hs : (FileTree.run (Settings.load config around.environment) t).1 with
  | error e =>
    have hbad : (ofSettingsError e).overall = .error := rfl
    simp [hbad]
  | ok s =>
    have hlibrary := FileTree.run_bind_of_looksOnly
      (Library.looksOnly_loadWith .standard (asked.getD s.definitionsDir))
      (fun found => pure (ofLibrary s around.environment (asked.getD s.definitionsDir) found)) t
    refine (iff_of_eq (congrArg (fun run => run.1.overall = .ok) hlibrary)).trans ?_
    rw [FileTree.run_pure, overall_ofLibrary_eq_ok_iff]
    simp only [Except.ok.injEq]
    constructor
    · rintro ⟨hhttp, l, hl, hrest⟩
      exact ⟨s, l, rfl, hl, hhttp, hrest⟩
    · rintro ⟨s', l, rfl, hl, hhttp, hrest⟩
      exact ⟨hhttp, l, hl, hrest⟩

end Diagnosis

/-! ### Syncs with a registry -/

namespace Publisher

/-- **The results of a sync**, platform by platform: a platform that is registered was tried, and
one that is not answers so. -/
theorem tried_or_notRegistered {σ : Type} (p : Publisher σ) (a : Article) (o : SyncOptions)
    (id : Uuid) (platforms : List String) (cancels : Outcome → Bool) (w : World σ) :
    ∀ result ∈ (p.sync id a platforms o cancels w).1.results,
      (∀ platform, p.registry.get? result.platform = some platform →
        ∃ log, p.Attempted a o platform log result.toOutcome) ∧
      (p.registry.get? result.platform = none → result.toOutcome =
        .failed result.platform s!"Platform not registered: {result.platform}") := by
  intro result hresult
  obtain ⟨r, hgoes⟩ := p.exists_goes_of_sync a o cancels id platforms w
  obtain ⟨new, -, hlawful⟩ := hgoes.lawful
  have houtcome : result.toOutcome ∈ r.outcomes := hgoes.results ▸ List.mem_map_of_mem hresult
  obtain ⟨record, hr, houtcome⟩ := List.mem_map.1 houtcome
  obtain ⟨log, _, _, -, hc, hpublishes⟩ := (hlawful.records record hr).1.publishes
  rw [show result.platform = record.2.platform from congrArg Outcome.platform houtcome.symm,
    ← houtcome]
  refine ⟨fun platform hplatform => ?_, fun hnone => ?_⟩
  · obtain ⟨_, hv, hattempted⟩ := attempted_of_publishTo hplatform hc
    cases hv
    exact ⟨log, hattempted⟩
  · rw [publishTo, hnone] at hc
    obtain ⟨_, -, hv⟩ := Program.course_emit_bind.1 hc
    obtain ⟨-, -, hv⟩ := Program.course_pure.1 hv
    exact Ending.value.inj hv

end Publisher

/-! ### Registries of libraries without refused files -/

/-- **A registry that holds what is enabled**, but for the definitions that ask for a hook that
nothing provides. -/
structure Registry.Covers (r : Registry) (events : List Event) (s : Settings) (l : Library) :
    Prop where
  /-- Nothing else is in it. -/
  enabled : ∀ id p, r.get? id = some p → p.definition ∈ l.enabled s ∧ p.definition.id = id
  /-- A definition that asks for nothing else is in it, and was not skipped. -/
  registered : ∀ d ∈ l.enabled s, (∀ hook ∈ d.hooks, hook = .prepareBody) →
    (∃ p, r.get? d.id = some p ∧ p.definition = d) ∧ ∀ error, .platformSkipped d.id error ∉ events
  /-- One that asks for such a hook is not in it, and was reported to be skipped. -/
  skipped : ∀ d ∈ l.enabled s, (∃ hook ∈ d.hooks, hook ≠ .prepareBody) →
    r.get? d.id = none ∧ ∃ error, .platformSkipped d.id error ∈ events
  /-- When there is no such definition, nothing is skipped and a sync of all is a sync of every
  definition that is enabled. -/
  complete : (∀ d ∈ l.enabled s, ∀ hook ∈ d.hooks, hook = .prepareBody) →
    r.ids = ((l.enabled s).map (·.id)).mergeSort ∧ events = l.readEvents
  /-- In a sync a definition is tried unless it asks for such a hook, and else it answers that it
  is not registered. -/
  syncs : ∀ {σ : Type} (p : Publisher σ), p.registry = r → ∀ a o id platforms cancels w,
    ∀ result ∈ (p.sync id a platforms o cancels w).1.results,
      ∀ d ∈ l.enabled s, d.id = result.platform →
        ((∀ hook ∈ d.hooks, hook = .prepareBody) →
          ∃ platform log, platform.definition = d ∧
            p.Attempted a o platform log result.toOutcome) ∧
        ((∃ hook ∈ d.hooks, hook ≠ .prepareBody) →
          result.toOutcome = .failed d.id s!"Platform not registered: {d.id}")

namespace Registry

variable {l : Library} {s : Settings}

/-- What stands in the registry of a library under the id of an enabled definition. -/
theorem get?_ofLibrary_of_mem_enabled (h : (l.definitions.map (·.id)).Nodup) {d : Definition}
    (hd : d ∈ l.enabled s) :
    (ofLibrary s l).1.get? d.id = (Platform.bind d (Hooks.forDefinition d)).toOption := by
  refine Option.ext fun p => ?_
  rw [get?_ofLibrary_eq_some_iff h]
  constructor
  · rintro ⟨e, he, hid, hp⟩
    have hsame : e = d := List.inj_on_of_nodup_map h (l.enabled_subset s he)
      (l.enabled_subset s hd) hid
    rw [← hsame, hp]
    rfl
  · intro hp
    cases hbind : Platform.bind d (Hooks.forDefinition d) with
    | error cause => rw [hbind] at hp; cases hp
    | ok q =>
      rw [hbind] at hp
      cases hp
      exact ⟨d, hd, rfl, hbind⟩

/-- What is reported to be skipped while the enabled definitions of a library are registered. -/
theorem exists_platformSkipped_iff (h : (l.definitions.map (·.id)).Nodup) {d : Definition}
    (hd : d ∈ l.enabled s) :
    (∃ error, .platformSkipped d.id error ∈ l.readEvents ++ skipEvents (ofLibrary s l).2) ↔
      ∃ cause, Platform.bind d (Hooks.forDefinition d) = .error cause := by
  constructor
  · rintro ⟨error, hmem⟩
    rcases List.mem_append.1 hmem with hread | hskip
    · exact absurd hread (by simp [Library.readEvents])
    · obtain ⟨⟨id, e⟩, hfailure, hevent⟩ := List.mem_map.1 hskip
      cases hevent
      rw [ofLibrary, Library.skipped_register h] at hfailure
      obtain ⟨d', hd', hfailed⟩ := List.mem_filterMap.1 hfailure
      split at hfailed
      · rename_i cause hbind
        have hid : d'.id = d.id := (Prod.mk.inj (Option.some.inj hfailed)).1
        have hsame : d' = d := List.inj_on_of_nodup_map h (l.enabled_subset s hd')
          (l.enabled_subset s hd) hid
        exact ⟨cause, hsame ▸ hbind⟩
      · cases hfailed
  · rintro ⟨cause, hbind⟩
    refine ⟨_, List.mem_append_right _ (List.mem_map.2 ⟨(d.id, .definition cause), ?_, rfl⟩)⟩
    rw [ofLibrary, Library.skipped_register h]
    exact List.mem_filterMap.2 ⟨d, hd, by rw [hbind]⟩

/-- The registry of a library without refused files. -/
theorem covers_ofLibrary (h : (l.definitions.map (·.id)).Nodup) (herrors : l.errors = []) :
    (ofLibrary s l).1.Covers (setUpEvents s l) s l := by
  have hevents : setUpEvents s l = l.readEvents ++ skipEvents (ofLibrary s l).2 := by
    simp [setUpEvents, Library.skipEvents, herrors]
  have hget {d : Definition} (hd : d ∈ l.enabled s) := get?_ofLibrary_of_mem_enabled h hd
  have hskip {d : Definition} (hd : d ∈ l.enabled s) :=
    hevents ▸ exists_platformSkipped_iff h hd
  have hregistered : ∀ d ∈ l.enabled s, (∀ hook ∈ d.hooks, hook = .prepareBody) →
      ∃ p, (ofLibrary s l).1.get? d.id = some p ∧ p.definition = d := by
    intro d hd hhooks
    obtain ⟨p, hp⟩ := d.exists_bind_iff.2 hhooks
    exact ⟨p, by rw [hget hd, hp]; rfl, (Platform.eq_of_bind hp).1⟩
  have hnone : ∀ d ∈ l.enabled s, (∃ hook ∈ d.hooks, hook ≠ .prepareBody) →
      (ofLibrary s l).1.get? d.id = none := by
    intro d hd hhooks
    obtain ⟨cause, hp⟩ := d.exists_bind_error_iff.2 hhooks
    rw [hget hd, hp]
    rfl
  exact
    { enabled := fun id p hp => by
        obtain ⟨d, hd, hid, hbind⟩ := (get?_ofLibrary_eq_some_iff h).1 hp
        rw [(Platform.eq_of_bind hbind).1]
        exact ⟨hd, hid⟩
      registered := fun d hd hhooks => by
        refine ⟨hregistered d hd hhooks, fun error hmem => ?_⟩
        obtain ⟨cause, hbind⟩ := (hskip hd).1 ⟨error, hmem⟩
        obtain ⟨p, hp⟩ := d.exists_bind_iff.2 hhooks
        cases hp.symm.trans hbind
      skipped := fun d hd hhooks =>
        ⟨hnone d hd hhooks, (hskip hd).2 (d.exists_bind_error_iff.2 hhooks)⟩
      complete := fun hhooks => by
        have hbound : ∀ d ∈ l.enabled s, ∃ p, Platform.bind d (Hooks.forDefinition d) = .ok p :=
          fun d hd => d.exists_bind_iff.2 (hhooks d hd)
        have hskipped : (ofLibrary s l).2 = [] :=
          (Library.skipped_register_eq_nil_iff h _).2 fun d hd hasked =>
            hbound d (List.mem_filter.2 ⟨hd, hasked⟩)
        refine ⟨ids_ofLibrary h (List.Sublist.refl _) fun d hd => iff_of_true hd (hbound d hd), ?_⟩
        rw [hevents, hskipped]
        exact List.append_nil _
      syncs := fun p hp a o id platforms cancels w result hresult d hd hid => by
        obtain ⟨htried, hmissing⟩ :=
          p.tried_or_notRegistered a o id platforms cancels w result hresult
        rw [hp, ← hid] at htried hmissing
        refine ⟨fun hhooks => ?_, fun hhooks => hmissing (hnone d hd hhooks)⟩
        obtain ⟨platform, hplatform, hdefinition⟩ := hregistered d hd hhooks
        obtain ⟨log, hattempted⟩ := htried platform hplatform
        exact ⟨platform, log, hdefinition, hattempted⟩ }

end Registry

/-- **What can be relied on when all is well.** Settings and definitions can be read and no file is
refused. The registry is set up, and it holds every definition that is enabled and asks for no
hook but the one that is provided. While there are no others, nothing is skipped, and no platform
of a sync answers that it is not registered. -/
theorem Diagnosis.setUp_of_ok {config asked : Option String} {around : Surroundings} {t : FileTree}
    (h : (FileTree.run (Diagnosis.take config asked around) t).1.overall = .ok) :
    ∃ s l r events,
      FileTree.run (Settings.load config around.environment) t = (.ok s, t) ∧
      FileTree.run (Library.load (asked.getD s.definitionsDir)) t = (.ok l, t) ∧
      l.definitions ≠ [] ∧ l.results = l.definitions.map .ok ∧
      FileTree.run (Registry.setUp s (asked.getD s.definitionsDir)) t = (.ok (r, events), t) ∧
      r.Covers events s l := by
  obtain ⟨s, l, hs, hl, -, hsome, herrors, -⟩ := Diagnosis.overall_take_eq_ok_iff.1 h
  have hsettings := FileTree.run_of_looksOnly (Settings.looksOnly_load config around.environment) t
  have hlibrary := FileTree.run_of_looksOnly
    (Library.looksOnly_loadWith .standard (asked.getD s.definitionsDir)) t
  rw [show (FileTree.run (Library.loadWith .standard (asked.getD s.definitionsDir)) t).1 = .ok l
    from hl] at hlibrary
  rw [hs] at hsettings
  exact ⟨s, l, _, _, hsettings, hlibrary, hsome, Library.results_of_errors_eq_nil herrors,
    Registry.run_setUp hl s, Registry.covers_ofLibrary (Library.nodup_ids_of_load hl).2 herrors⟩

/-! ### A directory with a definition that cannot be bound -/

/-- Without a file the environment alone says what the settings are. -/
theorem Settings.run_load_of_absent {t : FileTree} (h : t.entry defaultPath = .absent)
    (environment : List (String × String)) :
    (FileTree.run (load none environment) t).1 = ofLayers .nothing environment := by
  have hentry : (FileTree.run (FileProgram.entry (none.getD defaultPath)) t).1 = .absent := h
  unfold load
  rw [FileTree.run_bind_of_looksOnly (FileProgram.looksOnly_entry _)]
  rw [hentry]
  rfl

namespace TwoFiles

/-- A definition that asks for a hook that nothing provides. -/
def gamma : List UInt8 :=
  content "gamma" "\"before_request\""

theorem reading?_gamma : reading? gamma = some ("gamma", [.beforeRequest]) := by
  decide +kernel

/-- Surroundings with the cookies of two platforms. -/
def signedIn : Surroundings :=
  { around with environment :=
      [("CROSSPOST__PLATFORMS__ALPHA__COOKIE_ENV", "CROSSPOST_COOKIE"),
        ("CROSSPOST__PLATFORMS__GAMMA__COOKIE_ENV", "CROSSPOST_COOKIE"),
        ("CROSSPOST_COOKIE", "s=1")] }

/-- The settings that the environment says. -/
def signedInSettings : Settings :=
  { Settings.standard with platforms :=
      [("alpha", ⟨true, some "CROSSPOST_COOKIE", none⟩),
        ("gamma", ⟨true, some "CROSSPOST_COOKIE", none⟩)] }

/-- The layer of the environment. -/
def signedInLayer : Setting :=
  let group := Setting.group [("cookie_env", .text "CROSSPOST_COOKIE")]
  .group [("platforms", .group [("alpha", group), ("gamma", group)])]

theorem withVariables_signedIn :
    Setting.withVariables Settings.variableBeginning .nothing signedIn.environment =
      signedInLayer := by
  have halpha : Setting.variablePath? Settings.variableBeginning
      "CROSSPOST__PLATFORMS__ALPHA__COOKIE_ENV" = some ["platforms", "alpha", "cookie_env"] := by
    simp only [Setting.variablePath?, Setting.keyPath, Text.toLower, Text.replaceAll,
      String.toList_ofList]
    decide
  have hgamma : Setting.variablePath? Settings.variableBeginning
      "CROSSPOST__PLATFORMS__GAMMA__COOKIE_ENV" = some ["platforms", "gamma", "cookie_env"] := by
    simp only [Setting.variablePath?, Setting.keyPath, Text.toLower, Text.replaceAll,
      String.toList_ofList]
    decide
  have hcookie : Setting.variablePath? Settings.variableBeginning "CROSSPOST_COOKIE" = none := by
    decide
  have htext : Setting.ofText "CROSSPOST_COOKIE" = .text "CROSSPOST_COOKIE" := by
    have hsmall : Text.toLower "CROSSPOST_COOKIE" = "crosspost_cookie" := by decide
    have hinteger : Decimal.int64? "CROSSPOST_COOKIE".toList = none := by decide
    have hfloat : Extended.read? "CROSSPOST_COOKIE".toList = none := by decide
    simp only [Setting.ofText, hsmall, hinteger, hfloat]
    rfl
  rw [signedIn, Setting.withVariables_cons_of_some halpha,
    Setting.withVariables_cons_of_some hgamma, Setting.withVariables_cons_of_none hcookie, htext]
  rfl

theorem load_signedIn (first second : List UInt8) :
    (FileTree.run (Settings.load none signedIn.environment) (tree first second)).1 =
      .ok signedInSettings := by
  have hlayers : Settings.ofLayers .nothing signedIn.environment = .ok signedInSettings := by
    rw [Settings.ofLayers, withVariables_signedIn]
    rfl
  exact (Settings.run_load_of_absent rfl _).trans hlayers

variable {first second : List UInt8} {d e : Definition}

/-- The library of the directory. -/
def library (d e : Definition) : Library :=
  ⟨"./platforms", [.ok d, .ok e]⟩

theorem enabled_signedIn (hdid : d.id = "alpha") (heid : e.id = "gamma") :
    (library d e).enabled signedInSettings = [d, e] := by
  simp [library, Library.enabled, Library.definitions, Except.toOption, Settings.isEnabled,
    signedInSettings, KeyMap.find?, hdid, heid]

/-- All is found to be well with the directory. -/
theorem overall_signedIn
    (hload : (FileTree.run (Library.load "./platforms") (tree first second)).1 =
      .ok (library d e))
    (hdid : d.id = "alpha") (heid : e.id = "gamma") :
    (FileTree.run (Diagnosis.take none none signedIn) (tree first second)).1.overall = .ok := by
  refine Diagnosis.overall_take_eq_ok_iff.2 ⟨signedInSettings, _, load_signedIn first second,
    hload, rfl, nofun, rfl, ?_⟩
  have hset : ∀ id ∈ ["alpha", "gamma"],
      ((signedInSettings.platform id).cookie? signedIn.environment).isSome = true := by
    decide
  rw [enabled_signedIn hdid heid]
  intro f hf
  refine hset f.id ?_
  simpa [hdid, heid] using List.mem_map_of_mem (f := (·.id)) hf

/-- What the two files are read as. -/
theorem exists_library :
    ∃ d e, d.id = "alpha" ∧ d.hooks = [.prepareBody] ∧ e.id = "gamma" ∧
      e.hooks = [.beforeRequest] ∧
      (FileTree.run (Library.load "./platforms") (tree alpha gamma)).1 = .ok (library d e) := by
  obtain ⟨d, hdid, hdhooks, hd⟩ := exists_read reading?_alpha_beta.1
  obtain ⟨e, heid, hehooks, he⟩ := exists_read reading?_gamma
  exact ⟨d, e, hdid, hdhooks, heid, hehooks,
    load_tree (hd "a.json") (he "b.json") (by rw [hdid, heid]; decide)⟩

/-- The definition that asks for nothing else is registered. -/
theorem registered_signedIn :
    (FileTree.run (Diagnosis.take none none signedIn) (tree alpha gamma)).1.overall = .ok ∧
    ∃ r events, (FileTree.run (Registry.setUp signedInSettings "./platforms")
        (tree alpha gamma)).1 = .ok (r, events) ∧
      ∃ p, r.get? "alpha" = some p ∧ p.definition.hooks = [.prepareBody] := by
  obtain ⟨d, e, hdid, hdhooks, heid, -, hload⟩ := exists_library
  have hok := overall_signedIn hload hdid heid
  obtain ⟨s, l, r, events, hs, hl, -, -, hrun, hcovers⟩ := Diagnosis.setUp_of_ok hok
  obtain rfl : signedInSettings = s :=
    Except.ok.inj ((load_signedIn _ _).symm.trans (congrArg Prod.fst hs))
  obtain rfl : library d e = l := Except.ok.inj (hload.symm.trans (congrArg Prod.fst hl))
  refine ⟨hok, r, events, congrArg Prod.fst hrun, ?_⟩
  have hd : d ∈ (library d e).enabled signedInSettings := by
    simp [enabled_signedIn hdid heid]
  obtain ⟨⟨p, hp, hdefinition⟩, -⟩ := hcovers.registered d hd (by simp [hdhooks])
  exact ⟨p, hdid ▸ hp, by rw [hdefinition, hdhooks]⟩

/-- **All is found to be well, and a platform is missing.** Both definitions are enabled, and the
one that asks for a hook that nothing provides is skipped and answers that it is not
registered. -/
theorem ok_without_registration :
    (FileTree.run (Diagnosis.take none none signedIn) (tree alpha gamma)).1.overall = .ok ∧
    ∃ s l r events,
      (FileTree.run (Settings.load none signedIn.environment) (tree alpha gamma)).1 = .ok s ∧
      (FileTree.run (Library.load s.definitionsDir) (tree alpha gamma)).1 = .ok l ∧
      (l.enabled s).map (·.id) = ["alpha", "gamma"] ∧
      (FileTree.run (Registry.setUp s s.definitionsDir) (tree alpha gamma)).1 =
        .ok (r, events) ∧
      r.ids = ["alpha"] ∧ (∃ error, .platformSkipped "gamma" error ∈ events) ∧
      ∀ (p : Publisher Unit), p.registry = r → ∀ a o id platforms cancels w,
        ∀ result ∈ (p.sync id a platforms o cancels w).1.results, result.platform = "gamma" →
          result.toOutcome = .failed "gamma" "Platform not registered: gamma" := by
  obtain ⟨d, e, hdid, hdhooks, heid, hehooks, hload⟩ := exists_library
  have hnodup := (Library.nodup_ids_of_load hload).2
  have henabled : (library d e).enabled signedInSettings = [d, e] := enabled_signedIn hdid heid
  have hcovers := Registry.covers_ofLibrary (s := signedInSettings) hnodup rfl
  have he : e ∈ (library d e).enabled signedInSettings := by simp [henabled]
  refine ⟨overall_signedIn hload hdid heid, signedInSettings, library d e, _, _,
    load_signedIn _ _, hload, by simp [henabled, hdid, heid],
    congrArg Prod.fst (Registry.run_setUp hload signedInSettings), ?_, ?_, ?_⟩
  · have hbound : ∀ f ∈ (library d e).enabled signedInSettings,
        f ∈ [d] ↔ ∃ p, Platform.bind f (Hooks.forDefinition f) = .ok p := by
      have hne : e ≠ d := fun h => by simp [h, hdid] at heid
      simp [henabled, Definition.exists_bind_iff, hdhooks, hehooks, hne]
    rw [Registry.ids_ofLibrary hnodup (by simp [henabled]) hbound, List.map_singleton, hdid,
      List.mergeSort_singleton]
  · exact heid ▸ (hcovers.skipped e he (by simp [hehooks])).2
  · intro p hp a o id platforms cancels w result hresult hplatform
    have hanswer := (hcovers.syncs p hp a o id platforms cancels w result hresult e he
      (heid.trans hplatform.symm)).2 (by simp [hehooks])
    rw [hanswer, heid]
    rfl

end TwoFiles

end Syndication
