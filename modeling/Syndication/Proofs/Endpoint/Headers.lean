import Syndication.Proofs.Endpoint.Execution
import Syndication.Proofs.Text.ByteOrder

/-!
# Which headers a request is sent with

The headers of an endpoint are static; those that a hook answers are dynamic, and they are set one
after another. To set a header takes away all headers whose names differ from its own at most in the
case of ASCII letters, so a dynamic header takes away static ones and also dynamic ones that were
set before it. What has come of the loop is therefore said of every part of the dynamic headers that
has been gone through (`Overrides`): the headers that are set first stay just until a later one has
the same name. The names are gone through in the order of their bytes, so of those that differ in
case the greatest is the last (`overrides_setHeader`).

Main statement:

* `execute_headers`: the headers of the request that an execution sends.
-/

namespace Syndication

/-! ### Names in another case -/

/-- **Two names of one header**: they differ at most in the case of ASCII letters. -/
abbrev SameName (a b : String) : Prop :=
  Text.toAsciiLower a = Text.toAsciiLower b

theorem eqIgnoringAsciiCase_iff {a b : String} :
    Text.eqIgnoringAsciiCase a b = true ↔ SameName a b := by
  rw [Text.eqIgnoringAsciiCase, SameName, Text.toAsciiLower, Text.toAsciiLower, beq_iff_eq,
    String.ofList_inj]

section Merging

variable {static dynamic headers : KeyMap String} {h last : String × String}

theorem mem_setHeader_iff :
    h ∈ setHeader headers last.1 last.2 ↔ h = last ∨ h ∈ headers ∧ ¬ SameName h.1 last.1 := by
  have hother : ∀ other, other ∈ headers.filter (fun e => !Text.eqIgnoringAsciiCase e.1 last.1) ↔
      other ∈ headers ∧ ¬ SameName other.1 last.1 := by
    intro other
    rw [List.mem_filter, Bool.not_eq_true', ← Bool.not_eq_true, eqIgnoringAsciiCase_iff]
  unfold setHeader
  constructor
  · intro hmem
    exact (KeyMap.mem_insert hmem).imp_right (hother h).1
  · rintro (rfl | hmem)
    · exact KeyMap.mem_insert_self _ _ _
    · -- a header with another name has another key
      exact KeyMap.mem_insert_of_ne ((hother h).2 hmem) fun hkey => hmem.2 (by rw [hkey])

theorem sorted_setHeader (hsorted : headers.Sorted) (name value : String) :
    (setHeader headers name value).Sorted :=
  KeyMap.sorted_insert (List.Pairwise.filter _ hsorted)

/-! ### The loop -/

/-- **The greatest of its names**: a header whose name comes, in the order of bytes, after all
others that differ from it at most in case. -/
def Greatest (dynamic : KeyMap String) (h : String × String) : Prop :=
  h ∈ dynamic ∧ ∀ d ∈ dynamic, SameName d.1 h.1 → d = h ∨ Text.bytes d.1 < Text.bytes h.1

/-- **The dynamic headers win over the static ones**, in whatever case their names are written. -/
structure Overrides (static dynamic headers : KeyMap String) : Prop where
  /-- No header is there twice. -/
  sorted : headers.Sorted
  /-- A static header is kept unless a dynamic one has its name. -/
  kept : ∀ h ∈ static, (∀ d ∈ dynamic, ¬ SameName d.1 h.1) → h ∈ headers
  /-- Under the name of a dynamic header there is one header, the greatest of the dynamic ones with
  that name. -/
  one : ∀ d ∈ dynamic, ∃ g, Greatest dynamic g ∧ SameName d.1 g.1 ∧
    ∀ h, h ∈ headers ∧ SameName d.1 h.1 ↔ h = g
  /-- There are no other headers. -/
  only : ∀ h ∈ headers, (h ∈ static ∧ ∀ d ∈ dynamic, ¬ SameName d.1 h.1) ∨ Greatest dynamic h

theorem overrides_nil (hsorted : static.Sorted) : Overrides static [] static where
  sorted := hsorted
  kept _ hmem _ := hmem
  one _ hd := absurd hd List.not_mem_nil
  only _ hmem := .inl ⟨hmem, fun _ hd => absurd hd List.not_mem_nil⟩

/-- The last of the dynamic headers is the greatest of its names. -/
theorem greatest_last (hlast : ∀ d ∈ dynamic, d.1 < last.1) :
    Greatest (dynamic ++ [last]) last := by
  refine ⟨List.mem_append_right _ List.mem_cons_self, fun d hd _ => ?_⟩
  rcases List.mem_append.1 hd with hd | hd
  · exact .inr (Text.lt_iff_bytes_lt.1 (hlast d hd))
  · exact .inl (List.mem_singleton.1 hd)

/-- A header with another name takes nothing away from the greatest of its names. -/
theorem Greatest.append (hgreatest : Greatest dynamic h) (hne : ¬ SameName h.1 last.1) :
    Greatest (dynamic ++ [last]) h := by
  refine ⟨List.mem_append_left _ hgreatest.1, fun d hd hsame => ?_⟩
  rcases List.mem_append.1 hd with hd | hd
  · exact hgreatest.2 d hd hsame
  · rw [List.mem_singleton.1 hd] at hsame
    exact absurd hsame.symm hne

/-- **One more dynamic header**, with a greater name than those before, is set. -/
theorem overrides_setHeader (hover : Overrides static dynamic headers)
    (hlast : ∀ d ∈ dynamic, d.1 < last.1) :
    Overrides static (dynamic ++ [last]) (setHeader headers last.1 last.2) where
  sorted := sorted_setHeader hover.sorted last.1 last.2
  kept h hmem hnone := by
    have hne : ¬ SameName last.1 h.1 := hnone last (List.mem_append_right _ List.mem_cons_self)
    have hbefore : h ∈ headers :=
      hover.kept h hmem fun d hd => hnone d (List.mem_append_left _ hd)
    exact mem_setHeader_iff.2 (.inr ⟨hbefore, fun hsame => hne hsame.symm⟩)
  one d hd := by
    by_cases hsame : SameName d.1 last.1
    · -- what was there under this name is taken away
      refine ⟨last, greatest_last hlast, hsame, fun h => ?_⟩
      rw [mem_setHeader_iff]
      constructor
      · rintro ⟨rfl | ⟨-, hne⟩, hh⟩
        · rfl
        · exact absurd (hh.symm.trans hsame) hne
      · rintro rfl
        exact ⟨.inl rfl, hsame⟩
    · have hdynamic : d ∈ dynamic := by
        rcases List.mem_append.1 hd with hd | hd
        · exact hd
        · exact absurd (by rw [List.mem_singleton.1 hd]) hsame
      obtain ⟨g, hgreatest, hg, hone⟩ := hover.one d hdynamic
      have hne : ¬ SameName g.1 last.1 := fun hglast => hsame (hg.trans hglast)
      refine ⟨g, hgreatest.append hne, hg, fun h => ?_⟩
      rw [mem_setHeader_iff, ← hone]
      constructor
      · rintro ⟨rfl | ⟨hmem, -⟩, hh⟩
        · exact absurd hh hsame
        · exact ⟨hmem, hh⟩
      · rintro ⟨hmem, hh⟩
        exact ⟨.inr ⟨hmem, fun hlast => hsame (hh.trans hlast)⟩, hh⟩
  only h hmem := by
    rcases mem_setHeader_iff.1 hmem with rfl | ⟨hmem, hne⟩
    · exact .inr (greatest_last hlast)
    · rcases hover.only h hmem with ⟨hstatic, hnone⟩ | hgreatest
      · refine .inl ⟨hstatic, fun d hd => ?_⟩
        rcases List.mem_append.1 hd with hd | hd
        · exact hnone d hd
        · rw [List.mem_singleton.1 hd]
          exact fun hsame => hne hsame.symm
      · exact .inr (hgreatest.append hne)

/-- **What the loop over the dynamic headers comes to.** -/
theorem overrides_mergeHeaders (hstatic : static.Sorted) (hdynamic : dynamic.Sorted) :
    Overrides static dynamic (mergeHeaders static dynamic) := by
  -- the invariant holds of what has been gone through, so the last header is taken off first
  induction dynamic using List.reverseRecOn with
  | nil => exact overrides_nil hstatic
  | append_singleton dynamic last ih =>
    obtain ⟨hbefore, -, hlast⟩ := List.pairwise_append.1 hdynamic
    rw [mergeHeaders, List.foldl_append]
    exact overrides_setHeader (ih hbefore) fun d hd => hlast d hd last List.mem_cons_self

end Merging

/-! ### Requests -/

namespace Executor

variable {x : Executor} {e : Endpoint} {c : Context} {b b' : Bool} {log : List Entry}

/-- The hook for headers has been asked before anything is sent, and what it has answered, or
nothing when it is not asked, is set. -/
theorem exists_asked_of_prepares {r : Request}
    (h : x.Prepares e c b log b' (.value (.ok r))) :
    ∃ asked b₁ rest dynamic, log = asked ++ rest ∧
      x.AskedHeaders e c b asked b₁ (.value (.ok dynamic)) ∧
      r.headers = mergeHeaders (e.request c).headers dynamic := by
  cases h with
  | ready hasked _ => exact ⟨_, _, _, _, rfl, hasked, rfl⟩

theorem sorted_of_askedHeaders {dynamic : KeyMap String}
    (hdynamic : ∀ b log b' dynamic,
      (x.hooks.beforeRequest (e.request c).url c).Course b log b' (.value (.ok dynamic)) →
        dynamic.Sorted)
    (h : x.AskedHeaders e c b log b' (.value (.ok dynamic))) : dynamic.Sorted := by
  unfold AskedHeaders Asked at h
  split at h
  · exact hdynamic _ _ _ _ h
  · cases h.2.2
    exact KeyMap.sorted_nil

/-- **Which headers a request is sent with.** The headers of an endpoint, with their templates
rendered, and those that the hook answers are maps. In every course of an execution a hook fails or
has a fault before anything is sent, or one request is sent in which the dynamic headers win over
the static ones: a static header is kept just when no dynamic one has its name, in whatever case;
of the dynamic headers whose names differ in case alone there is one, the last in the order of
bytes; and there are no others. -/
theorem execute_headers (x : Executor) (e : Endpoint) (c : Context) (hstatic : e.headers.Sorted)
    (hdynamic : ∀ b log b' dynamic,
      (x.hooks.beforeRequest (e.request c).url c).Course b log b' (.value (.ok dynamic)) →
        dynamic.Sorted) :
    ∀ b log b' y, (x.execute e c).Course b log b' y →
      (∃ cause, x.Prepares e c b log b' (.value (.error cause))) ∨
      (∃ text, x.Prepares e c b log b' (.fault text)) ∨
      ∃ asked b₁ dynamic rest b₂ r reply,
        x.AskedHeaders e c b asked b₁ (.value (.ok dynamic)) ∧
        log = asked ++ rest ++ [⟨b₂, .send r⟩, ⟨b', .receive reply⟩] ∧
        Overrides (e.headers.mapValues fun template => interpolate template c.toJson) dynamic
          r.headers := by
  intro b log b' y h
  rcases course_execute.1 h with ⟨cause, hprepares, -⟩ | ⟨text, hprepares, -⟩ |
    ⟨before, b₂, r, reply, hprepares, -, rfl, -⟩
  · exact .inl ⟨cause, hprepares⟩
  · exact .inr (.inl ⟨text, hprepares⟩)
  · obtain ⟨asked, b₁, rest, dynamic, rfl, hasked, hheaders⟩ := exists_asked_of_prepares hprepares
    have hrendered : (e.request c).headers.Sorted :=
      KeyMap.sorted_mapValues (fun template => interpolate template c.toJson) hstatic
    have hover : Overrides (e.request c).headers dynamic r.headers := by
      rw [hheaders]
      exact overrides_mergeHeaders hrendered (sorted_of_askedHeaders hdynamic hasked)
    exact .inr (.inr ⟨asked, b₁, dynamic, rest, b₂, r, reply, hasked, rfl, hover⟩)

end Executor

/-! ### Two names on either side -/

namespace RivalHeaders

/-- Headers of which two have one name. -/
def answered : KeyMap String :=
  [("X-TOKEN", "1"), ("x-Token", "2")]

/-- Hooks that answer them. -/
def hooks : Hooks :=
  { Hooks.passive with
    beforeRequest := fun _ _ => pure (.ok answered)
    silent_beforeRequest := fun _ _ => trivial }

/-- An endpoint whose headers have that name in two other cases. -/
def endpoint : Endpoint where
  name := "publish"
  url := "https://alpha.test/publish"
  method := .get
  headers := [("Accept", "*/*"), ("X-Token", "a"), ("x-token", "b")]
  encoding := .json
  body := none
  acceptStatus := []
  response := ⟨none, none, []⟩

def executor : Executor :=
  ⟨hooks, true, false⟩

def context : Context :=
  .ofArticle Article.empty

/-- The last of the dynamic headers is sent, and neither the one before it nor the static ones. -/
theorem execute_headers_rivals :
    endpoint.headers.Sorted ∧
    (∀ b log b' dynamic,
      (executor.hooks.beforeRequest (endpoint.request context).url context).Course b log b'
        (.value (.ok dynamic)) → dynamic.Sorted) ∧
    (∀ b log b' y, (executor.execute endpoint context).Course b log b' y →
      (∃ cause, executor.Prepares endpoint context b log b' (.value (.error cause))) ∨
      (∃ text, executor.Prepares endpoint context b log b' (.fault text)) ∨
      ∃ asked b₁ dynamic rest b₂ r reply,
        executor.AskedHeaders endpoint context b asked b₁ (.value (.ok dynamic)) ∧
        log = asked ++ rest ++ [⟨b₂, .send r⟩, ⟨b', .receive reply⟩] ∧
        Overrides (endpoint.headers.mapValues fun template => interpolate template context.toJson)
          dynamic r.headers) ∧
    mergeHeaders (endpoint.request context).headers answered =
      [("Accept", "*/*"), ("x-Token", "2")] := by
  have hstatic : endpoint.headers.Sorted := by
    unfold KeyMap.Sorted
    decide
  have hdynamic : ∀ b log b' dynamic,
      (executor.hooks.beforeRequest (endpoint.request context).url context).Course b log b'
        (.value (.ok dynamic)) → dynamic.Sorted := by
    intro b log b' dynamic h
    have hcourse : (pure (.ok answered) : Program (Except HookError (KeyMap String))).Course b log
        b' (.value (.ok dynamic)) := h
    obtain ⟨-, -, hanswer⟩ := Program.course_pure.1 hcourse
    cases hanswer
    unfold KeyMap.Sorted
    decide
  have hexecute := Executor.execute_headers executor endpoint context hstatic hdynamic
  exact ⟨hstatic, hdynamic, hexecute, by decide +kernel⟩

end RivalHeaders

end Syndication
