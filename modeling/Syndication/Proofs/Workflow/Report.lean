import Syndication.Proofs.Workflow.Threading

/-!
# What a run reports

A run that ends well reports an id and an address. Left at the draft, these are the id of the draft
and the address that the template for drafts gives, both as the last step for the draft has left
them. Of a post they are what publishing has extracted, and where it has extracted nothing, the id
of the draft and the address that the template for posts gives.

The report of a post is read off the context though, and the context does not tell what publishing
has extracted from what a step before it has. So a text that an earlier step has left under the
name of the id, or of the address, is reported of the post when publishing extracts nothing under
that name (`Context.Lingers`).

* `getString?_eq_reported?`, `addresses_address?`: what the parts of a report are.
* `Platform.reportsPost_postPublication`: what is reported of a post.
* `Platform.ends_saveAndPublish`: how the third stage ends well.
* `Platform.run_reports`: what a run reports.
-/

namespace Syndication

/-! ### The parts of a report -/

/-- The text that a value is reported as: a text is reported itself unless it is empty, and a number
as it is written out. -/
def Json.reported? : Json → Option String
  | .string s => if s = "" then none else some s
  | .number n => some n.text
  | _ => none

/-- The text that is reported for what a step has extracted under a name, the last of the values
with that name. -/
def extracted? (outputs : KeyMap Json) (name : String) : Option String :=
  (KeyMap.find? name outputs.reverse).bind Json.reported?

namespace Context

variable {c : Context} {outputs : KeyMap Json} {name : String}

/-- The text that is reported for what a context has under a name. -/
def reported? (c : Context) (name : String) : Option String :=
  (c.data.find? name).bind Json.reported?

theorem getString?_eq_reported? (c : Context) (hname : FieldPath.parse? name = some ⟨[name]⟩) :
    c.getString? name = c.reported? name := by
  have hget : c.get? name = c.data.find? name := by
    rw [get?, hname, Option.bind_some, FieldPath.resolve_cons]
    exact Option.bind_fun_some _
  rw [getString?, hget, reported?]
  cases c.data.find? name with
  | none => rfl
  | some value =>
    cases value with
    | string s =>
      show (if s.isEmpty then none else some s) = if s = "" then none else some s
      simp only [String.isEmpty_iff]
    | _ => rfl

/-- A template, if there is one, gives this address in a context: its rendering there, unless that
is empty. -/
def Addresses (template : Option String) (c : Context) (address : Option String) : Prop :=
  ∀ text, address = some text ↔ text ≠ "" ∧ ∃ t, template = some t ∧ interpolate t c.toJson = text

theorem addresses_address? (template : Option String) (c : Context) :
    Addresses template c (Platform.address? template c) := by
  intro text
  rw [Platform.address?, Option.filter_eq_some_iff, Option.map_eq_some_iff, Bool.not_eq_true',
    Bool.eq_false_iff, Ne, String.isEmpty_iff, and_comm]

/-- A text that an earlier step has left under a name is still found there after a step that has
extracted nothing under that name. -/
def Lingers (c : Context) (outputs : KeyMap Json) (name : String) : Prop :=
  KeyMap.find? name outputs.reverse = none ∧ c.reported? name ≠ none

/-- The context with the id that is reported of a post. -/
def withPostId (c : Context) (id : Option String) : Context :=
  id.elim c fun id => c.set "post_id" (.string id)

/-- No other name is touched by the id. -/
theorem reported?_withPostId (c : Context) (id : Option String) (hname : name ≠ "post_id") :
    (c.withPostId id).reported? name = c.reported? name := by
  cases id with
  | none => rfl
  | some id => exact congrArg (Option.bind · _) (KeyMap.find?_insert_ne hname _ _)

/-- What lingers is found once the step is over. -/
theorem reported?_merge_of_lingers (h : c.Lingers outputs name) :
    (c.merge outputs).reported? name = c.reported? name := by
  rw [reported?, find?_merge, h.1]
  rfl

/-- Where nothing lingers, what was extracted is reported. -/
theorem reported?_merge_or (other : Option String) (h : ¬c.Lingers outputs name) :
    ((c.merge outputs).reported? name).or other = (extracted? outputs name).or other := by
  rw [reported?, find?_merge, extracted?]
  -- a value that was extracted is found before any other, even if it is none to be reported
  cases hown : KeyMap.find? name outputs.reverse with
  | some value => rfl
  | none =>
    have hnone : c.reported? name = none := by
      by_contra hsome
      exact h ⟨hown, hsome⟩
    show (c.reported? name).or other = _
    rw [hnone]
    rfl

end Context

namespace Platform

variable (p : Platform)

/-- **The report of a draft**, in the context that the last step for it has left. -/
structure ReportsDraft (c : Context) (publication : Publication) : Prop where
  draftOnly : publication.draftOnly = true
  postId : publication.postId = c.reported? "draft_id"
  postUrl : c.Addresses p.definition.draftUrl publication.postUrl

/-- **The report of a post** that was made public in the context `c`, where publishing has extracted
`outputs`. -/
structure ReportsPost (c : Context) (outputs : KeyMap Json) (publication : Publication) : Prop where
  draftOnly : publication.draftOnly = false
  postId : ¬c.Lingers outputs "post_id" →
    publication.postId = (extracted? outputs "post_id").or (c.reported? "draft_id")
  postId_of_lingers : c.Lingers outputs "post_id" →
    publication.postId = c.reported? "post_id"
  /-- The template for the address is rendered in a context that has the reported id. -/
  postUrl : ¬c.Lingers outputs "post_url" → ∃ address,
    ((c.merge outputs).withPostId publication.postId).Addresses p.definition.postUrl address ∧
      publication.postUrl = (extracted? outputs "post_url").or address
  postUrl_of_lingers : c.Lingers outputs "post_url" →
    publication.postUrl = c.reported? "post_url"

variable {p}

theorem reportsDraft_draftPublication (c : Context) : p.ReportsDraft c (p.draftPublication c) where
  draftOnly := rfl
  postId := c.getString?_eq_reported? rfl
  postUrl := Context.addresses_address? _ c

/-- The id of a post is read off the context that publishing has left. -/
theorem postId_postPublication (c : Context) (outputs : KeyMap Json) :
    (p.postPublication (c.getString? "draft_id") (c.merge outputs)).postId =
      ((c.merge outputs).reported? "post_id").or (c.reported? "draft_id") := by
  show ((c.merge outputs).getString? "post_id").or (c.getString? "draft_id") = _
  rw [Context.getString?_eq_reported? _ rfl, Context.getString?_eq_reported? _ rfl]

/-- So is its address, and the template is rendered in that context with the reported id. -/
theorem postUrl_postPublication (draftId : Option String) (c : Context) :
    (p.postPublication draftId c).postUrl = (c.reported? "post_url").or
      (address? p.definition.postUrl (c.withPostId (p.postPublication draftId c).postId)) := by
  rw [← c.reported?_withPostId (p.postPublication draftId c).postId (by decide),
    ← Context.getString?_eq_reported? _ rfl]
  unfold postPublication
  cases (c.getString? "post_id").or draftId <;> rfl

/-- The context before publishing and what publishing extracts tell the report of a post. -/
theorem reportsPost_postPublication (c : Context) (outputs : KeyMap Json) :
    p.ReportsPost c outputs
      (p.postPublication (c.getString? "draft_id") (c.merge outputs)) where
  draftOnly := rfl
  postId hown := by rw [postId_postPublication, Context.reported?_merge_or _ hown]
  postId_of_lingers hlingers := by
    rw [postId_postPublication, Context.reported?_merge_of_lingers hlingers]
    exact Option.or_of_isSome (Option.isSome_iff_ne_none.2 hlingers.2)
  postUrl hown := by
    refine ⟨_, Context.addresses_address? _ _, ?_⟩
    rw [postUrl_postPublication, Context.reported?_merge_or _ hown]
  postUrl_of_lingers hlingers := by
    rw [postUrl_postPublication, Context.reported?_merge_of_lingers hlingers]
    exact Option.or_of_isSome (Option.isSome_iff_ne_none.2 hlingers.2)

/-! ### How a run ends well -/

/-- **How a run ends well**, where `view` tells the context of a step from what was seen before
it: it is left at the draft, or publishing is the last that is executed. -/
inductive Concludes (p : Platform) (view : List Entry → Context) (draftOnly : Bool) :
    List Entry → Publication → Prop where
  | draft {log : List Entry} {publication : Publication}
    (hdraft : draftOnly = true ∨ p.definition.endpoint? .publish = none)
    (hreport : p.ReportsDraft (view log) publication) :
    p.Concludes view draftOnly log publication
  | post {before during : List Entry} {b b' : Bool} {e : Endpoint} {r : Execution}
    {publication : Publication}
    (hpost : draftOnly = false) (hendpoint : p.definition.endpoint? .publish = some e)
    (hexecute : (p.executor.execute e (view before)).Course b during b' (.value (.ok r)))
    (houtputs : r.outputs = e.response.outputs r.response)
    (hreport : p.ReportsPost (view before) r.outputs publication) :
    p.Concludes view draftOnly
      (before ++ ⟨b, .report (.executing p.id .publishing e (view before))⟩ :: (during ++
        [⟨b', .report (.executed p.id .publishing (some r.outputs))⟩,
          ⟨false, .report (.transition p.id .publishing .done)⟩]))
      publication

variable {view view' : List Entry → Context} {draftOnly : Bool} {log log' : List Entry}
  {publication : Publication}

theorem Concludes.after
    (h : p.Concludes (fun before => view (log ++ before)) draftOnly log' publication) :
    p.Concludes view draftOnly (log ++ log') publication := by
  cases h with
  | draft hdraft hreport => exact .draft hdraft hreport
  | post hpost hendpoint hexecute houtputs hreport =>
    rw [← List.append_assoc]
    exact .post hpost hendpoint hexecute houtputs hreport

theorem Concludes.congr (h : p.Concludes view draftOnly log publication)
    (hview : ∀ before after, log = before ++ after → view before = view' before) :
    p.Concludes view' draftOnly log publication := by
  cases h with
  | draft hdraft hreport =>
    rw [hview log [] (List.append_nil log).symm] at hreport
    exact .draft hdraft hreport
  | post hpost hendpoint hexecute houtputs hreport =>
    rw [hview _ _ rfl] at hexecute hreport ⊢
    exact .post hpost hendpoint hexecute houtputs hreport

end Platform

/-- Where what is left of a run ends well, it does so in the context `c` and what its own steps
add. -/
def Stage.Ends (x : Stage Publication) (p : Platform) (c : Context) (draftOnly : Bool) : Prop :=
  ∀ ⦃b : Bool⦄ ⦃log : List Entry⦄ ⦃b' : Bool⦄ ⦃publication : Publication⦄,
    x.run.Course b log b' (.value (.ok publication)) →
      p.Concludes c.grown draftOnly log publication

variable {p : Platform} {c : Context} {draftOnly : Bool}

/-- What comes after a part that leads on ends in the context that it hands on. -/
theorem Stage.Leads.ends_bind {α : Type} {x : Stage α} {next : α → Context}
    {f : α → Stage Publication} (hx : x.Leads p c next)
    (hf : ∀ a, (f a).Ends p (next a) draftOnly) : (x >>= f).Ends p c draftOnly := by
  intro b log b' publication hcourse
  obtain ⟨log₁, b₁, a, log₂, hfirst, hrest, rfl⟩ | ⟨_, -, hv⟩ | ⟨_, -, hv⟩ :=
    course_run_bind hcourse
  · refine ((hf a hrest).congr fun before _ _ => ?_).after
    rw [c.grown_append, hx.grown hfirst]
  · cases hv
  · cases hv

namespace Platform

/-- Left at the draft, the report is that of the draft. -/
theorem ends_finishDraft (s : WorkflowState)
    (hdraft : draftOnly = true ∨ p.definition.endpoint? .publish = none) :
    (p.finishDraft (s, c)).Ends p c draftOnly := by
  refine (leads_enter _ _).ends_bind fun _ => (leads_enter _ _).ends_bind fun _ => ?_
  intro b log b' publication hcourse
  obtain ⟨rfl, -, hv⟩ := Program.course_pure.1 hcourse
  cases hv
  exact .draft hdraft (reportsDraft_draftPublication c)

/-- Made public, the report is that of the post. -/
theorem ends_finishPost {e : Endpoint} (s : WorkflowState) (hpost : draftOnly = false)
    (hendpoint : p.definition.endpoint? .publish = some e) :
    (p.finishPost e (s, c)).Ends p c draftOnly := by
  refine (leads_enter _ _).ends_bind fun _ => ?_
  intro b log b' publication hcourse
  obtain ⟨log₁, b₁, c', log₂, hexecute, hrest, rfl⟩ | ⟨_, -, hv⟩ | ⟨_, -, hv⟩ :=
    course_within_bind hcourse
  · obtain ⟨_, hcall, hok⟩ := exists_call_of_execute hexecute
    obtain ⟨r, rfl, rfl⟩ := hok c' rfl
    obtain ⟨during, hx, ⟨_, hv, rfl⟩ | ⟨_, hv, -⟩⟩ := course_call hcall <;> cases hv
    -- all that is left is the step to the last state
    obtain ⟨log₃, b₃, _, log₄, henter, hend, rfl⟩ | ⟨_, -, hv⟩ | ⟨_, -, hv⟩ :=
      course_run_bind hrest
    · obtain ⟨rfl, -, hv⟩ := Program.course_pure.1 hend
      cases hv
      obtain ⟨-, hv⟩ | ⟨rfl, -, -⟩ := course_enter henter
      · cases hv
      · rw [List.append_nil, List.cons_append, List.append_assoc]
        -- nothing is seen before the execution
        change p.Concludes c.grown draftOnly ([] ++ _) _
        exact .post hpost hendpoint hx (outputs_of_execute hx) (reportsPost_postPublication c _)
    · cases hv
    · cases hv
  · cases hv
  · cases hv

/-- **The third stage ends well** in the context that the second has left. -/
theorem ends_saveAndPublish : (p.saveAndPublish draftOnly c).Ends p c draftOnly := by
  refine (leads_takeStep _ _ _).ends_bind fun progress => ?_
  obtain ⟨s, c⟩ := progress
  refine (leads_takeStep _ _ _).ends_bind fun progress => ?_
  obtain ⟨s, c⟩ := progress
  split
  · rename_i hnone
    refine ends_finishDraft s ?_
    cases draftOnly with
    | true => exact .inl rfl
    | false => exact .inr (Option.eq_none_iff_forall_ne_some.2 (by simpa using hnone))
  · rename_i e hsome
    obtain ⟨hendpoint, hpost⟩ := Option.filter_eq_some_iff.1 hsome
    exact ends_finishPost s (Bool.not_eq_true' _ ▸ hpost) hendpoint

/-- **What a run of an article reports**: its steps have the contexts that are seen with one cover
and one content, and it ends well in those. -/
def Reports (p : Platform) (a : Article) (draftOnly : Bool) (log : List Entry)
    (publication : Publication) : Prop :=
  ∃ cover content, (cover = none ↔ p.coverToUpload? a = none) ∧
    p.Threads (p.sees a cover content) log ∧
    p.Concludes (p.sees a cover content) draftOnly log publication

theorem reports_of_run {k : ContentProcessor} {a : Article} {b b' : Bool} {log : List Entry}
    {publication : Publication}
    (h : (p.run k a draftOnly).Course b log b' (.value (.ok publication))) :
    p.Reports a draftOnly log publication := by
  obtain ⟨_, hdrive, hv⟩ | ⟨_, _, _, _, hv⟩ | ⟨_, _, _, _, hv⟩ := p.course_run h <;> cases hv
  -- no run ends well that has not come to its third stage
  cases p.advances_of_course (fun ht => ht) hdrive with
  | @transformed log₁ log₂ log₃ _ _ _ c c' _ hlogIn ht hs =>
    obtain ⟨cover, content, hcover, hthreads, hview⟩ := exists_view_of_stages hlogIn ht hs
    rw [← List.append_assoc]
    exact ⟨cover, content, hcover,
      hthreads.append ((renders_saveAndPublish draftOnly hs).congr hview),
      ((ends_saveAndPublish hs).congr hview).after⟩

/-- **What a run that ends well reports**, on every course and on the clock. Left at the draft, it
reports the id of the draft and the address from the template, both in the context that all its
steps have left. Of a post it reports what publishing, its last step, has extracted, or else the id
of the draft and the address from the template, which knows the id that is reported; under a name
under which a text of an earlier step lingers that text is reported instead. -/
theorem run_reports (p : Platform) (k : ContentProcessor) (a : Article) (draftOnly : Bool) :
    (∀ b log b' publication,
      (p.run k a draftOnly).Course b log b' (.value (.ok publication)) →
        p.Reports a draftOnly log publication) ∧
    ∀ (σ : Type) (t : Transport σ) (w : World σ) (publication : Publication),
      (Syndication.run t w (p.run k a draftOnly)).1 = some (.ok publication) →
        ∃ log, p.Reports a draftOnly log publication ∧
          (Syndication.run t w (p.run k a draftOnly)).2.journal = w.journal ++ told log := by
  refine ⟨fun b log b' publication h => reports_of_run h, fun σ t w publication hresult => ?_⟩
  obtain ⟨b, log, b', x, hc, hrun, hjournal⟩ :=
    Company.exists_course_of_run t w (p.run k a draftOnly)
  cases x with
  | value r =>
    cases hresult.symm.trans hrun
    exact ⟨log, reports_of_run hc, hjournal⟩
  | fault text => cases hresult.symm.trans hrun

end Platform

/-! ### A post with the id of an earlier step -/

namespace LingeringId

/-- An endpoint that extracts these. -/
def endpoint (name : String) (extract : KeyMap Expression) : Endpoint :=
  { UnfetchedImages.endpoint name .post with response := ⟨none, none, extract⟩ }

theorem nothing_provided : ∀ hook ∈ ([] : List Hook), Hooks.absent.provides hook = true :=
  List.forall_mem_nil _

/-- A platform that gives an id to the draft and one to the post when the draft is saved, and
nothing when the post is made public. -/
def platform : Platform where
  definition :=
    { UnfetchedImages.platform.definition with
      capabilities := [.article, .draft]
      endpoints :=
        [("create_draft", endpoint "save"
          [("draft_id", .field ⟨["draft"]⟩), ("post_id", .field ⟨["post"]⟩)]),
        ("publish", endpoint "publish" [])]
      postUrl := some "https://alpha.test/p/\x7b\x7bpost_id\x7d\x7d" }
  hooks := .absent
  provided := nothing_provided

/-- An article. -/
def article : Article :=
  { Article.empty with title := "Hello", markdown := some "Hello" }

/-- The draft is saved. -/
def world : World (List Route) :=
  .start [⟨none, "alpha.test/save", none, .zero,
      .answer (.ofText 200 "\x7b\"draft\": \"d1\", \"post\": \"p1\"\x7d")⟩,
    ⟨none, "alpha.test", none, .zero, .answer (.ofText 200 "")⟩]

/-- Publishing extracts nothing, and what is reported of the post is the id that came with the
draft. -/
theorem run_reports_lingering :
    (run .scripted world (platform.run .basic article false)).1 =
      some (.ok ⟨some "p1", some "https://alpha.test/p/p1", false⟩) ∧
    ((run .scripted world (platform.run .basic article false)).2.journal.filterMap
      fun entry => entry.2.extracted?) =
        [[], [("draft_id", .string "d1"), ("post_id", .string "p1")], []] := by
  have hvalue : (advance .scripted (platform.run .basic article false) none world).1.value? =
      some (.ok ⟨some "p1", some "https://alpha.test/p/p1", false⟩) := by
    decide +kernel
  rw [run, runAll_singleton hvalue rfl]
  refine ⟨rfl, ?_⟩
  decide +kernel

end LingeringId

end Syndication
