import Syndication.Proofs.Workflow.Steps

/-!
# The stages of a run

The steps of a run fall into three parts: the session is checked, the content is brought
into the format of the platform, and what has come of it is saved and made public. The first
hands the context on to the second, and the second to the third.

A course of the steps therefore is one of these parts after another up to the one that does
not succeed, and the run ends as that part has ended.

* `drive_eq`: the steps of a run are its three stages.
* `transform_eq`: what the second stage does.
* `advances_of_course`: how far a course of the steps gets.
* `exists_drive_of_run`: a run is its steps and a last report.
-/

namespace Syndication

namespace Platform

variable (p : Platform)

/-- The first stage: the session is checked. The context that is handed on holds the article
and what is known about the user. -/
def logIn (a : Article) (draftOnly : Bool) : Stage Context :=
  match p.missing? draftOnly with
  | some what => Attempt.within .idle (Attempt.fail (.unsupported what))
  | none => do
    p.enter .idle .checkingAuth
    let user ← Attempt.within .checkingAuth (p.authenticate (.ofArticle a))
    p.enter .checkingAuth .transforming
    return (Context.ofArticle a).merge user

/-- The last stage: a draft is saved and changed, and the post is made public unless a draft is
all that was asked for. -/
def saveAndPublish (draftOnly : Bool) (c : Context) : Stage Publication := do
  let progress ← p.takeStep (p.definition.endpoint? .createDraft) .creatingDraft (.transforming, c)
  let progress ← p.takeStep (p.definition.endpoint? .updateDraft) .updatingDraft progress
  match (p.definition.endpoint? .publish).filter fun _ => !draftOnly with
  | none => p.finishDraft progress
  | some e => p.finishPost e progress

/-- **The steps of a run are its three stages.** -/
theorem drive_eq (k : ContentProcessor) (a : Article) (draftOnly : Bool) :
    p.drive k a draftOnly = p.logIn a draftOnly >>= fun c =>
      Attempt.within .transforming (p.transform k a c) >>= p.saveAndPublish draftOnly := by
  unfold drive logIn
  cases p.missing? draftOnly with
  | some what => rfl
  | none =>
    simp only [bind_assoc, pure_bind]
    rfl

/-- What is left of the second stage once the images are uploaded: the hook changes the content,
and it is brought into the format of the platform. -/
def finishContent (k : ContentProcessor) (format : ContentFormat) (content : String)
    (c : Context) : Attempt Context := do
  let content ← p.contentHook content c
  let content ← Attempt.perform (p.convert k format content).program
  let c := c.setArticleField p.definition.contentFormat.name (.string content)
  return c.setArticleField "content" (.string content)

/-- The second stage: the source is found, the images are uploaded, and the content is finished. -/
theorem transform_eq (k : ContentProcessor) (a : Article) (c : Context) :
    p.transform k a c = match p.source? k a with
      | none => Attempt.fail (.unsupported .content)
      | some (format, source) => Attempt.perform source.program >>= fun text =>
          p.processImages text c >>= fun result => p.uploadCover a result.1 >>= fun c =>
            p.finishContent k format result.2 c :=
  rfl

/-- How far a course of the steps of a run gets, where `T` says how the second stage goes from a
context. -/
inductive Advances (T : Context → Bool → List Entry → Bool → Ending (Except WorkflowError Context) →
    Prop) (a : Article) (draftOnly b : Bool) :
    List Entry → Bool → Ending (Except Failure Publication) → Prop where
  /-- It fails before the content is looked at. -/
  | refused {log : List Entry} {b' : Bool} {f : Failure}
    (h : (p.logIn a draftOnly).run.Course b log b' (.value (.error f))) :
    Advances T a draftOnly b log b' (.value (.error f))
  /-- There is a fault before the content is looked at. -/
  | refusedByFault {log : List Entry} {b' : Bool} {text : Option String}
    (h : (p.logIn a draftOnly).run.Course b log b' (.fault text)) :
    Advances T a draftOnly b log b' (.fault text)
  /-- The content cannot be brought into the format of the platform. -/
  | untransformed {log₁ log₂ : List Entry} {b₁ b' : Bool} {c : Context} {e : WorkflowError}
    (h : (p.logIn a draftOnly).run.Course b log₁ b₁ (.value (.ok c)))
    (ht : T c b₁ log₂ b' (.value (.error e))) :
    Advances T a draftOnly b (log₁ ++ log₂) b' (.value (.error ⟨.transforming, e⟩))
  /-- There is a fault while it is. -/
  | untransformedByFault {log₁ log₂ : List Entry} {b₁ b' : Bool} {c : Context}
    {text : Option String}
    (h : (p.logIn a draftOnly).run.Course b log₁ b₁ (.value (.ok c)))
    (ht : T c b₁ log₂ b' (.fault text)) :
    Advances T a draftOnly b (log₁ ++ log₂) b' (.fault text)
  /-- The content is ready, and the run goes on with it. -/
  | transformed {log₁ log₂ log₃ : List Entry} {b₁ b₂ b' : Bool} {c c' : Context}
    {y : Ending (Except Failure Publication)}
    (h : (p.logIn a draftOnly).run.Course b log₁ b₁ (.value (.ok c)))
    (ht : T c b₁ log₂ b₂ (.value (.ok c')))
    (hs : (p.saveAndPublish draftOnly c').run.Course b₂ log₃ b' y) :
    Advances T a draftOnly b (log₁ ++ (log₂ ++ log₃)) b' y

/-- **How far a course of the steps gets**, whatever is known of the second stage. -/
theorem advances_of_course {k : ContentProcessor} {a : Article} {draftOnly b b' : Bool}
    {log : List Entry} {y : Ending (Except Failure Publication)}
    {T : Context → Bool → List Entry → Bool → Ending (Except WorkflowError Context) → Prop}
    (hT : ∀ {c : Context} {b b' : Bool} {log : List Entry}
      {z : Ending (Except WorkflowError Context)},
      (p.transform k a c).run.Course b log b' z → T c b log b' z)
    (h : (p.drive k a draftOnly).run.Course b log b' y) :
    p.Advances T a draftOnly b log b' y := by
  rw [drive_eq] at h
  obtain ⟨log₁, b₁, c, log₂, hlogIn, hrest, rfl⟩ | ⟨f, hlogIn, rfl⟩ | ⟨text, hlogIn, rfl⟩ :=
    course_run_bind h
  · obtain ⟨log₂, b₂, c', log₃, ht, hs, rfl⟩ | ⟨e, ht, rfl⟩ | ⟨text, ht, rfl⟩ :=
      course_within_bind hrest
    · exact .transformed hlogIn (hT ht) hs
    · exact .untransformed hlogIn (hT ht)
    · exact .untransformedByFault hlogIn (hT ht)
  · exact .refused hlogIn
  · exact .refusedByFault hlogIn

/-! ### The whole run -/

/-- The result of a run whose steps have ended so. -/
def resultOf : Ending (Except Failure Publication) → Except WorkflowError Publication
  | .value (.ok publication) => .ok publication
  | .value (.error f) => .error f.error
  | .fault text => .error (.internal (text.getD defaultFault))

/-- What a run reports when its steps have ended so. -/
def lastWord (b : Bool) : Ending (Except Failure Publication) → List Entry
  | .value (.ok _) => []
  | .value (.error f) => [⟨b, .report (.runFailed p.id f.state f.error.message)⟩]
  | .fault text => [⟨b, .report (.runPanicked p.id (text.getD defaultFault))⟩]

/-- A run is its steps and a last report, and its result is that of its steps. -/
theorem exists_drive_of_run {k : ContentProcessor} {a : Article} {draftOnly b b' : Bool}
    {log : List Entry} {x : Ending (Except WorkflowError Publication)}
    (h : (p.run k a draftOnly).Course b log b' x) :
    ∃ log₁ y, (p.drive k a draftOnly).run.Course b log₁ b' y ∧ log = log₁ ++ p.lastWord b' y ∧
      x = .value (resultOf y) := by
  obtain ⟨publication, hd, rfl⟩ | ⟨log₁, f, hd, rfl, rfl⟩ | ⟨log₁, text, hd, rfl, rfl⟩ :=
    p.course_run h
  · exact ⟨log, _, hd, (List.append_nil log).symm, rfl⟩
  · exact ⟨log₁, _, hd, rfl, rfl⟩
  · exact ⟨log₁, _, hd, rfl, rfl⟩

end Platform

end Syndication
