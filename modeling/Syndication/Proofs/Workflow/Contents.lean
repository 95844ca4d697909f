import Syndication.Proofs.Workflow.Hosting

/-!
# The content of a run

The second stage of a run makes the content that a platform is sent. It begins with a source of the
article, in the format of the platform if there is one in it and as clean HTML otherwise; its images
are replaced by uploaded ones; a hook of the platform may change it; and it is converted once if it
is not in the format of the platform yet. Each part is known from its courses, so the stage is known
as one part after another.

* `begins_of_source?`, `source?_eq_none_iff`: with what the stage begins, and when there is
  nothing to begin with.
* `course_processImages`, `course_contentHook`, `converts_of_convert`: what the parts make of a
  text.
* `course_transform`: how the stage ends, and what it has made if it ends well.
-/

namespace Syndication

/-! ### The source -/

/-- A source of an article is missing: it is absent or blank. -/
def IsMissing (source : Option String) : Prop :=
  ∀ text, source = some text → Text.isBlankText text = true

/-- There is something in a source. -/
def Holds (source : Option String) (text : String) : Prop :=
  source = some text ∧ Text.isBlankText text = false

theorem filter_eq_some_iff {source : Option String} {text : String} :
    source.filter (!Text.isBlankText ·) = some text ↔ Holds source text := by
  simp [Option.filter_eq_some_iff, Holds]

theorem filter_eq_none_iff {source : Option String} :
    source.filter (!Text.isBlankText ·) = none ↔ IsMissing source := by
  simp [Option.filter_eq_none_iff, IsMissing]

namespace Platform

variable (p : Platform)

/-- **With what a platform begins**, and in which format that is. -/
inductive Begins (k : ContentProcessor) (a : Article) : ContentFormat → Conversion → Prop where
  /-- Where the platform takes Markdown, that of the article is taken as it is. -/
  | verbatim {markdown : String} (hnative : p.definition.contentFormat = .markdown)
    (h : Holds a.markdown markdown) : Begins k a .markdown (.ok markdown)
  /-- Otherwise its HTML is cleaned. -/
  | cleaned {html : String}
    (hnot : p.definition.contentFormat = .markdown → IsMissing a.markdown)
    (h : Holds a.html html) : Begins k a .html (k.clean html)
  /-- Where there is none, it is made from the Markdown. -/
  | rendered {markdown : String} (hnative : p.definition.contentFormat = .html)
    (hnone : IsMissing a.html) (h : Holds a.markdown markdown) :
    Begins k a .html (k.markdownToHtml markdown >>= k.clean)

variable {p} {k : ContentProcessor} {a : Article}

theorem source?_eq_none_iff :
    p.source? k a = none ↔ IsMissing a.markdown ∧ IsMissing a.html := by
  rw [← filter_eq_none_iff, ← filter_eq_none_iff]
  unfold source?
  generalize a.markdown.filter (!Text.isBlankText ·) = markdown
  generalize a.html.filter (!Text.isBlankText ·) = html
  cases p.definition.contentFormat <;> cases markdown <;> cases html <;> simp

theorem begins_of_source? {format : ContentFormat} {source : Conversion}
    (h : p.source? k a = some (format, source)) : p.Begins k a format source := by
  unfold source? at h
  cases hnative : p.definition.contentFormat with
  | markdown =>
    cases hmarkdown : a.markdown.filter (!Text.isBlankText ·) with
    | some markdown =>
      simp only [hnative, hmarkdown] at h
      cases h
      exact .verbatim hnative (filter_eq_some_iff.1 hmarkdown)
    | none =>
      cases hhtml : a.html.filter (!Text.isBlankText ·) with
      | some html =>
        simp only [hnative, hmarkdown, hhtml] at h
        cases h
        exact .cleaned (fun _ => filter_eq_none_iff.1 hmarkdown) (filter_eq_some_iff.1 hhtml)
      | none =>
        simp only [hnative, hmarkdown, hhtml] at h
        cases h
  | html =>
    cases hhtml : a.html.filter (!Text.isBlankText ·) with
    | some html =>
      simp only [hnative, hhtml] at h
      cases h
      refine .cleaned (fun hmarkdown => ?_) (filter_eq_some_iff.1 hhtml)
      rw [hnative] at hmarkdown
      cases hmarkdown
    | none =>
      cases hmarkdown : a.markdown.filter (!Text.isBlankText ·) with
      | some markdown =>
        simp only [hnative, hmarkdown, hhtml] at h
        cases h
        exact .rendered hnative (filter_eq_none_iff.1 hhtml) (filter_eq_some_iff.1 hmarkdown)
      | none =>
        simp only [hnative, hmarkdown, hhtml] at h
        cases h

/-! ### The parts of the stage -/

/-- **The stage fails on its way**: a hook that the definition asks for has failed, or the stage was
broken off. -/
def Fails {α : Type} (p : Platform) (b' : Bool) (y : Ending (Except WorkflowError α)) : Prop :=
  (∃ kind cause, p.definition.declares kind = true ∧ y = .value (.error (.hook kind cause))) ∨
  BrokenOff b' y

/-- **What becomes of the images of a text**, and of the context. -/
inductive Illustrates (p : Platform) (c : Context) (text : String) :
    List Entry → Context → String → Prop where
  /-- A hook replaces them. -/
  | hook {log : List Entry} {b b' : Bool} {changed : String}
    (hhook : p.definition.declares .processImages = true)
    (h : (p.hooks.processImages text c).Course b log b' (.value (.ok changed))) :
    Illustrates p c text log c changed
  /-- They are uploaded one after another, and those that could be uploaded are replaced. -/
  | uploaded {log : List Entry} {c' : Context} {uploads : List Upload} {hosted : KeyMap String}
    (hhook : p.definition.declares .processImages = false)
    (htakes : p.definition.supports .imageUpload = true) (hcan : p.canUpload = true)
    (himages : uploads.map (·.source) = imageSources text)
    (hturn : p.InTurn c uploads log c')
    (hhosted : ∀ source address, hosted.find? source = some address ↔
      ∃ u ∈ uploads, u.source = source ∧ u.outcome = .ok address) :
    Illustrates p c text log c' (withHostedImages hosted text)
  /-- The platform does not take any, or there is no way to upload them. -/
  | untouched (hhook : p.definition.declares .processImages = false)
    (hnot : p.definition.supports .imageUpload = false ∨ p.canUpload = false) :
    Illustrates p c text [] c text

/-- **What becomes of a text by the hook** for the content, if the definition asks for it. -/
inductive Changes (p : Platform) (c : Context) (text : String) : List Entry → String → Prop where
  | hook {log : List Entry} {b b' : Bool} {changed : String}
    (hhook : p.definition.declares .contentTransform = true)
    (h : (p.hooks.contentTransform text c).Course b log b' (.value (.ok changed))) :
    Changes p c text log changed
  | untouched (hhook : p.definition.declares .contentTransform = false) : Changes p c text [] text

end Platform

/-- **What a text is in another format**: it is converted once if the formats differ, and stays as
it is otherwise. -/
inductive ContentProcessor.Converts (k : ContentProcessor) :
    ContentFormat → ContentFormat → String → String → Prop where
  | same (format : ContentFormat) (text : String) : Converts k format format text text
  | toHtml {markdown html : String} (h : k.markdownToHtml markdown = .ok html) :
    Converts k .markdown .html markdown html
  | toMarkdown {html markdown : String} (h : k.htmlToMarkdown html = .ok markdown) :
    Converts k .html .markdown html markdown

namespace Platform

variable {α : Type} {p : Platform} {k : ContentProcessor} {a : Article} {c : Context}
  {text : String} {format : ContentFormat} {b b' : Bool} {log : List Entry}

/-- What is done with the answer of a hook. -/
theorem course_hook {kind : Hook} {q : Program (Except HookError String)} (give : String → α)
    {f : Except HookError String → Attempt α}
    (hok : ∀ changed, f (.ok changed) = pure (give changed))
    (herror : ∀ cause, f (.error cause) = Attempt.fail (.hook kind cause))
    {y : Ending (Except WorkflowError α)}
    (h : (Attempt.perform q >>= f).run.Course b log b' y) :
    (∃ changed, y = .value (.ok (give changed)) ∧
      q.Course b log b' (.value (.ok changed))) ∨
    (∃ cause, y = .value (.error (.hook kind cause))) ∨ ∃ text, y = .fault text := by
  rw [run_perform_bind] at h
  obtain ⟨log₁, b₁, answer, log₂, hq, hr, rfl⟩ | ⟨text, -, rfl⟩ := Program.course_bind.1 h
  · cases answer with
    | ok changed =>
      simp only [hok] at hr
      obtain ⟨rfl, rfl, rfl⟩ := Program.course_pure.1 hr
      exact .inl ⟨changed, rfl, by rwa [List.append_nil]⟩
    | error cause =>
      simp only [herror] at hr
      obtain ⟨-, -, rfl⟩ := Program.course_pure.1 hr
      exact .inr (.inl ⟨cause, rfl⟩)
  · exact .inr (.inr ⟨text, rfl⟩)

/-- **The images of a text** become what `Illustrates` says, or the stage fails. -/
theorem course_processImages {y : Ending (Except WorkflowError (Context × String))}
    (h : (p.processImages text c).run.Course b log b' y) :
    (∃ r, y = .value (.ok r) ∧ p.Illustrates c text log r.1 r.2) ∨ p.Fails b' y := by
  cases hhook : p.definition.declares .processImages with
  | true =>
    rw [processImages, hhook, if_pos rfl] at h
    obtain ⟨changed, rfl, hq⟩ | ⟨cause, rfl⟩ | ⟨text, rfl⟩ :=
      course_hook (fun changed => (c, changed)) (fun _ => rfl) (fun _ => rfl) h
    · exact .inl ⟨_, rfl, .hook hhook hq⟩
    · exact .inr (.inl ⟨_, cause, hhook, rfl⟩)
    · exact .inr (.inr (.inr ⟨text, rfl⟩))
  | false =>
    by_cases htakes : p.definition.supports .imageUpload = true ∧ p.canUpload = true
    · rw [processImages_eq hhook htakes.1 htakes.2] at h
      obtain ⟨⟨c₁, hosted⟩, log₁, b₁, log₂, ⟨uploads, himages, hturn, rfl⟩, hr, rfl⟩ |
        ⟨-, hbroken⟩ := course_bind_of_brokenOff (course_uploadAll htakes.2) h
      · obtain ⟨rfl, -, rfl⟩ := Program.course_pure.1 hr
        have hnodup : (uploads.map (·.source)).Nodup := himages ▸ nodup_imageSources text
        refine .inl ⟨_, rfl, ?_⟩
        rw [List.append_nil]
        refine .uploaded hhook htakes.1 htakes.2 himages hturn fun source address => ?_
        rw [find?_hostedBy_iff hnodup fun _ _ => rfl]
        simp [KeyMap.find?]
      · exact .inr (.inr hbroken)
    · have hnot : ¬ (p.definition.supports .imageUpload && p.canUpload) = true :=
        fun hboth => htakes (Bool.and_eq_true_iff.1 hboth)
      rw [processImages, hhook, if_neg Bool.false_ne_true, if_neg hnot] at h
      obtain ⟨rfl, -, rfl⟩ := Program.course_pure.1 h
      refine .inl ⟨_, rfl, .untouched hhook ?_⟩
      rwa [← Bool.and_eq_false_iff, ← Bool.not_eq_true]

/-- **The hook for the content** makes of it what `Changes` says, or the stage fails. -/
theorem course_contentHook {y : Ending (Except WorkflowError String)}
    (h : (p.contentHook text c).run.Course b log b' y) :
    (∃ changed, y = .value (.ok changed) ∧ p.Changes c text log changed) ∨ p.Fails b' y := by
  cases hhook : p.definition.declares .contentTransform with
  | true =>
    rw [contentHook, hhook, if_pos rfl] at h
    obtain ⟨changed, rfl, hq⟩ | ⟨cause, rfl⟩ | ⟨text, rfl⟩ :=
      course_hook (fun changed => changed) (fun _ => rfl) (fun _ => rfl) h
    · exact .inl ⟨_, rfl, .hook hhook hq⟩
    · exact .inr (.inl ⟨_, cause, hhook, rfl⟩)
    · exact .inr (.inr (.inr ⟨text, rfl⟩))
  | false =>
    rw [contentHook, hhook, if_neg Bool.false_ne_true] at h
    obtain ⟨rfl, -, rfl⟩ := Program.course_pure.1 h
    exact .inl ⟨_, rfl, .untouched hhook⟩

/-- A conversion shows nothing, and gives its text or a fault. -/
theorem course_conversion {conversion : Conversion} {y : Ending (Except WorkflowError String)}
    (h : (Attempt.perform conversion.program).run.Course b log b' y) :
    (∃ r, y = .value (.ok r) ∧ log = [] ∧ conversion = .ok r) ∨ p.Fails b' y := by
  cases conversion with
  | ok r =>
    obtain ⟨rfl, -, rfl⟩ := Program.course_pure.1 h
    exact .inl ⟨r, rfl, rfl, rfl⟩
  | error fault =>
    obtain ⟨-, -, rfl⟩ := Program.course_fault.1 h
    exact .inr (.inr (.inr ⟨fault, rfl⟩))

theorem converts_of_convert {content : String} (h : p.convert k format text = .ok content) :
    k.Converts format p.definition.contentFormat text content := by
  unfold convert at h
  by_cases hsame : format = p.definition.contentFormat
  · rw [if_pos hsame] at h
    cases h
    rw [← hsame]
    exact .same format text
  · rw [if_neg hsame] at h
    cases hnative : p.definition.contentFormat with
    | html =>
      rw [hnative] at h hsame
      cases format with
      | html => exact absurd rfl hsame
      | markdown => exact .toHtml h
    | markdown =>
      rw [hnative] at h hsame
      cases format with
      | html => exact .toMarkdown h
      | markdown => exact absurd rfl hsame

/-! ### The stage -/

/-- **How the second stage ends well** from the context `c`: it has come to the context `c'` and the
content, which is still to be written into it. -/
inductive Composes (p : Platform) (k : ContentProcessor) (a : Article) (c : Context) :
    List Entry → Context → Option Upload → String → Prop where
  | stages {format : ContentFormat} {source illustrated changed content : String}
    {cover : Option Upload} {log₁ log₂ log₃ : List Entry} {c₁ c₂ : Context}
    (hbegins : p.Begins k a format (.ok source))
    (hillustrates : p.Illustrates c source log₁ c₁ illustrated)
    (hcover : cover.map (·.source) = p.coverToUpload? a)
    (hwith : p.WithCover c₁ cover log₂ c₂)
    (hchanges : p.Changes c₂ illustrated log₃ changed)
    (hconverts : k.Converts format p.definition.contentFormat changed content) :
    Composes p k a c (log₁ ++ (log₂ ++ log₃)) c₂ cover content

/-- What a course of a part of the stage after another is made of. -/
theorem course_bind_of_fails {α β : Type} {x : Attempt α} {f : α → Attempt β}
    {ends : α → List Entry → Prop} {z : Ending (Except WorkflowError β)}
    (hx : ∀ {log : List Entry} {b' : Bool} {y : Ending (Except WorkflowError α)},
      x.run.Course b log b' y → (∃ r, y = .value (.ok r) ∧ ends r log) ∨ p.Fails b' y)
    (h : (x >>= f).run.Course b log b' z) :
    (∃ r log₁ b₁ log₂, ends r log₁ ∧ (f r).run.Course b₁ log₂ b' z ∧ log = log₁ ++ log₂) ∨
    p.Fails b' z := by
  obtain ⟨log₁, b₁, r, log₂, hx', hf, rfl⟩ | ⟨e, hx', rfl⟩ | ⟨text, -, rfl⟩ := course_run_bind h
  · obtain ⟨_, hv, hends⟩ | ⟨_, _, -, hv⟩ | ⟨hv, -⟩ | ⟨_, hv⟩ := hx hx' <;> cases hv
    exact .inl ⟨r, log₁, b₁, log₂, hends, hf, rfl⟩
  · obtain ⟨_, hv, -⟩ | ⟨kind, cause, hkind, hv⟩ | ⟨hv, hfired⟩ | ⟨_, hv⟩ := hx hx' <;> cases hv
    · exact .inr (.inl ⟨kind, cause, hkind, rfl⟩)
    · exact .inr (.inr (.inl ⟨rfl, hfired⟩))
  · exact .inr (.inr (.inr ⟨text, rfl⟩))

/-- **How the second stage goes.** With nothing to begin with it ends at once; otherwise it fails on
its way, or it ends well and the content is written into the context under two names. -/
theorem course_transform {y : Ending (Except WorkflowError Context)}
    (h : (p.transform k a c).run.Course b log b' y) :
    ((IsMissing a.markdown ∧ IsMissing a.html) ∧ log = [] ∧ b' = b ∧
      y = .value (.error (.unsupported .content))) ∨
    ¬ (IsMissing a.markdown ∧ IsMissing a.html) ∧
      (p.Fails b' y ∨ ∃ c' cover content, p.Composes k a c log c' cover content ∧
        y = .value (.ok ((c'.setArticleField p.definition.contentFormat.name
          (.string content)).setArticleField "content" (.string content)))) := by
  rw [transform_eq] at h
  cases hsource : p.source? k a with
  | none =>
    simp only [hsource] at h
    obtain ⟨rfl, rfl, rfl⟩ := Program.course_pure.1 h
    exact .inl ⟨source?_eq_none_iff.1 hsource, rfl, rfl, rfl⟩
  | some found =>
    obtain ⟨format, conversion⟩ := found
    have hbegins := begins_of_source? hsource
    have hsome : ¬ (IsMissing a.markdown ∧ IsMissing a.html) := by
      rw [← source?_eq_none_iff (p := p) (k := k), hsource]
      exact nofun
    simp only [hsource] at h
    refine .inr ⟨hsome, ?_⟩
    -- one part after another, each of which may fail
    obtain ⟨source, _, _, _, ⟨rfl, rfl⟩, h₁, rfl⟩ | hfails :=
      course_bind_of_fails course_conversion h
    · obtain ⟨⟨c₁, illustrated⟩, log₁, _, _, hillustrates, h₂, rfl⟩ | hfails :=
        course_bind_of_fails course_processImages h₁
      · obtain ⟨c₂, log₂, _, _, ⟨cover, hcover, hwith⟩, h₃, rfl⟩ | hfails :=
          course_bind_of_fails (fun hcourse =>
            (course_uploadCover hcourse).imp_right fun hbroken => .inr hbroken.2) h₂
        · obtain ⟨changed, log₃, _, _, hchanges, h₄, rfl⟩ | hfails :=
            course_bind_of_fails course_contentHook h₃
          · obtain ⟨content, _, _, _, ⟨rfl, hconvert⟩, h₅, rfl⟩ | hfails :=
              course_bind_of_fails course_conversion h₄
            · obtain ⟨rfl, -, rfl⟩ := Program.course_pure.1 h₅
              refine .inr ⟨c₂, cover, content, ?_, rfl⟩
              simp only [List.append_nil]
              exact .stages hbegins hillustrates hcover hwith hchanges
                (converts_of_convert hconvert)
            · exact .inl hfails
          · exact .inl hfails
        · exact .inl hfails
      · exact .inl hfails
    · exact .inl hfails

end Platform

end Syndication
