import Syndication.Proofs.Workflow.Threading

/-!
# What the second stage writes

The content that a run sends stands in its context under two names of the article: that of its
format, and `content`. Besides these the second stage changes the cover of the article, when one was
uploaded, and the address of the image that was fetched last; every other value that a template can
find is the one that was there before.

* `Context.stores_withContent`: what is found afterwards, name by name.
* `Platform.transform_writes`: the second stage as a whole.
-/

namespace Syndication

namespace Context

/-- **The context `c'` is the context `c` with a content stored**, where the article of `c` has the
fields `fields`, `image` is the address of the image that was fetched last, and `cover` that of the
uploaded cover. -/
structure Stores (c c' : Context) (fields : KeyMap Json) (image cover : Option String)
    (format : ContentFormat) (content : String) : Prop where
  blobs : c'.blobs = c.blobs
  /-- At the top nothing else has changed than the article and the address of the image. -/
  top : ∀ name, name ≠ "article" → name ≠ "image_url" → c'.data.find? name = c.data.find? name
  image_url : c'.data.find? "image_url" = (image.map Json.string).or (c.data.find? "image_url")
  article : ∃ fields' : KeyMap Json, c'.data.find? "article" = some (.object fields') ∧
    fields'.find? "content" = some (.string content) ∧
    fields'.find? format.name = some (.string content) ∧
    fields'.find? "cover" = (cover.map Json.string).or (fields.find? "cover") ∧
    ∀ name, name ≠ "content" → name ≠ format.name → name ≠ "cover" →
      fields'.find? name = fields.find? name

variable {c : Context} {fields : KeyMap Json}

/-- A field that is set among fields that have been set. -/
theorem setArticleField_set (c : Context) (fields : KeyMap Json) (name : String) (value : Json) :
    (c.set "article" (.object fields)).setArticleField name value =
      c.set "article" (.object (fields.insert name value)) := by
  unfold setArticleField
  rw [find?_data_set_self]
  exact c.set_set _ _ _

theorem setArticleField_of_object (h : c.data.find? "article" = some (.object fields))
    (name : String) (value : Json) :
    c.setArticleField name value = c.set "article" (.object (fields.insert name value)) := by
  unfold setArticleField
  rw [h]

/-- The address of an image is no field of the article. -/
theorem find?_withImage (c : Context) (image : Option String) {name : String}
    (hname : name ≠ "image_url") : (c.withImage image).data.find? name = c.data.find? name := by
  cases image with
  | none => rfl
  | some source => exact KeyMap.find?_insert_ne hname _ _

/-- The fields of an article with a content written. -/
def written (fields : KeyMap Json) (cover : Option String) (format : ContentFormat)
    (content : String) : KeyMap Json :=
  let fields := cover.elim fields fun address => fields.insert "cover" (.string address)
  (fields.insert format.name (.string content)).insert "content" (.string content)

/-- All that is written goes into the article, but for the address of the image. -/
theorem withContent_eq (h : c.data.find? "article" = some (.object fields))
    (image cover : Option String) (format : ContentFormat) (content : String) :
    c.withContent image cover format content =
      (c.withImage image).set "article" (.object (written fields cover format content)) := by
  have himage : (c.withImage image).data.find? "article" = some (.object fields) := by
    rw [find?_withImage c image (by decide), h]
  unfold withContent written
  cases cover with
  | none =>
    show ((c.withImage image).setArticleField format.name _).setArticleField "content" _ = _
    rw [setArticleField_of_object himage, setArticleField_set]
    rfl
  | some address =>
    show (((c.withImage image).setArticleField "cover" _).setArticleField format.name
      _).setArticleField "content" _ = _
    rw [setArticleField_of_object himage, setArticleField_set, setArticleField_set]
    rfl

theorem ne_name (format : ContentFormat) : format.name ≠ "content" ∧ format.name ≠ "cover" := by
  cases format <;> decide

/-- **What is found once a content is written**, name by name. -/
theorem stores_withContent (h : c.data.find? "article" = some (.object fields))
    (image cover : Option String) (format : ContentFormat) (content : String) :
    c.Stores (c.withContent image cover format content) fields image cover format content := by
  obtain ⟨hcontent, hcover⟩ := ne_name format
  have hfields : ∀ name, name ≠ "cover" →
      (cover.elim fields fun address => fields.insert "cover" (.string address)).find? name =
        fields.find? name := by
    intro name hname
    cases cover with
    | none => rfl
    | some address => exact KeyMap.find?_insert_ne hname _ _
  rw [withContent_eq h]
  refine ⟨blobs_withImage c image, fun name harticle himage => ?_, ?_, ?_⟩
  · rw [← find?_withImage c image himage]
    exact KeyMap.find?_insert_ne harticle _ _
  · show ((c.withImage image).data.insert "article" _).find? "image_url" = _
    rw [KeyMap.find?_insert_ne (by decide)]
    cases image with
    | none => rfl
    | some source => exact find?_data_set_self c "image_url" (.string source)
  · refine ⟨written fields cover format content, find?_data_set_self _ _ _,
      KeyMap.find?_insert_self _ _ _, ?_, ?_, fun name hname hname' hname'' => ?_⟩
    · rw [written, KeyMap.find?_insert_ne hcontent, KeyMap.find?_insert_self]
    · rw [written, KeyMap.find?_insert_ne (by decide), KeyMap.find?_insert_ne hcover.symm]
      cases cover with
      | none => rfl
      | some address => exact KeyMap.find?_insert_self _ _ _
    · rw [written, KeyMap.find?_insert_ne hname, KeyMap.find?_insert_ne hname',
        hfields name hname'']

end Context

namespace Platform

/-- **The second stage of a run**, from a context whose article is an object and to which no file is
bound. It ends for want of something to begin with exactly when both sources of the article are
missing, and then nothing was seen of it; otherwise it fails on its way, or it ends well. Then its
content has come about as `Composes` says, from the source over its images, the hook for the content
and one conversion at most, and the context is the one before with that content stored. -/
theorem transform_writes {p : Platform} {k : ContentProcessor} {a : Article} {c : Context}
    {fields : KeyMap Json} (harticle : c.data.find? "article" = some (.object fields))
    (hblobs : c.blobs = []) {b b' : Bool} {log : List Entry}
    {y : Ending (Except WorkflowError Context)}
    (h : (p.transform k a c).run.Course b log b' y) :
    ((∃ what, y = .value (.error (.unsupported what))) ↔
      IsMissing a.markdown ∧ IsMissing a.html) ∧
    ((∃ what, y = .value (.error (.unsupported what))) → log = []) ∧
    ((∃ what, y = .value (.error (.unsupported what))) ∨ p.Fails b' y ∨
      ∃ c', y = .value (.ok c')) ∧
    ∀ c', y = .value (.ok c') → ∃ before cover content,
      p.Composes k a c log before cover content ∧
      c.Stores c' fields (p.downloaded? log) (cover.map (·.address))
        p.definition.contentFormat content := by
  obtain ⟨hmissing, rfl, rfl, rfl⟩ | ⟨hsome, hfails | ⟨before, cover, content, hcomposes, rfl⟩⟩ :=
    course_transform h
  · exact ⟨⟨fun _ => hmissing, fun _ => ⟨_, rfl⟩⟩, fun _ => rfl, .inl ⟨_, rfl⟩, nofun⟩
  · have hnot : ¬ ∃ what, y = .value (.error (.unsupported what)) := by
      rintro ⟨what, rfl⟩
      obtain ⟨_, _, -, hv⟩ | ⟨hv, -⟩ | ⟨_, hv⟩ := hfails <;> cases hv
    refine ⟨⟨fun hwhat => absurd hwhat hnot, fun hmissing => absurd hmissing hsome⟩,
      fun hwhat => absurd hwhat hnot, .inr (.inl hfails), ?_⟩
    rintro c' rfl
    obtain ⟨_, _, -, hv⟩ | ⟨hv, -⟩ | ⟨_, hv⟩ := hfails <;> cases hv
  · refine ⟨⟨?_, fun hmissing => absurd hmissing hsome⟩, ?_, .inr (.inr ⟨_, rfl⟩), ?_⟩
    · rintro ⟨_, hv⟩
      cases hv
    · rintro ⟨_, hv⟩
      cases hv
    · rintro c' ⟨⟩
      refine ⟨before, cover, content, hcomposes, ?_⟩
      rw [(hcomposes.context hblobs).1]
      exact Context.stores_withContent harticle _ _ _ _

end Platform

namespace UnfetchedImages

/-- An article without images. -/
def plain : Article :=
  { Article.empty with title := "Hello", markdown := some "Hello" }

/-- The content is sent as it is. -/
theorem transform_writes_plain :
    ∃ fields c', (Context.ofArticle plain).data.find? "article" = some (.object fields) ∧
      (platform.transform .basic plain (.ofArticle plain)).run.Course false [] false
        (.value (.ok c')) ∧
      ∃ before cover content,
        platform.Composes .basic plain (.ofArticle plain) [] before cover content ∧
        (Context.ofArticle plain).Stores c' fields (platform.downloaded? [])
          (cover.map (·.address)) platform.definition.contentFormat content := by
  have hrun : (platform.transform .basic plain (.ofArticle plain)).run =
      .done (.ok ((Context.ofArticle plain).withContent none none .markdown "Hello")) := rfl
  have hcourse := Program.Course.done (b := false)
    (a := Except.ok (ε := WorkflowError)
      ((Context.ofArticle plain).withContent none none .markdown "Hello"))
  rw [← hrun] at hcourse
  exact ⟨_, _, rfl, hcourse, (Platform.transform_writes rfl rfl hcourse).2.2.2 _ rfl⟩

end UnfetchedImages

end Syndication
