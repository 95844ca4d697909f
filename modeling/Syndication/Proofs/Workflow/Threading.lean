import Mathlib.Data.List.Induction
import Syndication.Proofs.Endpoint.Execution
import Syndication.Proofs.Workflow.Contents

/-!
# The contexts of a run

The steps of a run pass a context on to one another. Each is executed in the context that the
article begins and that the steps before it have added to, in the order of the run: what they
have extracted, and what the second stage writes. The upload of an image leaves no more behind
than its address, whatever it comes to.

All of this is read off a course from outside: `extractions` lists what the steps have
extracted and `downloads` the images that were fetched, so the context of a step is a function
of what was seen before it (`Context.threaded`).

* `find?_merge`: what a context finds once the outputs of a step are added.
* `InTurn.fetches`, `WithCover.context`: what uploads leave behind in a context.
* `Composes.context`, `exists_writing_of_transform`: what the second stage writes.
* `Stage.Leads.bind`, `leads_execute`, `leads_takeStep`: how a context is handed on.
* `renders_saveAndPublish`: what the third stage renders against.
* `exists_view_of_stages`, `threaded_of_drive`: the contexts of a run.
-/

namespace Syndication

/-! ### What is seen of a run -/

/-- What an endpoint has extracted that was executed. -/
def Event.extracted? : Event → Option (KeyMap Json)
  | .executed _ _ outputs => outputs
  | _ => none

/-- What the endpoints of the steps have extracted, in order. -/
def extractions (log : List Entry) : List (KeyMap Json) :=
  (told log).filterMap fun entry => entry.2.extracted?

@[simp] theorem extractions_append (log log' : List Entry) :
    extractions (log ++ log') = extractions log ++ extractions log' := by
  rw [extractions, told_append, List.filterMap_append]
  rfl

/-- Whether what is seen begins with an image that is fetched. -/
def fetches (source : String) : List Entry → Bool
  | ⟨_, .send r⟩ :: ⟨_, .receive (.answer answer)⟩ :: _ =>
    r == .get source && isSuccessStatus answer.status
  | _ => false

/-- The images that were fetched to be uploaded, in order. -/
def downloads : List Entry → List String
  | [] => []
  | ⟨_, .report (.uploading _ source)⟩ :: log =>
    if fetches source log then source :: downloads log else downloads log
  | _ :: log => downloads log

theorem downloads_cons {e : Entry} (he : uploadsOf [e] = []) (log : List Entry) :
    downloads (e :: log) = downloads log := by
  obtain ⟨b, act⟩ := e
  cases act with
  | report event =>
    cases event with
    | uploading => cases he
    | _ => rfl
  | _ => rfl

/-- Nothing is fetched to be uploaded where no upload begins. -/
theorem downloads_append {log : List Entry} (hlog : uploadsOf log = []) (log' : List Entry) :
    downloads (log ++ log') = downloads log' := by
  induction log with
  | nil => rfl
  | cons e log ih =>
    have hsplit : uploadsOf [e] ++ uploadsOf log = [] := by
      rw [← uploadsOf_append]
      exact hlog
    obtain ⟨he, hrest⟩ := List.append_eq_nil_iff.1 hsplit
    rw [List.cons_append, downloads_cons he, ih hrest]

/-- An upload that begins with the image fetched. -/
theorem downloads_of_success {id source : String} {b b₀ b₁ : Bool} {r : Response}
    (h : isSuccessStatus r.status = true) (rest : List Entry) :
    downloads (⟨b, .report (.uploading id source)⟩ :: ⟨b₀, .send (.get source)⟩ ::
      ⟨b₁, .receive (.answer r)⟩ :: rest) = source :: downloads rest := by
  have hfetches : fetches source (⟨b₀, .send (.get source)⟩ ::
      ⟨b₁, .receive (.answer r)⟩ :: rest) = true := by
    simp [fetches, h]
  exact if_pos hfetches

/-- An upload that could not fetch the image. -/
theorem downloads_of_failure {id source : String} {b b₀ b₁ : Bool} {reply : Reply}
    (h : ∀ r, reply = .answer r → isSuccessStatus r.status = false) (rest : List Entry) :
    downloads (⟨b, .report (.uploading id source)⟩ :: ⟨b₀, .send (.get source)⟩ ::
      ⟨b₁, .receive reply⟩ :: rest) = downloads rest := by
  have hfetches : ¬fetches source (⟨b₀, .send (.get source)⟩ ::
      ⟨b₁, .receive reply⟩ :: rest) = true := by
    cases reply with
    | answer r => simp [fetches, h r rfl]
    | _ => exact Bool.false_ne_true
  exact if_neg hfetches

/-- The image that was fetched last for the endpoint for images, if the platform uses that. -/
def Platform.downloaded? (p : Platform) (log : List Entry) : Option String :=
  if p.definition.declares .uploadImageByUrl then none else (downloads log).getLast?

/-! ### What a context finds -/

namespace Context

/-- The context with the address of an image that was fetched. -/
def withImage (c : Context) (image : Option String) : Context :=
  image.elim c fun source => c.set "image_url" (.string source)

/-- The context with what the second stage writes: the address of the image that was fetched
last, that of the cover if one was uploaded, and the content, under the name of its format and
under that of the content. -/
def withContent (c : Context) (image cover : Option String) (format : ContentFormat)
    (content : String) : Context :=
  let c := c.withImage image
  let c := cover.elim c fun address => c.setArticleField "cover" (.string address)
  (c.setArticleField format.name (.string content)).setArticleField "content" (.string content)

/-- The context of a step that comes after those that have extracted `outputs`. The first of them
is the check of the session, and the second stage writes into what that has left. -/
def threaded (a : Article) (image cover : Option String) (format : ContentFormat)
    (content : String) : List (KeyMap Json) → Context
  | [] => .ofArticle a
  | user :: outputs =>
    outputs.foldl merge (((ofArticle a).merge user).withContent image cover format content)

@[simp] theorem blobs_withImage (c : Context) (image : Option String) :
    (c.withImage image).blobs = c.blobs := by
  cases image <;> rfl

@[simp] theorem blobs_withContent (c : Context) (image cover : Option String)
    (format : ContentFormat) (content : String) :
    (c.withContent image cover format content).blobs = c.blobs := by
  unfold withContent
  cases cover <;> simp

/-- No file is bound between the steps. -/
theorem blobs_threaded (a : Article) (image cover : Option String) (format : ContentFormat)
    (content : String) (outputs : List (KeyMap Json)) :
    (threaded a image cover format content outputs).blobs = [] := by
  have hfold : ∀ (outputs : List (KeyMap Json)) (c : Context),
      (outputs.foldl merge c).blobs = c.blobs := by
    intro outputs
    induction outputs with
    | nil => exact fun _ => rfl
    | cons first rest ih => exact fun c => (ih _).trans (c.blobs_merge first)
  cases outputs with
  | nil => rfl
  | cons user outputs =>
    rw [threaded, hfold, blobs_withContent, blobs_merge]
    rfl

/-- **Of two values under one name the later is found**, and an earlier value stays where there is
no later one. -/
theorem find?_merge (c : Context) (outputs : KeyMap Json) (name : String) :
    (c.merge outputs).data.find? name =
      (KeyMap.find? name outputs.reverse).or (c.data.find? name) := by
  induction outputs using List.reverseRecOn with
  | nil => rfl
  | append_singleton outputs e ih =>
    obtain ⟨key, value⟩ := e
    have hlast : c.merge (outputs ++ [(key, value)]) = (c.merge outputs).set key value := by
      rw [merge, List.foldl_append]
      rfl
    rw [hlast, List.reverse_append]
    change KeyMap.find? name (KeyMap.insert key value (c.merge outputs).data) =
      (if key = name then some value else KeyMap.find? name outputs.reverse).or _
    split
    · rename_i hname
      rw [hname, KeyMap.find?_insert_self]
      rfl
    · rename_i hname
      rw [KeyMap.find?_insert_ne (Ne.symm hname), ih]

/-- A value that is set twice is that which was set last. -/
theorem set_set (c : Context) (key : String) (value value' : Json) :
    (c.set key value).set key value' = c.set key value' := by
  have hinsert : ∀ m : KeyMap Json,
      KeyMap.insert key value' (KeyMap.insert key value m) = KeyMap.insert key value' m := by
    intro m
    induction m with
    | nil => simp [KeyMap.insert]
    | cons e rest ih =>
      obtain ⟨k, v⟩ := e
      by_cases hkey : k = key
      · simp [KeyMap.insert, hkey]
      · by_cases hlt : key < k
        · simp [KeyMap.insert, hkey, hlt]
        · simp [KeyMap.insert, hkey, hlt, ih]
  exact congrArg (fun data => ({ c with data } : Context)) (hinsert c.data)

theorem withImage_withImage (c : Context) (image image' : Option String) :
    (c.withImage image).withImage image' = c.withImage (image'.or image) := by
  cases image' with
  | none => rfl
  | some source' =>
    cases image with
    | none => rfl
    | some source => exact c.set_set _ _ _

end Context

/-! ### What uploads leave behind -/

namespace Platform

variable (p : Platform)

/-- A part of the uploads leaves no more in the context than the address of the image that was
fetched last in it, and what was fetched in it is told by what is seen of it alone. -/
structure Fetches (c : Context) (log : List Entry) (c' : Context) : Prop where
  context : c' = c.withImage (p.downloaded? log)
  alone : ∀ rest, p.downloaded? (log ++ rest) = (p.downloaded? rest).or (p.downloaded? log)

variable {p} {c c₁ c' : Context} {log log' : List Entry}

theorem downloaded?_of_uploadsOf (h : uploadsOf log = []) : p.downloaded? log = none := by
  have hnone : downloads log = [] := by
    rw [← List.append_nil log, downloads_append h]
    rfl
  rw [downloaded?, hnone]
  split <;> rfl

/-- Nothing is left behind where no upload begins. -/
theorem fetches_of_uploadsOf (h : uploadsOf log = []) : p.Fetches c log c where
  context := by
    rw [downloaded?_of_uploadsOf h]
    rfl
  alone rest := by
    rw [downloaded?_of_uploadsOf h, Option.or_none, downloaded?, downloads_append h]
    rfl

theorem Fetches.trans (h : p.Fetches c log c₁) (h' : p.Fetches c₁ log' c') :
    p.Fetches c (log ++ log') c' where
  context := by rw [h'.context, h.context, Context.withImage_withImage, h.alone]
  alone rest := by rw [List.append_assoc, h.alone, h'.alone, h.alone, Option.or_assoc]

/-- What is left behind when images are fetched for the endpoint, where `fetched` is the image. -/
theorem fetches_of_downloads {fetched : Option String}
    (hhook : ¬p.definition.declares .uploadImageByUrl = true)
    (hlog : ∀ rest, downloads (log ++ rest) = fetched.toList ++ downloads rest) :
    p.Fetches c log (c.withImage fetched) := by
  have hlast : ∀ log, p.downloaded? log = (downloads log).getLast? :=
    fun log => by rw [downloaded?, if_neg hhook]
  have hself : p.downloaded? log = fetched := by
    rw [hlast, ← List.append_nil log, hlog]
    cases fetched <;> rfl
  refine ⟨by rw [hself], fun rest => ?_⟩
  rw [hself, hlast, hlast, hlog, List.getLast?_append]
  cases fetched <;> rfl

/-- The hook has the context only to look at. -/
theorem Uploads.fetches_of_hook {u : Upload} {b' : Bool} (h : p.Uploads u c log b' c')
    (hhook : p.definition.declares .uploadImageByUrl = true) : p.Fetches c log c' := by
  obtain ⟨log', rfl, ht⟩ := h
  rw [transfer, if_pos hhook] at ht
  have hnone : ∀ log, p.downloaded? log = none := fun log => by rw [downloaded?, if_pos hhook]
  refine ⟨?_, fun rest => by simp only [hnone, Option.or_none]⟩
  rw [hnone]
  obtain ⟨_, _, result, _, -, hr, -⟩ | ⟨_, _, hv⟩ := Program.course_bind.1 ht
  · cases result <;>
    · obtain ⟨-, -, hv⟩ := Program.course_pure.1 hr
      exact congrArg Prod.fst (Ending.value.inj hv)
  · cases hv

/-- The endpoint leaves the address of the image, if that was fetched. -/
theorem Uploads.fetches_of_endpoint {u : Upload} {b' : Bool} {endpoint : Endpoint}
    (h : p.Uploads u c log b' c') (hblobs : c.blobs = [])
    (hhook : ¬p.definition.declares .uploadImageByUrl = true)
    (hendpoint : p.definition.endpoint? .uploadImage = some endpoint) : p.Fetches c log c' := by
  obtain ⟨log', rfl, ht⟩ := h
  simp only [transfer, if_neg hhook, hendpoint] at ht
  obtain ⟨_, b₁, result, log₂, hfetch, hr, rfl⟩ | ⟨_, _, hv⟩ := Program.course_bind.1 ht
  · obtain ⟨reply, rfl, ⟨r, rfl, hsuccess, hv⟩ | ⟨hfailed, ⟨cause, hv⟩ | ⟨_, hv⟩⟩⟩ :=
      course_fetchImage hfetch <;> cases hv
    · -- the image was fetched, and it is unbound once the endpoint was executed
      obtain ⟨log₂, b₂, outcome, log₃, hexecute, hend, rfl⟩ | ⟨_, _, hv⟩ :=
        Program.course_bind.1 hr
      · obtain ⟨rfl, -, hv⟩ := Program.course_pure.1 hend
        have hend : c' = (c.set "image_url" (.string u.source)).removeBlob "image" :=
          congrArg Prod.fst (Ending.value.inj hv)
        have hcontext : c' = c.withImage (some u.source) := by
          rw [hend]
          obtain ⟨data, blobs⟩ := c
          subst hblobs
          rfl
        have hnone := uploadsOf_of_told
          (Program.told_of_silent (p.executor.silent_execute _ _) hexecute)
        rw [hcontext, List.append_nil]
        exact fetches_of_downloads hhook fun rest =>
          (downloads_of_success hsuccess _).trans (congrArg _ (downloads_append hnone rest))
      · cases hv
    · -- it was not, and the context stays as it is
      obtain ⟨rfl, -, hv⟩ := Program.course_pure.1 hr
      have hcontext : c' = c.withImage none := congrArg Prod.fst (Ending.value.inj hv)
      rw [hcontext]
      exact fetches_of_downloads hhook (downloads_of_failure hfailed)
  · cases hv

/-- **What an upload leaves behind** in a context to which no file is bound: the address of the
image, if that was fetched. Whether the endpoint has taken it makes no difference. -/
theorem Uploads.fetches {u : Upload} {b' : Bool} (h : p.Uploads u c log b' c')
    (hblobs : c.blobs = []) : p.Fetches c log c' := by
  by_cases hhook : p.definition.declares .uploadImageByUrl = true
  · exact h.fetches_of_hook hhook
  · cases hendpoint : p.definition.endpoint? .uploadImage with
    | none =>
      -- that there is no way to upload it is no error of an upload
      obtain ⟨_, -, ht⟩ := h
      simp only [transfer, if_neg hhook, hendpoint] at ht
      obtain ⟨-, -, hv⟩ := Program.course_pure.1 ht
      obtain ⟨source, outcome⟩ := u
      cases outcome <;> cases hv
    | some endpoint => exact h.fetches_of_endpoint hblobs hhook hendpoint

/-- A sequence of uploads leaves the address of the image that was fetched last. -/
theorem InTurn.fetches {uploads : List Upload} (h : p.InTurn c uploads log c')
    (hblobs : c.blobs = []) : p.Fetches c log c' := by
  induction h with
  | done => exact fetches_of_uploadsOf rfl
  | @next c c₁ c' u uploads b log wait rest hu hwait _ ih =>
    have hfirst := hu.fetches hblobs
    have hblobs' : c₁.blobs = [] := by rw [hfirst.context, Context.blobs_withImage, hblobs]
    have hnote : p.Fetches c₁ (u.note (.imageKept p.id u.source) b) c₁ :=
      fetches_of_uploadsOf (u.uploadsOf_note (fun _ => rfl) b)
    have hpause : p.Fetches c₁ wait c₁ := fetches_of_uploadsOf (uploadsOf_of_told hwait)
    exact hfirst.trans (hnote.trans (hpause.trans (ih hblobs')))

/-- What the upload of the cover leaves behind. -/
theorem WithCover.context {cover : Option Upload} (h : p.WithCover c cover log c')
    (hblobs : c.blobs = []) :
    ∃ c₁, p.Fetches c log c₁ ∧
      c' = (cover.map (·.address)).elim c₁ fun address =>
        c₁.setArticleField "cover" (.string address) := by
  cases h with
  | without => exact ⟨c, fetches_of_uploadsOf rfl, rfl⟩
  | @uploaded c₁ u b log hu =>
    have hnote : p.Fetches c₁ (u.note (.coverDropped p.id u.source) b) c₁ :=
      fetches_of_uploadsOf (u.uploadsOf_note (fun _ => rfl) b)
    exact ⟨c₁, (hu.fetches hblobs).trans hnote, rfl⟩

/-! ### The second stage -/

section Transforming

variable {k : ContentProcessor} {a : Article} {b b' : Bool}

/-- The images of the content leave the address of the one that was fetched last. A hook that
replaces them leaves nothing. -/
theorem Illustrates.fetches {text illustrated : String}
    (h : p.Illustrates c text log c' illustrated) (hblobs : c.blobs = []) :
    p.Fetches c log c' := by
  cases h with
  | hook _ h =>
    exact fetches_of_uploadsOf
      (uploadsOf_of_told (Program.told_of_silent (p.hooks.silent_processImages text c) h))
  | uploaded _ _ _ _ hturn _ => exact hturn.fetches hblobs
  | untouched => exact fetches_of_uploadsOf rfl

/-- Nothing is uploaded by the hook for the content. -/
theorem Changes.uploadsOf {text changed : String} (h : p.Changes c text log changed) :
    uploadsOf log = [] := by
  cases h with
  | hook _ h =>
    exact uploadsOf_of_told (Program.told_of_silent (p.hooks.silent_contentTransform text c) h)
  | untouched => rfl

/-- **What the second stage leaves in the context**: the address of the image that was fetched last
and that of the cover, with the content written besides. -/
theorem Composes.context {cover : Option Upload} {content : String}
    (h : p.Composes k a c log c' cover content) (hblobs : c.blobs = []) :
    (c'.setArticleField p.definition.contentFormat.name
        (.string content)).setArticleField "content" (.string content) =
      c.withContent (p.downloaded? log) (cover.map (·.address)) p.definition.contentFormat
        content ∧
      ∀ rest, p.downloaded? (log ++ rest) = (p.downloaded? rest).or (p.downloaded? log) := by
  cases h with
  | @stages _ _ _ _ _ _ log₁ log₂ log₃ c₁ _ _ hillustrates _ hwith hchanges _ =>
    have himages := hillustrates.fetches hblobs
    have hblobs₁ : c₁.blobs = [] := by rw [himages.context, Context.blobs_withImage, hblobs]
    obtain ⟨c₃, hcover, rfl⟩ := hwith.context hblobs₁
    have hhook : p.Fetches c₃ log₃ c₃ := fetches_of_uploadsOf hchanges.uploadsOf
    have hall := himages.trans (hcover.trans hhook)
    refine ⟨?_, hall.alone⟩
    rw [hall.context]
    rfl

/-- **What the second stage writes**: the address of the image that was fetched last, that of the
cover if one is to be uploaded, and the content. -/
theorem exists_writing_of_transform (hblobs : c.blobs = [])
    (h : (p.transform k a c).run.Course b log b' (.value (.ok c'))) :
    ∃ cover content, (cover = none ↔ p.coverToUpload? a = none) ∧
      c' = c.withContent (p.downloaded? log) cover p.definition.contentFormat content ∧
      ∀ rest, p.downloaded? (log ++ rest) = (p.downloaded? rest).or (p.downloaded? log) := by
  obtain ⟨-, -, -, hv⟩ | ⟨-, hfails | ⟨c₂, cover, content, hcomposes, hv⟩⟩ := course_transform h
  · cases hv
  · obtain ⟨_, _, -, hv⟩ | ⟨hv, -⟩ | ⟨_, hv⟩ := hfails <;> cases hv
  · obtain ⟨hcontext, halone⟩ := hcomposes.context hblobs
    have hasked : cover.map (·.source) = p.coverToUpload? a := by
      cases hcomposes
      assumption
    refine ⟨cover.map (·.address), content, ?_, ?_, halone⟩
    · rw [Option.map_eq_none_iff, ← hasked, Option.map_eq_none_iff]
    · rw [← hcontext]
      cases hv
      rfl

end Transforming

/-! ### The executions -/

/-- What is seen right after it was reported that an endpoint is executed in a context: the
execution, and what it has extracted by the expressions of the endpoint, if it comes to that. -/
inductive Executed (p : Platform) (s : WorkflowState) (e : Endpoint) (c : Context) (b : Bool) :
    List Entry → Prop where
  | ended {during rest : List Entry} {b₁ : Bool} {r : Except ExecuteError Execution}
    (h : (p.executor.execute e c).Course b during b₁ (.value r))
    (hr : ∀ x, r = .ok x → x.outputs = e.response.outputs x.response) :
    Executed p s e c b
      (during ++ ⟨b₁, .report (.executed p.id s (r.toOption.map (·.outputs)))⟩ :: rest)
  | broken {during rest : List Entry} {b₁ : Bool} {text : Option String}
    (h : (p.executor.execute e c).Course b during b₁ (.fault text)) :
    Executed p s e c b (during ++ rest)

/-- **The contexts are those of a view**: whenever it is reported that an endpoint is executed in
a context, it is the one that `view` sees in what was shown before, and then it is executed. -/
def Threads (p : Platform) (view : List Entry → Context) (log : List Entry) : Prop :=
  ∀ before b id s e c after, log = before ++ ⟨b, .report (.executing id s e c)⟩ :: after →
    id = p.id ∧ c = view before ∧ p.Executed s e c b after

section Executions

variable {view view' : List Entry → Context} {b b' : Bool}

theorem Executed.append {s : WorkflowState} {e : Endpoint} (h : p.Executed s e c b log)
    (rest : List Entry) : p.Executed s e c b (log ++ rest) := by
  cases h with
  | ended h hr =>
    rw [List.append_assoc, List.cons_append]
    exact .ended h hr
  | broken h =>
    rw [List.append_assoc]
    exact .broken h

theorem threads_of_not_executing
    (h : ∀ b id s e c, (b, Event.executing id s e c) ∉ told log) : p.Threads view log := by
  rintro before b id s e c after rfl
  refine (h b id s e c ?_).elim
  rw [told_append, told_report]
  exact List.mem_append_right _ List.mem_cons_self

theorem threads_of_shows {α : Type} {q : Program α} {x : Ending α} (hq : q.Shows Event.IsQuiet)
    (h : q.Course b log b' x) : p.Threads view log := by
  refine threads_of_not_executing fun b id s e c he => ?_
  have hquiet := (hq h _ he).1
  cases hquiet

/-- What is quiet extracts nothing. -/
theorem extractions_of_shows {α : Type} {q : Program α} {x : Ending α}
    (hq : q.Shows Event.IsQuiet) (h : q.Course b log b' x) : extractions log = [] := by
  refine List.filterMap_eq_nil_iff.2 fun entry he => ?_
  obtain ⟨b₁, event⟩ := entry
  have hquiet := (hq h _ he).1
  cases event <;> first | rfl | cases hquiet

/-- What was seen before an entry of the second part begins with the first. -/
theorem Threads.append (h : p.Threads view log)
    (h' : p.Threads (fun before => view (log ++ before)) log') :
    p.Threads view (log ++ log') := by
  intro before b id s e c after hsplit
  rcases List.append_eq_append_iff.1 hsplit with ⟨before', rfl, hrest⟩ | ⟨after', rfl, hrest⟩
  · exact h' before' b id s e c after hrest
  · rcases List.cons_eq_append_iff.1 hrest with ⟨rfl, rfl⟩ | ⟨after'', rfl, rfl⟩
    · -- the entry is the first of the second part
      obtain ⟨hid, hc, hexecuted⟩ := h' [] b id s e c after rfl
      exact ⟨hid, hc.trans (by simp only [List.append_nil]), hexecuted⟩
    · obtain ⟨hid, hc, hexecuted⟩ := h before b id s e c after'' rfl
      exact ⟨hid, hc, hexecuted.append log'⟩

theorem Threads.congr (h : p.Threads view log)
    (hview : ∀ before after, log = before ++ after → view before = view' before) :
    p.Threads view' log := by
  intro before b id s e c after hlog
  rw [← hview before _ hlog]
  exact h before b id s e c after hlog

/-- What a course of the step from one state to the next shows is no execution. -/
theorem threads_of_enter {s t : WorkflowState}
    {y : Ending (Except Failure Unit)} (h : (p.enter s t).run.Course b log b' y) :
    p.Threads view log ∧ extractions log = [] := by
  obtain ⟨rfl, -⟩ | ⟨rfl, -, -⟩ := course_enter h <;>
  · refine ⟨threads_of_not_executing fun b id s e c he => ?_, rfl⟩
    cases List.mem_singleton.1 he

/-- The outputs of an endpoint are what its extract expressions find in the answer. -/
theorem outputs_of_execute {x : Executor} {e : Endpoint} {r : Execution}
    (h : (x.execute e c).Course b log b' (.value (.ok r))) :
    r.outputs = e.response.outputs r.response := by
  obtain ⟨_, -, hv⟩ | ⟨_, -, hv⟩ | ⟨_, _, _, _, -, -, -, hafter⟩ := Executor.course_execute.1 h
  · cases hv
  · cases hv
  · obtain ⟨_, -, -, -, rfl⟩ := Endpoint.after_eq_ok_iff.1 hafter.symm
    rfl

/-- **The call of an endpoint** is rendered against the context that it is given. -/
theorem threads_of_call {s : WorkflowState} {e : Endpoint}
    {y : Ending (Except ExecuteError Execution)} (h : (p.call s e c).Course b log b' y)
    (hview : view [] = c) : p.Threads view log := by
  obtain ⟨log', rfl, hexecuted⟩ :
      ∃ log', log = ⟨b, .report (.executing p.id s e c)⟩ :: log' ∧ p.Executed s e c b log' := by
    obtain ⟨during, hx, ⟨r, rfl, rfl⟩ | ⟨text, rfl, rfl⟩⟩ := course_call h
    · refine ⟨_, rfl, .ended hx ?_⟩
      rintro x rfl
      exact outputs_of_execute hx
    · refine ⟨_, rfl, ?_⟩
      rw [← List.append_nil during]
      exact .broken hx
  -- no other endpoint is executed meanwhile
  have hone : ∀ b id s e c, (b, Event.executing id s e c) ∉ told log' := by
    intro b₁ id s' e' c' he
    obtain ⟨_, -, htold⟩ | ⟨_, -, htold⟩ := told_of_call h <;>
      rw [told_report, List.cons.injEq] at htold <;> rw [htold.2] at he
    · cases List.mem_singleton.1 he
    · cases he
  rintro before b₁ id s' e' c' after hlog
  rcases List.cons_eq_append_iff.1 hlog with ⟨rfl, hhead⟩ | ⟨before', rfl, hrest⟩
  · cases hhead
    exact ⟨rfl, hview.symm, hexecuted⟩
  · refine (hone b₁ id s' e' c' ?_).elim
    rw [hrest, told_append, told_report]
    exact List.mem_append_right _ List.mem_cons_self

theorem extractions_of_call {s : WorkflowState} {e : Endpoint} {r : Execution}
    (h : (p.call s e c).Course b log b' (.value (.ok r))) : extractions log = [r.outputs] := by
  obtain ⟨_, hv, htold⟩ | ⟨_, hv, -⟩ := told_of_call h <;> cases hv
  rw [extractions, htold]
  rfl

/-- What comes of the call of an endpoint, when nothing else is done with what it gives. -/
theorem exists_call_of_course {α : Type} {s : WorkflowState} {e : Endpoint}
    {f : Except ExecuteError Execution → Attempt α} {g : Execution → α}
    (hok : ∀ r, f (.ok r) = pure (g r)) (herror : ∀ cause, ∃ e', f (.error cause) = Attempt.fail e')
    {y : Ending (Except WorkflowError α)}
    (h : (Attempt.perform (p.call s e c) >>= f).run.Course b log b' y) :
    ∃ y', (p.call s e c).Course b log b' y' ∧
      ∀ a, y = .value (.ok a) → ∃ r, y' = .value (.ok r) ∧ a = g r := by
  rw [run_perform_bind] at h
  obtain ⟨log₁, b₁, result, log₂, hcall, hr, rfl⟩ | ⟨text, hcall, rfl⟩ := Program.course_bind.1 h
  · cases result with
    | ok r =>
      simp only [hok] at hr
      obtain ⟨rfl, rfl, rfl⟩ := Program.course_pure.1 hr
      rw [List.append_nil]
      refine ⟨_, hcall, ?_⟩
      rintro _ ⟨⟩
      exact ⟨r, rfl, rfl⟩
    | error cause =>
      obtain ⟨e', he'⟩ := herror cause
      simp only [he'] at hr
      obtain ⟨rfl, rfl, rfl⟩ := Program.course_pure.1 hr
      rw [List.append_nil]
      exact ⟨_, hcall, nofun⟩
  · exact ⟨_, hcall, nofun⟩

theorem exists_call_of_execute {s : WorkflowState} {e : Endpoint}
    {y : Ending (Except WorkflowError Context)}
    (h : (p.execute s e c).run.Course b log b' y) :
    ∃ y', (p.call s e c).Course b log b' y' ∧
      ∀ c', y = .value (.ok c') → ∃ r, y' = .value (.ok r) ∧ c' = c.merge r.outputs :=
  exists_call_of_course (g := fun r => c.merge r.outputs) (fun _ => rfl) (fun _ => ⟨_, rfl⟩) h

theorem exists_call_of_authenticate {y : Ending (Except WorkflowError (KeyMap Json))}
    (h : (p.authenticate c).run.Course b log b' y) :
    ∃ y', (p.call .checkingAuth p.definition.auth c).Course b log b' y' ∧
      ∀ user, y = .value (.ok user) → ∃ r, y' = .value (.ok r) ∧ user = r.outputs := by
  refine exists_call_of_course (g := fun r => r.outputs) (fun _ => rfl) (fun cause => ?_) h
  cases cause <;> exact ⟨_, rfl⟩

end Executions

end Platform

/-! ### The third stage -/

/-- The context of a step in what is left of a run, when it is `c` at first: with what the steps
before it have extracted. -/
def Context.grown (c : Context) (before : List Entry) : Context :=
  (extractions before).foldl merge c

theorem Context.grown_append (c : Context) (log before : List Entry) :
    c.grown (log ++ before) = (c.grown log).grown before := by
  rw [grown, extractions_append, List.foldl_append]
  rfl

/-- What is left of a run is rendered against the context `c` and what its own steps add. -/
def Stage.Renders {α : Type} (x : Stage α) (p : Platform) (c : Context) : Prop :=
  ∀ ⦃b : Bool⦄ ⦃log : List Entry⦄ ⦃b' : Bool⦄ ⦃y : Ending (Except Failure α)⦄,
    x.run.Course b log b' y → p.Threads c.grown log

/-- A part of a run leads on from the context `c`: it is rendered against it, and the context that
it hands on is the one that its own steps have made of it. -/
structure Stage.Leads {α : Type} (x : Stage α) (p : Platform) (c : Context)
    (next : α → Context) : Prop where
  renders : x.Renders p c
  grown : ∀ ⦃b : Bool⦄ ⦃log : List Entry⦄ ⦃b' : Bool⦄ ⦃a : α⦄,
    x.run.Course b log b' (.value (.ok a)) → c.grown log = next a

section Rules

variable {α β : Type} {p : Platform} {c : Context}

theorem leads_pure {next : α → Context} (a : α) (h : next a = c) :
    (pure a : Stage α).Leads p c next where
  renders := by
    intro b log b' y hcourse
    obtain ⟨rfl, -, -⟩ := Program.course_pure.1 hcourse
    exact Platform.threads_of_not_executing fun _ _ _ _ _ => List.not_mem_nil
  grown := by
    intro b log b' a' hcourse
    obtain ⟨rfl, -, hv⟩ := Program.course_pure.1 hcourse
    cases hv
    exact h.symm

theorem renders_pure (a : α) : (pure a : Stage α).Renders p c := by
  have hleads : (pure a : Stage α).Leads p c fun _ => c := leads_pure a rfl
  exact hleads.renders

/-- Going on to a state adds nothing to the context. -/
theorem leads_enter (s t : WorkflowState) : (p.enter s t).Leads p c fun _ => c where
  renders _ _ _ _ hcourse := (Platform.threads_of_enter hcourse).1
  grown b log b' _ hcourse := by
    have hthreads : p.Threads c.grown log ∧ extractions log = [] :=
      Platform.threads_of_enter hcourse
    rw [Context.grown, hthreads.2]
    rfl

/-- **A step is rendered against the context**, and what it extracts is there for those after
it. -/
theorem leads_execute (s : WorkflowState) (e : Endpoint) :
    (Attempt.within s (p.execute s e c)).Leads p c id where
  renders := by
    intro b log b' y hcourse
    obtain ⟨_, hexecute, -⟩ | ⟨_, hexecute, -⟩ := Program.course_map.1 hcourse
    · obtain ⟨_, hcall, -⟩ := Platform.exists_call_of_execute hexecute
      exact Platform.threads_of_call hcall rfl
    · obtain ⟨_, hcall, -⟩ := Platform.exists_call_of_execute hexecute
      exact Platform.threads_of_call hcall rfl
  grown := by
    intro b log b' c' hcourse
    obtain ⟨r, hexecute, hv⟩ | ⟨_, -, hv⟩ := Program.course_map.1 hcourse
    · cases r <;> cases hv
      obtain ⟨_, hcall, hok⟩ := Platform.exists_call_of_execute hexecute
      obtain ⟨r, rfl, rfl⟩ := hok _ rfl
      rw [Context.grown, Platform.extractions_of_call hcall]
      rfl
    · cases hv

/-- What comes after a part that leads on is rendered against the context that it hands on. -/
theorem Stage.Leads.renders_bind {x : Stage α} {next : α → Context} {f : α → Stage β}
    (hx : x.Leads p c next) (hf : ∀ a, (f a).Renders p (next a)) : (x >>= f).Renders p c := by
  intro b log b' y hcourse
  obtain ⟨log₁, b₁, a, log₂, hfirst, hrest, rfl⟩ | ⟨_, hfirst, rfl⟩ | ⟨_, hfirst, rfl⟩ :=
    course_run_bind hcourse
  · refine (hx.renders hfirst).append ((hf a hrest).congr fun before _ _ => ?_)
    rw [c.grown_append, hx.grown hfirst]
  · exact hx.renders hfirst
  · exact hx.renders hfirst

theorem Stage.Leads.bind {x : Stage α} {next : α → Context} {f : α → Stage β}
    {next' : β → Context} (hx : x.Leads p c next) (hf : ∀ a, (f a).Leads p (next a) next') :
    (x >>= f).Leads p c next' where
  renders := hx.renders_bind fun a => (hf a).renders
  grown := by
    intro b log b' z hcourse
    obtain ⟨log₁, b₁, a, log₂, hfirst, hrest, rfl⟩ | ⟨_, -, hv⟩ | ⟨_, -, hv⟩ :=
      course_run_bind hcourse
    · rw [c.grown_append, hx.grown hfirst, (hf a).grown hrest]
    · cases hv
    · cases hv

end Rules

namespace Platform

variable {p : Platform} {c : Context}

/-- A step hands on the context with what it has extracted, whether it is taken or not. -/
theorem leads_takeStep (endpoint : Option Endpoint) (s target : WorkflowState) :
    (p.takeStep endpoint target (s, c)).Leads p c Prod.snd := by
  cases endpoint with
  | none => exact leads_pure _ rfl
  | some e =>
    exact (leads_enter s target).bind fun _ =>
      (leads_execute target e).bind fun c' => leads_pure (target, c') rfl

/-- **The third stage** is rendered against the context that the second has left. -/
theorem renders_saveAndPublish (draftOnly : Bool) :
    (p.saveAndPublish draftOnly c).Renders p c := by
  refine (leads_takeStep _ _ _).renders_bind fun progress => ?_
  obtain ⟨s, c⟩ := progress
  refine (leads_takeStep _ _ _).renders_bind fun progress => ?_
  obtain ⟨s, c⟩ := progress
  split
  · exact (leads_enter _ _).renders_bind fun _ => (leads_enter _ _).renders_bind fun _ =>
      renders_pure _
  · exact (leads_enter _ _).renders_bind fun _ => (leads_execute _ _).renders_bind fun _ =>
      (leads_enter _ _).renders_bind fun _ => renders_pure _

/-! ### The whole run -/

section Run

variable {k : ContentProcessor} {a : Article} {draftOnly b b' : Bool} {log : List Entry}

/-- **The first stage** is rendered against the article alone, and hands on what the check of the
session has extracted. -/
theorem threads_of_logIn (view : List Entry → Context) {y : Ending (Except Failure Context)}
    (hview : ∀ before, extractions before = [] → view before = .ofArticle a)
    (h : (p.logIn a draftOnly).run.Course b log b' y) :
    p.Threads view log ∧
      ∀ c, y = .value (.ok c) →
        ∃ user, extractions log = [user] ∧ c = (Context.ofArticle a).merge user := by
  unfold logIn at h
  split at h
  · -- nothing is executed on a platform that lacks an endpoint
    obtain ⟨rfl, -, rfl⟩ := Program.course_pure.1 h
    exact ⟨threads_of_not_executing fun _ _ _ _ _ => List.not_mem_nil, nofun⟩
  · obtain ⟨log₁, b₁, _, _, henter, hrest, rfl⟩ | ⟨_, henter, rfl⟩ | ⟨_, henter, rfl⟩ :=
      course_run_bind h
    · obtain ⟨hfirst, hnone⟩ := threads_of_enter henter
      -- the check of the session is what is executed first
      have hcheck : ∀ {log₂ : List Entry} {b₂ : Bool} {z : Ending (Except WorkflowError _)},
          (p.authenticate (.ofArticle a)).run.Course b₁ log₂ b₂ z →
          p.Threads view (log₁ ++ log₂) ∧
            ∀ user, z = .value (.ok user) → extractions (log₁ ++ log₂) = [user] := by
        intro log₂ b₂ z hauth
        obtain ⟨_, hcall, hok⟩ := exists_call_of_authenticate hauth
        have hbefore : view (log₁ ++ []) = .ofArticle a := by
          rw [List.append_nil]
          exact hview log₁ hnone
        refine ⟨hfirst.append (threads_of_call hcall hbefore), fun user hv => ?_⟩
        obtain ⟨r, rfl, rfl⟩ := hok user hv
        rw [extractions_append, hnone, extractions_of_call hcall]
        rfl
      obtain ⟨log₂, b₂, user, _, hauth, hleft, rfl⟩ | ⟨_, hauth, rfl⟩ | ⟨_, hauth, rfl⟩ :=
        course_within_bind hrest
      · obtain ⟨hthreads, huser⟩ := hcheck hauth
        rw [← List.append_assoc]
        obtain ⟨log₃, b₃, _, _, henter', hend, rfl⟩ | ⟨_, henter', rfl⟩ | ⟨_, henter', rfl⟩ :=
          course_run_bind hleft
        · obtain ⟨rfl, -, rfl⟩ := Program.course_pure.1 hend
          obtain ⟨hsecond, hnone'⟩ := threads_of_enter henter'
          rw [List.append_nil]
          refine ⟨hthreads.append hsecond, ?_⟩
          rintro _ ⟨⟩
          refine ⟨user, ?_, rfl⟩
          rw [extractions_append, huser user rfl, hnone']
          rfl
        · exact ⟨hthreads.append (threads_of_enter henter').1, nofun⟩
        · exact ⟨hthreads.append (threads_of_enter henter').1, nofun⟩
      · exact ⟨(hcheck hauth).1, nofun⟩
      · exact ⟨(hcheck hauth).1, nofun⟩
    · exact ⟨(threads_of_enter henter).1, nofun⟩
    · exact ⟨(threads_of_enter henter).1, nofun⟩

/-- The context of a step, as seen from outside: what the article, the steps seen before it and
the images seen to be fetched make, where the second stage writes a cover and a content. -/
def sees (p : Platform) (a : Article) (cover : Option String) (content : String)
    (before : List Entry) : Context :=
  .threaded a (p.downloaded? before) cover p.definition.contentFormat content (extractions before)

/-- Before anything was extracted it does not matter what will be written. -/
theorem sees_of_extractions {cover : Option String} {content : String} {before : List Entry}
    (h : extractions before = []) : p.sees a cover content before = .ofArticle a := by
  rw [sees, h]
  rfl

/-- **The contexts of a run** of an article: those of all its steps are seen with one cover and
one content. -/
def Threaded (p : Platform) (a : Article) (log : List Entry) : Prop :=
  ∃ cover content, (cover = none ↔ p.coverToUpload? a = none) ∧
    p.Threads (p.sees a cover content) log

/-- Nothing is executed in the second stage. -/
theorem shows_transform (c : Context) : (p.transform k a c).run.Shows Event.IsQuiet :=
  (p.quiet_transform k a c).shows

/-- **What is seen once the second stage is over**: with one cover and one content the contexts of
all that comes before, and then the context that the stage has left and what the steps after it
add. -/
theorem exists_view_of_stages {log₁ log₂ log₃ : List Entry} {b₁ b₂ : Bool} {c c' : Context}
    {y : Ending (Except Failure Publication)}
    (hlogIn : (p.logIn a draftOnly).run.Course b log₁ b₁ (.value (.ok c)))
    (ht : (p.transform k a c).run.Course b₁ log₂ b₂ (.value (.ok c')))
    (hs : (p.saveAndPublish draftOnly c').run.Course b₂ log₃ b' y) :
    ∃ cover content, (cover = none ↔ p.coverToUpload? a = none) ∧
      p.Threads (p.sees a cover content) (log₁ ++ log₂) ∧
      ∀ before after, log₃ = before ++ after →
        c'.grown before = p.sees a cover content (log₁ ++ log₂ ++ before) := by
  obtain ⟨-, hok⟩ := threads_of_logIn (fun _ => .ofArticle a) (fun _ _ => rfl) hlogIn
  obtain ⟨user, huser, rfl⟩ := hok c rfl
  obtain ⟨cover, content, hcover, rfl, halone⟩ :=
    exists_writing_of_transform (Context.blobs_merge _ _) ht
  have hfirst := threads_of_logIn (p.sees a cover content) (fun _ => sees_of_extractions) hlogIn
  refine ⟨cover, content, hcover, hfirst.1.append (threads_of_shows (shows_transform _) ht), ?_⟩
  rintro before after rfl
  -- nothing was uploaded outside the second stage, and nothing was extracted in it
  have hnone₁ := (p.plain_logIn a draftOnly hlogIn).1
  have hnone₃ := (p.plain_saveAndPublish draftOnly _ hs).1
  rw [uploadsOf_append, List.append_eq_nil_iff] at hnone₃
  have hdownloaded : p.downloaded? (log₁ ++ log₂ ++ before) = p.downloaded? log₂ :=
    calc p.downloaded? (log₁ ++ log₂ ++ before)
        = (p.downloaded? (log₂ ++ before)).or (p.downloaded? log₁) := by
          rw [List.append_assoc, (fetches_of_uploadsOf (c := .ofArticle a) hnone₁).alone]
      _ = p.downloaded? (log₂ ++ before) := by
          rw [downloaded?_of_uploadsOf hnone₁, Option.or_none]
      _ = (p.downloaded? before).or (p.downloaded? log₂) := halone before
      _ = p.downloaded? log₂ := by
          rw [downloaded?_of_uploadsOf hnone₃.1]
          rfl
  have hextractions : extractions (log₁ ++ log₂ ++ before) = user :: extractions before := by
    rw [extractions_append, extractions_append, huser,
      extractions_of_shows (shows_transform _) ht]
    rfl
  rw [sees, hdownloaded, hextractions]
  rfl

/-- **The contexts of the steps of a run.** -/
theorem threaded_of_drive {y : Ending (Except Failure Publication)}
    (h : (p.drive k a draftOnly).run.Course b log b' y) : p.Threaded a log := by
  cases p.advances_of_course (fun ht => ht) h with
  | refused hlogIn | refusedByFault hlogIn =>
    have hfirst :=
      threads_of_logIn (p.sees a (p.coverToUpload? a) "") (fun _ => sees_of_extractions) hlogIn
    exact ⟨_, _, Iff.rfl, hfirst.1⟩
  | untransformed hlogIn ht | untransformedByFault hlogIn ht =>
    have hfirst :=
      threads_of_logIn (p.sees a (p.coverToUpload? a) "") (fun _ => sees_of_extractions) hlogIn
    exact ⟨_, _, Iff.rfl, hfirst.1.append (threads_of_shows (shows_transform _) ht)⟩
  | @transformed log₁ log₂ log₃ _ _ _ c c' _ hlogIn ht hs =>
    obtain ⟨cover, content, hcover, hthreads, hview⟩ := exists_view_of_stages hlogIn ht hs
    rw [← List.append_assoc]
    exact ⟨cover, content, hcover,
      hthreads.append ((renders_saveAndPublish draftOnly hs).congr hview)⟩

/-- **The contexts of a run**, and the last report is of no step. -/
theorem threaded_of_run {x : Ending (Except WorkflowError Publication)}
    (h : (p.run k a draftOnly).Course b log b' x) : p.Threaded a log := by
  obtain ⟨log₁, y, hdrive, rfl, -⟩ := p.exists_drive_of_run h
  obtain ⟨cover, content, hcover, hthreads⟩ := threaded_of_drive hdrive
  refine ⟨cover, content, hcover, hthreads.append (threads_of_not_executing ?_)⟩
  intro b id s e c he
  unfold lastWord at he
  split at he
  · cases he
  · cases List.mem_singleton.1 he
  · cases List.mem_singleton.1 he

end Run

end Platform

end Syndication
