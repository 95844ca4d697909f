import Syndication.Proofs.Workflow.Stages

/-!
# Uploads in a run

An image is uploaded by a hook or is fetched and sent to an endpoint, and the upload comes to
an address or to an error of its own. Images are uploaded one after another. Whatever one of
them comes to, the next one follows, so a course of the uploads is either a sequence of whole
uploads, one for each image, or it was broken off: by the cancellation, or by a fault of a hook
or of the transport. There is no third way.

What is uploaded is read off a course from outside, by the reports that an upload begins
(`uploadsOf`).

* `course_uploadOrCancel`: one image.
* `course_uploadAll`: one image after another.
* `course_uploadCover`: the cover.
* `plain_logIn`, `plain_saveAndPublish`, `plain_finishContent`: nothing is uploaded elsewhere.
-/

namespace Syndication

/-! ### What is seen of an upload -/

/-- The image that is about to be uploaded. -/
def Event.upload? : Event → Option String
  | .uploading _ source => some source
  | _ => none

/-- The images whose upload has begun, in order. -/
def uploadsOf (log : List Entry) : List String :=
  (told log).filterMap fun entry => entry.2.upload?

@[simp] theorem uploadsOf_nil : uploadsOf [] = [] := rfl

theorem uploadsOf_report (b : Bool) (e : Event) (log : List Entry) :
    uploadsOf (⟨b, .report e⟩ :: log) = e.upload?.toList ++ uploadsOf log := by
  rw [uploadsOf, told_report, List.filterMap_cons]
  cases e.upload? <;> rfl

@[simp] theorem uploadsOf_append (log log' : List Entry) :
    uploadsOf (log ++ log') = uploadsOf log ++ uploadsOf log' := by
  rw [uploadsOf, told_append, List.filterMap_append]
  rfl

theorem uploadsOf_of_told {log : List Entry} (h : told log = []) : uploadsOf log = [] := by
  rw [uploadsOf, h]
  rfl

/-- An upload that has come to its end. -/
structure Upload where
  /-- The address of the image. -/
  source : String
  /-- The address at which it is hosted, or why it could not be uploaded. -/
  outcome : Except UploadError String

namespace Upload

variable (u : Upload)

/-- The outcome for the run. -/
def result : Except WorkflowError String :=
  u.outcome.mapError .upload

/-- What is reported of an upload that has failed, as `event` words it. -/
def note (event : String → Event) (b : Bool) : List Entry :=
  match u.outcome with
  | .ok _ => []
  | .error cause => [⟨b, .report (event (WorkflowError.upload cause).message)⟩]

/-- The address that takes the place of the image, and none if it could not be uploaded. -/
def address : String :=
  match u.outcome with
  | .ok address => address
  | .error _ => ""

theorem uploadsOf_note {event : String → Event} (h : ∀ message, (event message).upload? = none)
    (b : Bool) : uploadsOf (u.note event b) = [] := by
  unfold note
  split
  · rfl
  · rw [uploadsOf_report, h]
    rfl

end Upload

/-- The addresses of the images that could be uploaded, by image, besides those in `hosted`. -/
def hostedBy (uploads : List Upload) (hosted : KeyMap String) : KeyMap String :=
  uploads.foldl (fun hosted u =>
    match u.outcome with
    | .ok address => hosted.insert u.source address
    | .error _ => hosted) hosted

/-- The uploads that `y` ends were broken off: the cancellation has fired, or there was a fault. -/
def BrokenOff {α : Type} (b' : Bool) (y : Ending (Except WorkflowError α)) : Prop :=
  (y = .value (.error .cancelled) ∧ b' = true) ∨ ∃ text, y = .fault text

/-- What a course of a part of a run after another is made of, when the first ends with a value or
is broken off. -/
theorem course_bind_of_brokenOff {α β : Type} {x : Attempt α} {f : α → Attempt β}
    {ends : α → List Entry → Prop} {breaks : List Entry → Prop} {b b' : Bool} {log : List Entry}
    {z : Ending (Except WorkflowError β)}
    (hx : ∀ {log : List Entry} {b' : Bool} {y : Ending (Except WorkflowError α)},
      x.run.Course b log b' y →
        (∃ r, y = .value (.ok r) ∧ ends r log) ∨ breaks log ∧ BrokenOff b' y)
    (h : (x >>= f).run.Course b log b' z) :
    (∃ r log₁ b₁ log₂, ends r log₁ ∧ (f r).run.Course b₁ log₂ b' z ∧ log = log₁ ++ log₂) ∨
    breaks log ∧ BrokenOff b' z := by
  obtain ⟨log₁, b₁, r, log₂, hx', hf, rfl⟩ | ⟨e, hx', rfl⟩ | ⟨text, hx', rfl⟩ :=
    course_run_bind h
  · obtain ⟨_, hv, hends⟩ | ⟨-, ⟨hv, -⟩ | ⟨_, hv⟩⟩ := hx hx' <;> cases hv
    exact .inl ⟨r, log₁, b₁, log₂, hends, hf, rfl⟩
  · obtain ⟨_, hv, -⟩ | ⟨hbreaks, ⟨hv, hfired⟩ | ⟨_, hv⟩⟩ := hx hx' <;> cases hv
    exact .inr ⟨hbreaks, .inl ⟨rfl, hfired⟩⟩
  · obtain ⟨_, hv, -⟩ | ⟨hbreaks, -⟩ := hx hx'
    · cases hv
    · exact .inr ⟨hbreaks, .inr ⟨text, rfl⟩⟩

namespace Platform

variable (p : Platform)

/-- An image is uploaded from before the firing: from the context `c` to the context `c'`. -/
def Uploads (u : Upload) (c : Context) (log : List Entry) (b' : Bool) (c' : Context) : Prop :=
  ∃ log', log = ⟨false, .report (.uploading p.id u.source)⟩ :: log' ∧
    (p.transfer u.source c).Course false log' b' (.value (c', u.result))

/-- Images are uploaded one after another. A failure is reported, and perhaps there is a wait
before the next one. -/
inductive InTurn : Context → List Upload → List Entry → Context → Prop where
  | done {c : Context} : InTurn c [] [] c
  | next {c c₁ c' : Context} {u : Upload} {uploads : List Upload} {b : Bool}
    {log wait rest : List Entry} (hu : p.Uploads u c log b c₁) (hwait : told wait = [])
    (hrest : InTurn c₁ uploads rest c') :
    InTurn c (u :: uploads)
      (log ++ (u.note (.imageKept p.id u.source) b ++ (wait ++ rest))) c'

variable {p} {u : Upload} {source : String} {c c' : Context} {b b' : Bool} {log : List Entry}

theorem Uploads.uploadsOf (h : p.Uploads u c log b' c') : uploadsOf log = [u.source] := by
  obtain ⟨log', rfl, ht⟩ := h
  have hquiet := Program.told_of_silent (p.silent_transfer _ _) ht
  rw [uploadsOf_report, uploadsOf_of_told hquiet]
  rfl

/-- The report of a failure begins no upload. -/
theorem Uploads.uploadsOf_append (h : p.Uploads u c log b' c') {event : String → Event}
    (hevent : ∀ message, (event message).upload? = none) (rest : List Entry) :
    Syndication.uploadsOf (log ++ (u.note event b' ++ rest)) =
      u.source :: Syndication.uploadsOf rest := by
  rw [Syndication.uploadsOf_append, Syndication.uploadsOf_append, h.uploadsOf,
    Upload.uploadsOf_note u hevent]
  rfl

/-- Each upload of the sequence has begun once, and nothing else was uploaded. -/
theorem InTurn.uploadsOf {uploads : List Upload} (h : p.InTurn c uploads log c') :
    uploadsOf log = uploads.map (·.source) := by
  induction h with
  | done => rfl
  | next hu hwait _ ih =>
    rw [hu.uploadsOf_append fun _ => rfl, Syndication.uploadsOf_append, uploadsOf_of_told hwait, ih]
    rfl

/-! ### One image -/

/-- What is seen when an image is fetched, and what it comes to. -/
theorem course_fetchImage {x : Ending (Except UploadError Blob)}
    (h : (fetchImage source).Course b log b' x) :
    ∃ reply, log = [⟨b, .send (.get source)⟩, ⟨b', .receive reply⟩] ∧
      ((∃ r, reply = .answer r ∧ isSuccessStatus r.status = true ∧
          x = .value (.ok (imageOf source r))) ∨
        (∀ r, reply = .answer r → isSuccessStatus r.status = false) ∧
          ((∃ cause, x = .value (.error (.download source cause))) ∨ ∃ text, x = .fault text)) := by
  cases h with
  | fetch reply _ h =>
    refine ⟨reply, ?_⟩
    cases reply with
    | answer r =>
      change Program.Course (ite _ _ _) _ _ _ _ at h
      split at h
      · rename_i hsuccess
        obtain ⟨rfl, rfl, rfl⟩ := Program.course_pure.1 h
        exact ⟨rfl, .inl ⟨r, rfl, hsuccess, rfl⟩⟩
      · rename_i hsuccess
        obtain ⟨rfl, rfl, rfl⟩ := Program.course_pure.1 h
        refine ⟨rfl, .inr ⟨?_, .inl ⟨_, rfl⟩⟩⟩
        rintro _ ⟨⟩
        exact Bool.not_eq_true _ ▸ hsuccess
    | failure cause =>
      obtain ⟨rfl, rfl, rfl⟩ := Program.course_pure.1 h
      exact ⟨rfl, .inr ⟨nofun, .inl ⟨_, rfl⟩⟩⟩
    | fault text =>
      obtain ⟨rfl, rfl, rfl⟩ := Program.course_fault.1 h
      exact ⟨rfl, .inr ⟨nofun, .inr ⟨_, rfl⟩⟩⟩

/-- What an endpoint gives is an address or an error of the upload. -/
theorem exists_upload_of_uploadedAddress (source : String)
    (outcome : Except ExecuteError Execution) :
    ∃ u : Upload, u.source = source ∧ uploadedAddress source outcome = u.result := by
  cases outcome with
  | error cause => exact ⟨⟨source, .error _⟩, rfl, rfl⟩
  | ok x =>
    unfold uploadedAddress
    simp only
    split
    · exact ⟨⟨source, .error _⟩, rfl, rfl⟩
    · exact ⟨⟨source, .ok _⟩, rfl, rfl⟩

/-- **What goes wrong with an upload is an error of the upload.** -/
theorem exists_upload_of_transfer (hcan : p.canUpload = true)
    {r : Except WorkflowError String}
    (h : (p.transfer source c).Course b log b' (.value (c', r))) :
    ∃ u : Upload, u.source = source ∧ r = u.result := by
  have herror : ∀ cause, ∃ u : Upload, u.source = source ∧ .error (.upload cause) = u.result :=
    fun cause => ⟨⟨source, .error cause⟩, rfl, rfl⟩
  unfold transfer at h
  split at h
  · -- the hook
    obtain ⟨_, _, result, _, -, hr, -⟩ | ⟨_, _, hv⟩ := Program.course_bind.1 h
    · cases result with
      | ok address =>
        obtain ⟨-, -, hv⟩ := Program.course_pure.1 hr
        cases hv
        exact ⟨⟨source, .ok address⟩, rfl, rfl⟩
      | error cause =>
        obtain ⟨-, -, hv⟩ := Program.course_pure.1 hr
        cases hv
        exact herror _
    · cases hv
  · rename_i hhook
    split at h
    · -- without a hook and an endpoint nothing can be uploaded
      rename_i hendpoint
      simp [canUpload, hhook, hendpoint] at hcan
    · obtain ⟨_, _, result, _, -, hr, -⟩ | ⟨_, _, hv⟩ := Program.course_bind.1 h
      · cases result with
        | error cause =>
          obtain ⟨-, -, hv⟩ := Program.course_pure.1 hr
          cases hv
          exact herror cause
        | ok image =>
          obtain ⟨_, _, outcome, _, -, hr, -⟩ | ⟨_, _, hv⟩ := Program.course_bind.1 hr
          · obtain ⟨-, -, hv⟩ := Program.course_pure.1 hr
            cases hv
            exact exists_upload_of_uploadedAddress source outcome
          · cases hv
      · cases hv

/-- **The upload of one image** comes to its end, or it is broken off. Then the cancellation has
fired, or there was a fault. -/
theorem course_uploadOrCancel (hcan : p.canUpload = true)
    {y : Ending (Context × Except WorkflowError String)}
    (h : (p.uploadOrCancel source c).Course b log b' y) :
    (∃ u c', u.source = source ∧ p.Uploads u c log b' c' ∧ y = .value (c', u.result)) ∨
    uploadsOf log <+: [source] ∧
      ((∃ c', y = .value (c', .error .cancelled) ∧ b' = true) ∨ ∃ text, y = .fault text) := by
  have hlook := Program.course_isCancelled_bind.1 h
  cases b with
  | true =>
    cases hlook with
    | report h =>
      obtain ⟨rfl, rfl, rfl⟩ := Program.course_done.1 h
      exact .inr ⟨ List.nil_prefix, .inl ⟨c, rfl, rfl⟩⟩
  | false =>
    cases hlook with
    | watch h =>
      cases h with
      | @report _ _ _ _ log' _ h =>
        have hquiet := p.silent_transfer source c
        obtain ht | ⟨log₁, log₂, htold, hcancel, rfl⟩ := Program.course_interruptible hquiet h
        · cases y with
          | value result =>
            obtain ⟨c', r⟩ := result
            obtain ⟨u, rfl, rfl⟩ := exists_upload_of_transfer hcan ht
            exact .inl ⟨u, c', rfl, ⟨log', rfl, ht⟩, rfl⟩
          | fault text =>
            have hnone := uploadsOf_of_told (Program.told_of_silent hquiet ht)
            refine .inr ⟨?_, .inr ⟨text, rfl⟩⟩
            rw [uploadsOf_report, hnone]
            exact List.prefix_rfl
        · -- a wait of the upload was cut
          cases hcancel with
          | unwatch hcancel =>
            cases hcancel with
            | report hcancel =>
              obtain ⟨rfl, rfl, rfl⟩ := Program.course_done.1 hcancel
              refine .inr ⟨?_, .inl ⟨c, rfl, rfl⟩⟩
              rw [uploadsOf_report, uploadsOf_append, uploadsOf_of_told htold]
              exact List.prefix_rfl

/-! ### One image after another -/

/-- What follows the upload of an image: its address is kept, or its failure is reported, and the
others are uploaded after a wait. -/
def afterUpload (p : Platform) (source : String) (r : Except WorkflowError String)
    (rest : List String) (c : Context) (hosted : KeyMap String) :
    Attempt (Context × KeyMap String) :=
  let others (hosted : KeyMap String) : Attempt (Context × KeyMap String) :=
    if (!rest.isEmpty) = true then p.pace >>= fun _ => p.uploadAll rest c hosted
    else p.uploadAll rest c hosted
  match r with
  | .ok address => others (hosted.insert source address)
  | .error .cancelled => Attempt.fail .cancelled
  | .error e =>
    Attempt.perform (.emit (.imageKept p.id source e.message)) >>= fun _ => others hosted

theorem uploadAll_cons (p : Platform) (source : String) (rest : List String) (c : Context)
    (hosted : KeyMap String) :
    p.uploadAll (source :: rest) c hosted = Attempt.perform (p.uploadOrCancel source c) >>=
      fun result => p.afterUpload source result.2 rest result.1 hosted := by
  rw [uploadAll]
  refine bind_congr fun ⟨c, uploaded⟩ => ?_
  unfold afterUpload
  cases uploaded with
  | ok address => exact pure_bind _ _
  | error e =>
    cases e with
    | cancelled => rfl
    | _ => rfl

/-- A wait is waited out, or the cancellation has fired. -/
theorem course_pause_of {d : Duration} {y : Ending (Except WorkflowError Unit)}
    (h : (ExceptT.mk do
      if ← Program.pause d then return .ok () else return .error .cancelled :
        Attempt Unit).run.Course b log b' y) :
    told log = [] ∧ (y = .value (.ok ()) ∨ BrokenOff b' y) := by
  obtain ⟨log₁, b₁, waited, log₂, hpause, hr, rfl⟩ | ⟨_, hpause, -⟩ := Program.course_bind.1 h
  · have htold := (Program.course_pause hpause).1
    obtain ⟨-, hv⟩ | ⟨-, -, rfl, hv⟩ := Program.course_pause_cases hpause <;> cases hv
    · obtain ⟨rfl, -, rfl⟩ := Program.course_pure.1 hr
      exact ⟨by rw [List.append_nil, htold], .inl rfl⟩
    · obtain ⟨rfl, rfl, rfl⟩ := Program.course_pure.1 hr
      exact ⟨by rw [List.append_nil, htold], .inr (.inl ⟨rfl, rfl⟩)⟩
  · obtain ⟨-, _, hv⟩ := Program.course_pause hpause
    cases hv

/-- The wait between two uploads is waited out, or the cancellation has fired. -/
theorem course_pace {y : Ending (Except WorkflowError Unit)}
    (h : p.pace.run.Course b log b' y) :
    told log = [] ∧ (y = .value (.ok ()) ∨ BrokenOff b' y) :=
  course_pause_of h

/-- What comes after an upload comes after the wait, unless that was cut. -/
theorem course_pace_bind {α : Type} {paced : Bool} {x : Attempt α}
    {y : Ending (Except WorkflowError α)}
    (h : (if paced = true then p.pace >>= fun _ => x else x).run.Course b log b' y) :
    (∃ wait b₁ log', told wait = [] ∧ x.run.Course b₁ log' b' y ∧ log = wait ++ log') ∨
    told log = [] ∧ BrokenOff b' y := by
  split at h
  · obtain ⟨wait, b₁, _, log', hpace, hx, rfl⟩ | ⟨e, hpace, rfl⟩ | ⟨text, hpace, rfl⟩ :=
      course_run_bind h
    · exact .inl ⟨wait, b₁, log', (course_pace hpace).1, hx, rfl⟩
    · obtain ⟨htold, hv | ⟨hv, hfired⟩ | ⟨_, hv⟩⟩ := course_pace hpace <;> cases hv
      exact .inr ⟨htold, .inl ⟨rfl, hfired⟩⟩
    · exact .inr ⟨(course_pace hpace).1, .inr ⟨text, rfl⟩⟩
  · exact .inl ⟨[], b, log, rfl, h, rfl⟩

/-- What is left of the uploads once the first has come to its end: its failure is reported, and
the others follow after a wait, unless that was cut. -/
theorem course_afterUpload {rest : List String} {hosted : KeyMap String}
    {y : Ending (Except WorkflowError (Context × KeyMap String))}
    (h : (p.afterUpload u.source u.result rest c hosted).run.Course b log b' y) :
    ∃ log', log = u.note (.imageKept p.id u.source) b ++ log' ∧
      ((∃ wait b₁ log₂, told wait = [] ∧
        (p.uploadAll rest c (hostedBy [u] hosted)).run.Course b₁ log₂ b' y ∧
        log' = wait ++ log₂) ∨
      told log' = [] ∧ BrokenOff b' y) := by
  obtain ⟨source, outcome⟩ := u
  cases outcome with
  | ok address => exact ⟨log, rfl, course_pace_bind h⟩
  | error cause =>
    -- the failure is reported, and the addresses stay as they are
    have hreport : (Attempt.perform (Program.emit
        (.imageKept p.id source (WorkflowError.upload cause).message)) >>= fun _ =>
          if (!rest.isEmpty) = true then p.pace >>= fun _ => p.uploadAll rest c hosted
          else p.uploadAll rest c hosted).run.Course b log b' y := h
    rw [run_perform_bind] at hreport
    obtain ⟨log', rfl, hothers⟩ := Program.course_emit_bind.1 hreport
    exact ⟨log', rfl, course_pace_bind hothers⟩

/-- **Uploads one after another**: each image is uploaded once, in order, or the uploads were
broken off on the way. -/
theorem course_uploadAll (hcan : p.canUpload = true) {sources : List String}
    {hosted : KeyMap String} {y : Ending (Except WorkflowError (Context × KeyMap String))}
    (h : (p.uploadAll sources c hosted).run.Course b log b' y) :
    (∃ r, y = .value (.ok r) ∧ ∃ uploads, uploads.map (·.source) = sources ∧
      p.InTurn c uploads log r.1 ∧ r.2 = hostedBy uploads hosted) ∨
    uploadsOf log <+: sources ∧ BrokenOff b' y := by
  induction sources generalizing c hosted b log with
  | nil =>
    obtain ⟨rfl, -, rfl⟩ := Program.course_pure.1 h
    exact .inl ⟨_, rfl, [], rfl, .done, rfl⟩
  | cons source rest ih =>
    have hfirst : ([source] : List String) <+: source :: rest := List.prefix_append [source] rest
    rw [uploadAll_cons, run_perform_bind] at h
    obtain ⟨log₁, b₁, result, log₂, hone, hnext, rfl⟩ | ⟨text, hone, rfl⟩ :=
      Program.course_bind.1 h
    · obtain ⟨u, c₁, rfl, hu, hv⟩ | ⟨hbegun, ⟨c₁, hv, rfl⟩ | ⟨_, hv⟩⟩ :=
        course_uploadOrCancel hcan hone <;> cases hv
      · obtain ⟨log', rfl, ⟨wait, b₂, log₃, hwait, hrest, rfl⟩ | ⟨hquiet, hbroken⟩⟩ :=
          course_afterUpload hnext
        · obtain ⟨r, rfl, uploads, rfl, hturn, hhosted⟩ | ⟨hpre, hbroken⟩ := ih hrest
          · exact .inl ⟨r, rfl, u :: uploads, rfl, .next hu hwait hturn, hhosted⟩
          · refine .inr ⟨?_, hbroken⟩
            rw [hu.uploadsOf_append fun _ => rfl, uploadsOf_append, uploadsOf_of_told hwait]
            exact List.cons_prefix_cons.2 ⟨rfl, hpre⟩
        · refine .inr ⟨?_, hbroken⟩
          rw [hu.uploadsOf_append fun _ => rfl, uploadsOf_of_told hquiet]
          exact hfirst
      · -- the cancellation was seen
        obtain ⟨rfl, rfl, rfl⟩ := Program.course_pure.1 hnext
        rw [List.append_nil]
        exact .inr ⟨hbegun.trans hfirst, .inl ⟨rfl, rfl⟩⟩
    · obtain ⟨_, _, _, _, hv⟩ | ⟨hbegun, -⟩ := course_uploadOrCancel hcan hone
      · cases hv
      · exact .inr ⟨hbegun.trans hfirst, .inr ⟨text, rfl⟩⟩

/-! ### The cover -/

/-- The cover that is uploaded: the article has one, and the platform takes it. -/
def coverToUpload? (p : Platform) (a : Article) : Option String :=
  a.cover.filter fun _ => a.hasCover && p.definition.supports .cover && p.canUpload

/-- The cover is uploaded if there is one to upload. Its address is then that of the upload, and
it is empty if the upload has failed. -/
inductive WithCover (p : Platform) : Context → Option Upload → List Entry → Context → Prop where
  | without {c : Context} : WithCover p c none [] c
  | uploaded {c c' : Context} {u : Upload} {b : Bool} {log : List Entry}
    (hu : p.Uploads u c log b c') :
    WithCover p c (some u) (log ++ u.note (.coverDropped p.id u.source) b)
      (c'.setArticleField "cover" (.string u.address))

theorem WithCover.uploadsOf {cover : Option Upload} (h : p.WithCover c cover log c') :
    uploadsOf log = (cover.map (·.source)).toList := by
  cases h with
  | without => rfl
  | uploaded hu =>
    rw [Syndication.uploadsOf_append, hu.uploadsOf, Upload.uploadsOf_note _ fun _ => rfl]
    rfl

/-- **The upload of the cover**: it is uploaded once if it is uploaded at all, or the upload was
broken off. -/
theorem course_uploadCover {a : Article} {y : Ending (Except WorkflowError Context)}
    (h : (p.uploadCover a c).run.Course b log b' y) :
    (∃ c', y = .value (.ok c') ∧ ∃ cover, cover.map (·.source) = p.coverToUpload? a ∧
      p.WithCover c cover log c') ∨
    uploadsOf log <+: (p.coverToUpload? a).toList ∧ BrokenOff b' y := by
  unfold uploadCover at h
  cases hcover : a.cover with
  | none =>
    simp only [hcover] at h
    obtain ⟨rfl, -, rfl⟩ := Program.course_pure.1 h
    exact .inl ⟨c, rfl, none, by rw [coverToUpload?, hcover]; rfl, .without⟩
  | some cover =>
    simp only [hcover] at h
    split at h
    · rename_i htaken
      have hsource : p.coverToUpload? a = some cover := by
        rw [coverToUpload?, hcover, Option.filter_some, if_pos htaken]
      have hcan : p.canUpload = true := (Bool.and_eq_true_iff.1 htaken).2
      rw [run_perform_bind] at h
      obtain ⟨log₁, b₁, result, log₂, hone, hnext, rfl⟩ | ⟨text, hone, rfl⟩ :=
        Program.course_bind.1 h
      · obtain ⟨u, c₁, rfl, hu, hv⟩ | ⟨hbegun, ⟨c₁, hv, rfl⟩ | ⟨_, hv⟩⟩ :=
          course_uploadOrCancel hcan hone <;> cases hv
        · -- the upload has come to its end, and the cover gets its address
          have hend : log₂ = u.note (.coverDropped p.id u.source) b₁ ∧
              y = .value (.ok (c₁.setArticleField "cover" (.string u.address))) := by
            obtain ⟨source, outcome⟩ := u
            cases outcome with
            | ok address =>
              obtain ⟨rfl, -, rfl⟩ := Program.course_pure.1 hnext
              exact ⟨rfl, rfl⟩
            | error cause =>
              have hreport : (Program.emit (.coverDropped p.id source
                  (WorkflowError.upload cause).message) >>= fun _ =>
                    pure (.ok (c₁.setArticleField "cover" (.string "")))).Course b₁ log₂ b' y :=
                hnext
              obtain ⟨log₃, rfl, hv⟩ := Program.course_emit_bind.1 hreport
              obtain ⟨rfl, -, rfl⟩ := Program.course_pure.1 hv
              exact ⟨rfl, rfl⟩
          obtain ⟨rfl, rfl⟩ := hend
          exact .inl ⟨_, rfl, some u, hsource.symm, .uploaded hu⟩
        · obtain ⟨rfl, rfl, rfl⟩ := Program.course_pure.1 hnext
          rw [List.append_nil, hsource]
          exact .inr ⟨hbegun, .inl ⟨rfl, rfl⟩⟩
      · obtain ⟨_, _, _, _, hv⟩ | ⟨hbegun, -⟩ := course_uploadOrCancel hcan hone
        · cases hv
        · rw [hsource]
          exact .inr ⟨hbegun, .inr ⟨text, rfl⟩⟩
    · rename_i htaken
      obtain ⟨rfl, -, rfl⟩ := Program.course_pure.1 h
      refine .inl ⟨c, rfl, none, ?_, .without⟩
      rw [coverToUpload?, hcover, Option.filter_some, if_neg htaken]
      rfl

end Platform

/-! ### Stages in which nothing is uploaded -/

variable {α : Type}

/-- Whether the error is one of an upload. -/
def WorkflowError.isUpload : WorkflowError → Bool
  | .upload _ => true
  | _ => false

/-- Nothing is uploaded in a part of a run, and it does not fail for an upload, where `cause` says
what its errors are. -/
def Plain {ε : Type} (cause : ε → WorkflowError) (x : ExceptT ε Program α) : Prop :=
  ∀ ⦃b : Bool⦄ ⦃log : List Entry⦄ ⦃b' : Bool⦄ ⦃y : Ending (Except ε α)⦄, x.run.Course b log b' y →
    uploadsOf log = [] ∧ ∀ e, y = .value (.error e) → (cause e).isUpload = false

/-- Nothing is uploaded in the part of a run. -/
abbrev Attempt.Plain (x : Attempt α) : Prop :=
  Syndication.Plain id x

/-- Nothing is uploaded in the part of a run. -/
abbrev Stage.Plain (x : Stage α) : Prop :=
  Syndication.Plain Failure.error x

section Rules

variable {ε β : Type} {cause : ε → WorkflowError}

theorem plain_pure (a : α) : Plain cause (pure a : ExceptT ε Program α) := by
  intro b log b' y h
  obtain ⟨rfl, -, rfl⟩ := Program.course_pure.1 h
  exact ⟨rfl, nofun⟩

theorem plain_bind {x : ExceptT ε Program α} {f : α → ExceptT ε Program β} (hx : Plain cause x)
    (hf : ∀ a, Plain cause (f a)) : Plain cause (x >>= f) := by
  intro b log b' y h
  obtain ⟨log₁, b₁, a, log₂, hx', hf', rfl⟩ | ⟨e, hx', rfl⟩ | ⟨text, hx', rfl⟩ :=
    course_run_bind h
  · obtain ⟨hnone, herror⟩ := hf a hf'
    refine ⟨?_, herror⟩
    rw [uploadsOf_append, (hx hx').1, hnone]
    rfl
  · obtain ⟨hnone, herror⟩ := hx hx'
    refine ⟨hnone, ?_⟩
    rintro _ ⟨⟩
    exact herror e rfl
  · exact ⟨(hx hx').1, nofun⟩

theorem plain_fail {e : WorkflowError} (he : e.isUpload = false) :
    (Attempt.fail e : Attempt α).Plain := by
  intro b log b' y h
  obtain ⟨rfl, -, rfl⟩ := Program.course_pure.1 h
  refine ⟨rfl, ?_⟩
  rintro _ ⟨⟩
  exact he

theorem plain_perform {q : Program α}
    (hq : ∀ ⦃b log b' y⦄, q.Course b log b' y → uploadsOf log = []) :
    (Attempt.perform q).Plain := by
  intro b log b' y h
  obtain ⟨log₁, b₁, a, log₂, hq', hv, rfl⟩ | ⟨text, hq', rfl⟩ := Program.course_bind.1 h
  · obtain ⟨rfl, -, rfl⟩ := Program.course_pure.1 hv
    exact ⟨by rw [List.append_nil, hq hq'], nofun⟩
  · exact ⟨hq hq', nofun⟩

/-- A part that reports nothing uploads nothing. -/
theorem plain_perform_of_silent {q : Program α} (hq : q.Silent) :
    (Attempt.perform q).Plain :=
  plain_perform fun _ _ _ _ h => uploadsOf_of_told (Program.told_of_silent hq h)

/-- A part in a state fails for what the part fails for. -/
theorem plain_within {x : Attempt α} (hx : x.Plain) (s : WorkflowState) :
    (Attempt.within s x).Plain := by
  intro b log b' y h
  obtain ⟨r, hr, rfl⟩ | ⟨text, hr, rfl⟩ := Program.course_map.1 h
  · obtain ⟨hnone, herror⟩ := hx hr
    refine ⟨hnone, ?_⟩
    cases r with
    | ok a => rintro _ ⟨⟩
    | error e =>
      rintro _ ⟨⟩
      exact herror e rfl
  · refine ⟨(hx hr).1, ?_⟩
    rintro _ ⟨⟩

end Rules

namespace Platform

variable (p : Platform)

theorem plain_enter (s t : WorkflowState) : (p.enter s t).Plain := by
  intro b log b' y h
  obtain ⟨rfl, rfl⟩ | ⟨rfl, -, rfl⟩ := course_enter h
  · refine ⟨rfl, ?_⟩
    rintro _ ⟨⟩
    rfl
  · refine ⟨rfl, ?_⟩
    rintro _ ⟨⟩

/-- An endpoint of a step is no upload. -/
theorem plain_call (s : WorkflowState) (e : Endpoint) (c : Context) :
    (Attempt.perform (p.call s e c)).Plain := by
  refine plain_perform fun b log b' y h => ?_
  obtain ⟨_, -, htold⟩ | ⟨_, -, htold⟩ := told_of_call h <;>
  · rw [uploadsOf, htold]
    rfl

theorem plain_authenticate (c : Context) : (p.authenticate c).Plain := by
  refine plain_bind (p.plain_call _ _ c) fun r => ?_
  cases r with
  | ok x => exact plain_pure _
  | error cause => cases cause <;> exact plain_fail rfl

theorem plain_execute (s : WorkflowState) (e : Endpoint) (c : Context) :
    (p.execute s e c).Plain := by
  refine plain_bind (p.plain_call _ _ c) fun r => ?_
  cases r with
  | ok x => exact plain_pure _
  | error cause => exact plain_fail rfl

theorem plain_takeStep (endpoint : Option Endpoint) (target : WorkflowState)
    (progress : WorkflowState × Context) :
    (p.takeStep endpoint target progress).Plain := by
  cases endpoint with
  | none => exact plain_pure _
  | some e =>
    exact plain_bind (p.plain_enter _ _) fun _ =>
      plain_bind (plain_within (p.plain_execute _ _ _) _) fun _ => plain_pure _

/-- Nothing is uploaded in the first stage. -/
theorem plain_logIn (a : Article) (draftOnly : Bool) :
    (p.logIn a draftOnly).Plain := by
  unfold logIn
  split
  · exact plain_within (plain_fail rfl) _
  · refine plain_bind (p.plain_enter _ _) fun _ => ?_
    refine plain_bind (plain_within (p.plain_authenticate _) _) fun user => ?_
    exact plain_bind (p.plain_enter _ _) fun _ => plain_pure _

/-- Nothing is uploaded in the last stage. -/
theorem plain_saveAndPublish (draftOnly : Bool) (c : Context) :
    (p.saveAndPublish draftOnly c).Plain := by
  refine plain_bind (p.plain_takeStep _ _ _) fun _ => ?_
  refine plain_bind (p.plain_takeStep _ _ _) fun progress => ?_
  split
  · exact plain_bind (p.plain_enter _ _) fun _ =>
      plain_bind (p.plain_enter _ _) fun _ => plain_pure _
  · exact plain_bind (p.plain_enter _ _) fun _ =>
      plain_bind (plain_within (p.plain_execute _ _ _) _) fun _ =>
        plain_bind (p.plain_enter _ _) fun _ => plain_pure _

/-- Nothing is uploaded once the images are. -/
theorem plain_finishContent (k : ContentProcessor) (format : ContentFormat) (content : String)
    (c : Context) : (p.finishContent k format content c).Plain := by
  refine plain_bind ?_ fun content => ?_
  · unfold contentHook
    split
    · refine plain_bind
        (plain_perform_of_silent (p.hooks.silent_contentTransform content c)) fun r => ?_
      cases r with
      | ok content => exact plain_pure _
      | error cause => exact plain_fail rfl
    · exact plain_pure _
  · exact plain_bind (plain_perform_of_silent (Conversion.silent_program _)) fun _ => plain_pure _

end Platform

end Syndication
