import Mathlib.Data.List.Basic
import Syndication.Sync.Run
import Syndication.Transport.Scripted

/-!
# Hooks that a definition does not ask for

Two implementations of hooks may both be accepted for a definition and do quite different
things where the definition asks for nothing. None of that is ever seen: a platform calls a
hook at five places, and each of them looks first whether the definition asks for it.

`Platform.Alike` relates two platforms of one definition whose implementations agree on the
hooks that it asks for. Alike platforms have the same programs, part by part: only the five
places need an argument, and every other part of a run takes it from the parts it is made of.
The relation is carried to registries and, batch by batch, to whole syncs.

Main statements:

* `Platform.Alike.run`: alike platforms run an article in the same way.
* `Publisher.sync_of_alike`: alike registries make no difference to a sync.
* `Platform.undeclared_without_effect`: what an implementation does at hooks that are not asked
  for has no effect.
-/

namespace Syndication

/-- **Two implementations agree on a hook**: whatever it is called with, both do the same. A
program is all that can be seen of what a hook does, so nothing else is compared. -/
def Hooks.Agree (g h : Hooks) : Hook → Prop
  | .contentTransform => ∀ content c, g.contentTransform content c = h.contentTransform content c
  | .prepareBody => ∀ url body c, g.prepareBody url body c = h.prepareBody url body c
  | .beforeRequest => ∀ url c, g.beforeRequest url c = h.beforeRequest url c
  | .processImages => ∀ content c, g.processImages content c = h.processImages content c
  | .uploadImageByUrl => ∀ source c, g.uploadImageByUrl source c = h.uploadImageByUrl source c

namespace Platform

variable {d : Definition} {g g' : Hooks} {p q : Platform}

/-- **Platforms that differ at undeclared hooks alone.** -/
structure Alike (p q : Platform) : Prop where
  definition : p.definition = q.definition
  hooks : ∀ hook ∈ q.definition.hooks, p.hooks.Agree q.hooks hook

theorem alike_of_bind (hp : bind d g = .ok p) (hq : bind d g' = .ok q)
    (hagree : ∀ hook ∈ d.hooks, g.Agree g' hook) : p.Alike q := by
  obtain ⟨hpd, rfl⟩ := eq_of_bind hp
  obtain ⟨rfl, rfl⟩ := eq_of_bind hq
  exact ⟨hpd, hagree⟩

/-- An accepted implementation provides what is asked for, so asking for a hook is all that
puts it in force. -/
theorem declares_and_provides (p : Platform) (hook : Hook) :
    (p.definition.declares hook && p.hooks.provides hook) = p.definition.declares hook := by
  cases hd : p.definition.declares hook with
  | false => rfl
  | true =>
    have hprovided := p.provided hook (List.contains_iff_mem.1 hd)
    rw [hprovided]
    rfl

namespace Alike

variable (h : p.Alike q)

include h

theorem id : p.id = q.id := by
  rw [Platform.id, h.definition, Platform.id]

theorem agree {hook : Hook} (hd : q.definition.declares hook = true) : p.hooks.Agree q.hooks hook :=
  h.hooks hook (List.contains_iff_mem.1 hd)

/-! ### Executing endpoints -/

theorem withHeaders (r : Request) (c : Context) :
    p.executor.withHeaders r c = q.executor.withHeaders r c := by
  -- what executes endpoints looks for hooks that are provided besides, which they all are
  have hforce (p : Platform) : p.executor.beforeRequest = p.definition.declares .beforeRequest :=
    p.declares_and_provides .beforeRequest
  rw [Executor.withHeaders, Executor.withHeaders, hforce, hforce, h.definition]
  split
  · rename_i hd
    have hagree : p.executor.hooks.beforeRequest r.url c = q.executor.hooks.beforeRequest r.url c :=
      h.agree hd r.url c
    rw [hagree]
  · rfl

theorem withBody (r : Request) (c : Context) :
    p.executor.withBody r c = q.executor.withBody r c := by
  have hforce (p : Platform) : p.executor.prepareBody = p.definition.declares .prepareBody :=
    p.declares_and_provides .prepareBody
  rw [Executor.withBody, Executor.withBody, hforce, hforce, h.definition]
  split
  · rename_i hd
    have hagree : p.executor.hooks.prepareBody r.url r.body c =
        q.executor.hooks.prepareBody r.url r.body c :=
      h.agree (Bool.and_eq_true_iff.1 hd).1 r.url r.body c
    rw [hagree]
  · rfl

/-- An endpoint is executed in the same way. -/
theorem executes (e : Endpoint) (c : Context) :
    p.executor.execute e c = q.executor.execute e c := by
  have hprepare : p.executor.prepare e c = q.executor.prepare e c := by
    simp only [Executor.prepare, h.withHeaders, h.withBody]
  rw [Executor.execute, Executor.execute, hprepare]

theorem call (state : WorkflowState) (e : Endpoint) (c : Context) :
    p.call state e c = q.call state e c := by
  rw [Platform.call, Platform.call, h.id, h.executes]

theorem authenticate (c : Context) : p.authenticate c = q.authenticate c := by
  rw [Platform.authenticate, Platform.authenticate, h.call, h.definition]

/-- A session is checked in the same way. -/
theorem checkSession : p.checkSession = q.checkSession := by
  rw [Platform.checkSession, Platform.checkSession, h.authenticate]

/-! ### Uploading images -/

theorem canUpload : p.canUpload = q.canUpload := by
  rw [Platform.canUpload, Platform.canUpload, h.definition]

theorem transfer (source : String) (c : Context) : p.transfer source c = q.transfer source c := by
  unfold Platform.transfer
  rw [h.definition]
  split
  · rename_i hd
    have hagree : p.hooks.uploadImageByUrl source c = q.hooks.uploadImageByUrl source c :=
      h.agree hd source c
    rw [hagree]
  · simp only [h.executes]

theorem uploadOrCancel (source : String) (c : Context) :
    p.uploadOrCancel source c = q.uploadOrCancel source c := by
  have hupload : p.upload source c = q.upload source c := by
    rw [Platform.upload, Platform.upload, h.id, h.transfer]
  rw [Platform.uploadOrCancel, Platform.uploadOrCancel, h.id, hupload]

theorem uploadAll (sources : List String) (c : Context) (hosted : KeyMap String) :
    p.uploadAll sources c hosted = q.uploadAll sources c hosted := by
  have hpace : p.pace = q.pace := by
    rw [Platform.pace, Platform.pace, h.definition]
  induction sources generalizing c hosted with
  | nil => rfl
  | cons source rest ih =>
    simp only [Platform.uploadAll, h.uploadOrCancel, h.id, hpace, ih]

theorem processImages (content : String) (c : Context) :
    p.processImages content c = q.processImages content c := by
  unfold Platform.processImages
  rw [h.definition, h.canUpload]
  split
  · rename_i hd
    have hagree : p.hooks.processImages content c = q.hooks.processImages content c :=
      h.agree hd content c
    rw [hagree]
  · simp only [h.uploadAll]

theorem uploadCover (a : Article) (c : Context) : p.uploadCover a c = q.uploadCover a c := by
  simp only [Platform.uploadCover, h.definition, h.canUpload, h.uploadOrCancel, h.id]

/-! ### A run -/

theorem contentHook (content : String) (c : Context) :
    p.contentHook content c = q.contentHook content c := by
  unfold Platform.contentHook
  rw [h.definition]
  split
  · rename_i hd
    have hagree : p.hooks.contentTransform content c = q.hooks.contentTransform content c :=
      h.agree hd content c
    rw [hagree]
  · rfl

theorem transform (k : ContentProcessor) (a : Article) (c : Context) :
    p.transform k a c = q.transform k a c := by
  have hsource : p.source? k a = q.source? k a := by
    rw [Platform.source?, Platform.source?, h.definition]
  have hconvert (format : ContentFormat) (text : String) :
      p.convert k format text = q.convert k format text := by
    rw [Platform.convert, Platform.convert, h.definition]
  simp only [Platform.transform, hsource, hconvert, h.processImages, h.uploadCover, h.contentHook,
    h.definition]

theorem enter (source target : WorkflowState) : p.enter source target = q.enter source target := by
  rw [Platform.enter, Platform.enter, h.id]

theorem execute (state : WorkflowState) (e : Endpoint) (c : Context) :
    p.execute state e c = q.execute state e c := by
  rw [Platform.execute, Platform.execute, h.call]

theorem takeStep (endpoint : Option Endpoint) (target : WorkflowState)
    (progress : WorkflowState × Context) :
    p.takeStep endpoint target progress = q.takeStep endpoint target progress := by
  simp only [Platform.takeStep, h.enter, h.execute]

theorem finishDraft (progress : WorkflowState × Context) :
    p.finishDraft progress = q.finishDraft progress := by
  simp only [Platform.finishDraft, h.enter, draftPublication, h.definition]

theorem finishPost (e : Endpoint) (progress : WorkflowState × Context) :
    p.finishPost e progress = q.finishPost e progress := by
  simp only [Platform.finishPost, h.enter, h.execute, postPublication, h.definition]

theorem drive (k : ContentProcessor) (a : Article) (draftOnly : Bool) :
    p.drive k a draftOnly = q.drive k a draftOnly := by
  have hmissing : p.missing? draftOnly = q.missing? draftOnly := by
    rw [missing?, missing?, h.definition, h.id]
  have hfinishPost : p.finishPost = q.finishPost := by
    funext e progress
    exact h.finishPost e progress
  simp only [Platform.drive, hmissing, h.enter, h.authenticate, h.transform, h.takeStep,
    h.finishDraft, hfinishPost, h.definition]

/-- **Alike platforms run an article in the same way.** -/
theorem run (k : ContentProcessor) (a : Article) (draftOnly : Bool) :
    p.run k a draftOnly = q.run k a draftOnly := by
  simp only [Platform.run, h.drive, h.id]

/-- The further tries are the same as well. -/
theorem publishFrom (k : ContentProcessor) (a : Article) (o : SyncOptions) (remaining made : Nat) :
    p.publishFrom k a o remaining made = q.publishFrom k a o remaining made := by
  induction remaining generalizing made with
  | zero => rw [Platform.publishFrom, Platform.publishFrom, h.run, h.id]
  | succ remaining ih =>
    rw [Platform.publishFrom, Platform.publishFrom]
    simp only [h.run, h.id, ih]

end Alike

theorem Alike.refl (p : Platform) : p.Alike p := by
  refine ⟨rfl, fun hook _ => ?_⟩
  cases hook <;> exact fun _ _ => by intros; rfl

end Platform

/-! ### Syncs -/

/-- **Registries that hold alike platforms**, each under its id. -/
def Registry.Alike (r s : Registry) : Prop :=
  ∀ id, Option.Rel Platform.Alike (r.get? id) (s.get? id)

/-- It is enough that the platforms that are registered are alike. -/
theorem Registry.alike_of_register {r r₁ r₂ : Registry} {p q : Platform} (h : p.Alike q)
    (h₁ : r.register p = .ok r₁) (h₂ : r.register q = .ok r₂) : r₁.Alike r₂ := by
  intro id
  rw [get?_register h₁, get?_register h₂, h.id]
  split
  · exact .some h
  · cases r.get? id with
    | none => exact .none
    | some other => exact .some (.refl other)

namespace Publisher

variable {σ : Type} {x : Publisher σ} {r s : Registry} {a : Article} {o : SyncOptions}

/-- A publisher with another registry. -/
def withRegistry (x : Publisher σ) (r : Registry) : Publisher σ :=
  { x with registry := r }

theorem publishTo_of_alike (h : r.Alike s) (id : String) :
    (x.withRegistry r).publishTo a o id = (x.withRegistry s).publishTo a o id := by
  have hid : Option.Rel Platform.Alike ((x.withRegistry r).registry.get? id)
      ((x.withRegistry s).registry.get? id) := h id
  rw [publishTo, publishTo]
  -- an id is registered in both or in neither
  generalize (x.withRegistry r).registry.get? id = found at hid ⊢
  generalize (x.withRegistry s).registry.get? id = found' at hid ⊢
  cases hid with
  | none => rfl
  | some halike => exact halike.publishFrom x.converter a o o.allowedRetries 0

theorem runBatch_of_alike (h : r.Alike s) (cancels : Outcome → Bool) (batch : List String)
    (w : World σ) :
    (x.withRegistry r).runBatch a o cancels batch w =
      (x.withRegistry s).runBatch a o cancels batch w := by
  have htell : (x.withRegistry r).publishAndTell a o = (x.withRegistry s).publishAndTell a o := by
    funext id
    rw [publishAndTell, publishAndTell, publishTo_of_alike h]
  rw [runBatch, runBatch, htell]
  rfl

theorem runBatches_of_alike (h : r.Alike s) (cancels : Outcome → Bool) (number : Nat)
    (waiting : List (List String)) (w : World σ) :
    (x.withRegistry r).runBatches a o cancels number waiting w =
      (x.withRegistry s).runBatches a o cancels number waiting w := by
  induction waiting generalizing number w with
  | nil => rfl
  | cons batch rest ih => simp only [runBatches, runBatch_of_alike h, ih]

/-- **Alike registries make no difference to a sync.** -/
theorem sync_of_alike (h : r.Alike s) (id : Uuid) (platforms : List String)
    (cancels : Outcome → Bool) (w : World σ) :
    (x.withRegistry r).sync id a platforms o cancels w =
      (x.withRegistry s).sync id a platforms o cancels w := by
  rw [sync, sync, runBatches_of_alike h]
  rfl

end Publisher

namespace Platform

/-- **Undeclared hooks have no effect.** Two implementations that are accepted for a definition
and agree on the hooks that it asks for make platforms that cannot be told apart: they run an
article by the same program and check a session by the same program. So, against any transport
and with any cancellation, the requests, their order and the result are the same, and so is
every sync in which the one or the other takes part. -/
theorem undeclared_without_effect {d : Definition} {g g' : Hooks} {p q : Platform}
    (hp : bind d g = .ok p) (hq : bind d g' = .ok q) (hagree : ∀ hook ∈ d.hooks, g.Agree g' hook)
    (k : ContentProcessor) (a : Article) :
    (∀ draftOnly, p.run k a draftOnly = q.run k a draftOnly) ∧ p.checkSession = q.checkSession ∧
    (∀ {σ : Type} (t : Transport σ) (w : World σ) (draftOnly : Bool),
      Syndication.run t w (p.run k a draftOnly) = Syndication.run t w (q.run k a draftOnly)) ∧
    ∀ {σ : Type} (x : Publisher σ) (r s : Registry),
      x.registry.register p = .ok r → x.registry.register q = .ok s →
      ∀ (id : Uuid) (platforms : List String) (o : SyncOptions) (cancels : Outcome → Bool)
        (w : World σ),
        (x.withRegistry r).sync id a platforms o cancels w =
          (x.withRegistry s).sync id a platforms o cancels w := by
  have halike : p.Alike q := alike_of_bind hp hq hagree
  refine ⟨halike.run k a, halike.checkSession, ?_, ?_⟩
  · intro σ t w draftOnly
    rw [halike.run]
  · intro σ x r s hr hs id platforms o cancels w
    exact Publisher.sync_of_alike (Registry.alike_of_register halike hr hs) id platforms cancels w

end Platform

/-! ### An implementation that fails wherever it is not asked -/

namespace IdleHooks

/-- Ends the content with a mark. -/
def mark (content : String) (_ : Context) : Program (Except HookError String) :=
  pure (.ok (content ++ " (signed)"))

/-- The implementation that marks the content and provides no other hook. -/
def marking : Hooks :=
  { Hooks.passive with
    provides := fun hook => hook == .contentTransform
    contentTransform := mark
    silent_contentTransform := fun _ _ => trivial }

/-- The implementation that marks the content, provides every hook, and is cut off by a fault in
every other one. -/
def faulty : Hooks where
  provides _ := true
  contentTransform := mark
  prepareBody _ _ _ := .fault none
  beforeRequest _ _ := .fault none
  processImages _ _ := .fault none
  uploadImageByUrl _ _ := .fault none
  silent_contentTransform _ _ := trivial
  silent_prepareBody _ _ _ := trivial
  silent_beforeRequest _ _ := trivial
  silent_processImages _ _ := trivial
  silent_uploadImageByUrl _ _ := trivial

/-- An endpoint with a body. -/
def endpoint (name : String) (method : Method) (body : Option Json) : Endpoint where
  name
  url := "https://alpha.test/" ++ name
  method
  headers := []
  encoding := .json
  body
  acceptStatus := []
  response := ⟨none, none, []⟩

/-- A definition that asks for the hook that changes the content. -/
def definition : Definition where
  id := "alpha"
  displayName := "Alpha"
  icon := none
  homepage := ⟨true, "", none, .domain "alpha.test", none, [""], none, none⟩
  capabilities := [.article]
  contentFormat := .markdown
  auth := endpoint "auth" .get none
  endpoints :=
    [("publish", endpoint "publish" .post (some (.string "\x7b\x7barticle.content\x7d\x7d")))]
  draftUrl := none
  postUrl := none
  requestDelayMs := none
  hooks := [.contentTransform]

/-- The definition with an implementation that provides its hook. -/
def platform (hooks : Hooks) (h : hooks.provides .contentTransform = true) : Platform :=
  ⟨definition, hooks, List.forall_mem_singleton.2 h⟩

def article : Article :=
  { Article.empty with title := "Hello", markdown := some "Body" }

/-- The faults are not met: both implementations publish the article. -/
theorem undeclared_without_effect_faulty :
    Platform.bind definition marking = .ok (platform marking rfl) ∧
    Platform.bind definition faulty = .ok (platform faulty rfl) ∧
    marking.beforeRequest ≠ faulty.beforeRequest ∧
    (∀ hook ∈ definition.hooks, marking.Agree faulty hook) ∧
    (platform marking rfl).run .basic article false =
      (platform faulty rfl).run .basic article false ∧
    (run .scripted (.start []) ((platform faulty rfl).run .basic article false)).1 =
      some (.ok ⟨none, none, false⟩) := by
  have hdiffer : marking.beforeRequest ≠ faulty.beforeRequest := by
    intro he
    have hcalled : (pure (.ok []) : Program (Except HookError (KeyMap String))) = .fault none :=
      congrFun (congrFun he "") (.ofArticle article)
    cases hcalled
  have hagree : ∀ hook ∈ definition.hooks, marking.Agree faulty hook :=
    List.forall_mem_singleton.2 fun _ _ => rfl
  have hresult : (advance .scripted ((platform faulty rfl).run .basic article false) none
      (.start [])).1.value? = some (.ok ⟨none, none, false⟩) := by
    decide +kernel
  refine ⟨rfl, rfl, hdiffer, hagree, ?_, ?_⟩
  · exact (Platform.undeclared_without_effect rfl rfl hagree .basic article).1 false
  · rw [run, runAll_singleton hresult rfl]
    rfl

end IdleHooks

end Syndication
