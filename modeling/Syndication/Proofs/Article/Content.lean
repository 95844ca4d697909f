import Syndication.Article.File
import Syndication.Files.Tree
import Syndication.Proofs.Workflow.Contents

/-!
# The content of an article in a file

What an article says is in its Markdown or its HTML, and a run begins with one of them that is not
blank. An article is read from a file with whatever content the file writes: the file is asked
only whether it has a source at all, and every file of HTML or Markdown has one. So an article that
was read may have nothing to publish, and then every run of it fails at the content; which files
those are can be told from their texts.

* `WritesContent`: what it is for a file to have content, in each of the formats.
* `hasContent_iff_of_ofText`: an article has content when its file does.
* `load_content`: which files are refused, and what becomes of the others in a run.
* `load_blank`: files without content that are read.
-/

namespace Syndication

theorem Text.isBlankText_ofList_eq_false_iff {cs : List Char} :
    isBlankText (String.ofList cs) = false ↔ ∃ c ∈ cs, isBlank c = false := by
  simp [isBlankText]

namespace Article

variable {a b : Article} {path : String} {text : List Char} {content : List UInt8}

/-- **There is content in an article**: one of its sources is not blank. -/
def HasContent (a : Article) : Prop :=
  ∃ source, Holds a.markdown source ∨ Holds a.html source

theorem not_hasContent_iff : ¬ a.HasContent ↔ IsMissing a.markdown ∧ IsMissing a.html := by
  simp only [HasContent, Holds, IsMissing, not_exists, not_or, not_and, Bool.not_eq_false]
  exact ⟨fun h => ⟨fun s => (h s).1, fun s => (h s).2⟩, fun h s => ⟨h.1 s, h.2 s⟩⟩

/-! ### Articles in documents -/

/-- **A field of a record holds a text that is not blank.** -/
def HoldsText (r : Document.Record) (name : String) : Prop :=
  ∃ part source, r.lookup name = some part ∧
    Document.optional? Document.string? part = some (some source) ∧
    Text.isBlankText source = false

theorem exists_holds_iff_holdsText {r : Document.Record} {name : String} {source : Option String}
    (h : r.withDefault? name none (Document.optional? Document.string?) = some source) :
    (∃ s, Holds source s) ↔ HoldsText r name := by
  unfold Document.Record.withDefault? at h
  unfold HoldsText
  cases hpart : r.lookup name with
  | none =>
    rw [hpart] at h
    cases h
    simp [Holds]
  | some part =>
    rw [hpart] at h
    simp only [Option.some.injEq, exists_eq_left', exists_and_left]
    simp only [h, Holds, Option.some.injEq]

theorem exists_record_of_ofDocument? {d : Document} (h : ofDocument? d = some a) :
    ∃ r, Document.record? layout d = some r ∧
      r.withDefault? "markdown" none (Document.optional? Document.string?) = some a.markdown ∧
      r.withDefault? "html" none (Document.optional? Document.string?) = some a.html := by
  unfold ofDocument? at h
  simp only [Option.bind_eq_bind, Option.bind_eq_some_iff, Option.pure_def, Option.some.injEq] at h
  obtain ⟨r, hr, title, -, markdown, hmarkdown, html, hhtml, -, -, -, -, -, -, -, -, -, -, rfl⟩ := h
  exact ⟨r, hr, hmarkdown, hhtml⟩

/-! ### Articles in files -/

/-- **A file writes content.** A JSON document does so in one of two fields, a page of HTML
anywhere, and Markdown behind its front matter. -/
def WritesContent (path : String) (text : List Char) : Prop :=
  match ArticleFormat.ofPath path with
  | .json => ∃ d r, Json.document? (String.ofList text) = some d ∧
      Document.record? layout d = some r ∧ (HoldsText r "markdown" ∨ HoldsText r "html")
  | .html => ∃ c ∈ text, Text.isBlank c = false
  | .markdown => ∃ c ∈ (FrontMatter.split text).2, Text.isBlank c = false

theorem sources_of_ofMarkdown? (h : ofMarkdown? text = some a) :
    a.markdown = some (String.ofList (Chars.trim (FrontMatter.split text).2)) ∧ a.html = none := by
  unfold ofMarkdown? at h
  simp only [Option.bind_eq_bind, Option.pure_def] at h
  split at h
  · cases h
    exact ⟨rfl, rfl⟩
  · obtain ⟨front, -, hread⟩ := Option.bind_eq_some_iff.1 h
    cases hread
    exact ⟨rfl, rfl⟩

/-- **An article has content when its file writes some.** -/
theorem hasContent_iff_of_ofText (h : ofText path text = .ok a) :
    a.HasContent ↔ WritesContent path text := by
  unfold ofText at h
  unfold WritesContent
  cases hformat : ArticleFormat.ofPath path with
  | json =>
    simp only [hformat] at h
    cases hread : (Json.document? (String.ofList text)).bind ofDocument? with
    | none =>
      rw [hread] at h
      cases h
    | some read =>
      rw [hread] at h
      cases h
      obtain ⟨d, hd, ha⟩ := Option.bind_eq_some_iff.1 hread
      obtain ⟨r, hr, hmarkdown, hhtml⟩ := exists_record_of_ofDocument? ha
      rw [HasContent, exists_or, exists_holds_iff_holdsText hmarkdown,
        exists_holds_iff_holdsText hhtml]
      simp only [hd, hr, Option.some.injEq, exists_and_left, exists_eq_left']
  | html =>
    simp only [hformat] at h
    cases h
    rw [← Text.isBlankText_ofList_eq_false_iff]
    simp [HasContent, Holds, empty]
  | markdown =>
    simp only [hformat] at h
    cases hread : ofMarkdown? text with
    | none =>
      rw [hread] at h
      cases h
    | some read =>
      rw [hread] at h
      cases h
      obtain ⟨hmarkdown, hhtml⟩ := sources_of_ofMarkdown? hread
      have hblank : Text.isBlankText
          (String.ofList (Chars.trim (FrontMatter.split text).2)) = false ↔
          ∃ c ∈ (FrontMatter.split text).2, Text.isBlank c = false := by
        rw [Text.isBlankText_ofList_eq_false_iff]
        constructor
        · rintro ⟨c, hmem, hc⟩
          exact ⟨c, Chars.mem_of_mem_trim hmem, hc⟩
        · rintro ⟨c, hmem, hc⟩
          exact ⟨c, Chars.mem_trim hmem hc, hc⟩
      simp only [HasContent, Holds, hmarkdown, hhtml, ← hblank]
      simp

/-- The name of an article changes nothing in its sources. -/
theorem sources_named (path : String) (a : Article) :
    (named path a).markdown = a.markdown ∧ (named path a).html = a.html := by
  unfold named
  split <;> exact ⟨rfl, rfl⟩

theorem named_hasContent_iff : (named path a).HasContent ↔ a.HasContent := by
  obtain ⟨hmarkdown, hhtml⟩ := sources_named path a
  rw [HasContent, HasContent, hmarkdown, hhtml]

theorem ofFile_of_decode? (h : Text.decode? content = some text) :
    ofFile path content = (ofText path text).bind fun a =>
      if a.markdown.isNone && a.html.isNone then .error (.noContent path)
      else .ok (named path a) := by
  unfold ofFile
  rw [h]
  dsimp only
  cases ofText path text with
  | error e => rfl
  | ok a =>
    obtain ⟨hmarkdown, hhtml⟩ := sources_named path a
    simp only [bind, Except.bind, hmarkdown, hhtml]
    split <;> rfl

/-- Only a JSON document writes an article without any source. -/
theorem exists_json_of_ofText (h : ofText path text = .ok a) (hmarkdown : a.markdown = none)
    (hhtml : a.html = none) : ArticleFormat.ofPath path = .json ∧
      (Json.document? (String.ofList text)).bind ofDocument? = some a := by
  unfold ofText at h
  split at h
  · rename_i hformat
    split at h
    · rename_i hread
      cases h
      exact ⟨hformat, hread⟩
    · cases h
  · cases h
    cases hhtml
  · split at h
    · rename_i hread
      cases h
      rw [(sources_of_ofMarkdown? hread).1] at hmarkdown
      cases hmarkdown
    · cases h

/-- No text is refused for want of content before it has been read. -/
theorem ofText_ne_noContent : ofText path text ≠ .error (.noContent path) := by
  unfold ofText
  split
  · split <;> exact nofun
  · exact nofun
  · split <;> exact nofun

/-- **Which files are refused for want of content**: JSON documents without any source. -/
theorem ofFile_eq_noContent_iff : ofFile path content = .error (.noContent path) ↔
    ∃ text a, Text.decode? content = some text ∧ ArticleFormat.ofPath path = .json ∧
      (Json.document? (String.ofList text)).bind ofDocument? = some a ∧
      a.markdown = none ∧ a.html = none := by
  cases hdecode : Text.decode? content with
  | none => simp [ofFile, hdecode, throw, throwThe, MonadExceptOf.throw]
  | some text =>
    rw [ofFile_of_decode? hdecode]
    constructor
    · intro h
      cases htext : ofText path text with
      | error e =>
        rw [htext] at h
        cases h
        exact absurd htext ofText_ne_noContent
      | ok a =>
        rw [htext] at h
        by_cases hnone : (a.markdown.isNone && a.html.isNone) = true
        · simp only [Bool.and_eq_true, Option.isNone_iff_eq_none] at hnone
          obtain ⟨hformat, hread⟩ := exists_json_of_ofText htext hnone.1 hnone.2
          exact ⟨text, a, rfl, hformat, hread, hnone⟩
        · simp [Except.bind, hnone] at h
    · rintro ⟨_, a, ⟨⟩, hformat, hread, hmarkdown, hhtml⟩
      have htext : ofText path text = .ok a := by
        rw [ofText, hformat]
        simp only [hread]
      simp [htext, hmarkdown, hhtml, Except.bind]

/-- An article that is read from a file is the one that its text writes, under a name. -/
theorem exists_ofText_of_ofFile (h : ofFile path content = .ok a) :
    ∃ text b, Text.decode? content = some text ∧ ofText path text = .ok b ∧ a = named path b := by
  cases hdecode : Text.decode? content with
  | none =>
    rw [ofFile, hdecode] at h
    cases h
  | some text =>
    rw [ofFile_of_decode? hdecode] at h
    cases htext : ofText path text with
    | error e =>
      rw [htext] at h
      cases h
    | ok b =>
      rw [htext] at h
      change (if _ then _ else _) = _ at h
      split at h
      · cases h
      · cases h
        exact ⟨text, b, rfl, htext, rfl⟩

/-! ### Articles that are loaded -/

theorem run_load (tree : FileTree) (path : String) :
    (FileTree.run (load path) tree).1 = match tree.entry path with
      | .file content => ofFile path content
      | _ => .error (.unreadable path) := by
  change (FileTree.run (match tree.entry path with
    | .file content => pure (ofFile path content)
    | _ => pure (.error (.unreadable path))) tree).1 = _
  split <;> rfl

/-- **The second stage of a run ends for want of content** just when the article has none. -/
theorem unsupported_content_iff {p : Platform} {k : ContentProcessor} {c : Context} {b b' : Bool}
    {log : List Entry} {y : Ending (Except WorkflowError Context)}
    (h : (p.transform k a c).run.Course b log b' y) :
    y = .value (.error (.unsupported .content)) ↔ ¬ a.HasContent := by
  rw [not_hasContent_iff]
  obtain ⟨hmissing, -, -, rfl⟩ | ⟨hsome, hfails | ⟨c', cover, content, -, rfl⟩⟩ :=
    Platform.course_transform h
  · exact ⟨fun _ => hmissing, fun _ => rfl⟩
  · -- whatever else the stage fails with is another error
    refine ⟨?_, fun hmissing => absurd hmissing hsome⟩
    rintro rfl
    obtain ⟨_, _, -, hv⟩ | ⟨hv, -⟩ | ⟨_, hv⟩ := hfails <;> cases hv
  · exact ⟨nofun, fun hmissing => absurd hmissing hsome⟩

/-- **What becomes of a file without content.** Loading refuses it only when it is a JSON document
without any source. Whatever article is loaded has content just when its file writes some, and the
second stage of a run of it, however that goes, fails for want of content just when it does not. -/
theorem load_content (tree : FileTree) (path : String) :
    ((FileTree.run (load path) tree).1 = .error (.noContent path) ↔
      ∃ content text a, tree.entry path = .file content ∧ Text.decode? content = some text ∧
        ArticleFormat.ofPath path = .json ∧
        (Json.document? (String.ofList text)).bind ofDocument? = some a ∧
        a.markdown = none ∧ a.html = none) ∧
    ∀ a, (FileTree.run (load path) tree).1 = .ok a →
      ∃ content text, tree.entry path = .file content ∧ Text.decode? content = some text ∧
        (a.HasContent ↔ WritesContent path text) ∧
        ∀ (p : Platform) (k : ContentProcessor) (c : Context) (b b' : Bool) (log : List Entry)
          (y : Ending (Except WorkflowError Context)),
          (p.transform k a c).run.Course b log b' y →
            (y = .value (.error (.unsupported .content)) ↔ ¬ WritesContent path text) := by
  rw [run_load]
  cases hentry : tree.entry path with
  | absent | unreadable | directory => simp
  | file content =>
    refine ⟨?_, fun a h => ?_⟩
    · rw [ofFile_eq_noContent_iff]
      simp
    · obtain ⟨text, b, hdecode, htext, rfl⟩ := exists_ofText_of_ofFile h
      have hiff : (named path b).HasContent ↔ WritesContent path text :=
        named_hasContent_iff.trans (hasContent_iff_of_ofText htext)
      refine ⟨content, text, rfl, hdecode, hiff, fun p k c b b' log y hcourse => ?_⟩
      rw [unsupported_content_iff hcourse, hiff]

/-- A platform has nothing to begin with when it is given an article without content. -/
theorem run_transform_of_not_hasContent (h : ¬ a.HasContent) (p : Platform) (k : ContentProcessor)
    (c : Context) : (p.transform k a c).run = .done (.error (.unsupported .content)) := by
  rw [Platform.transform_eq, Platform.source?_eq_none_iff.2 (not_hasContent_iff.1 h)]
  rfl

/-- **A file without content that is loaded**: a Markdown file with nothing in it. No platform can
do anything with its article. -/
theorem load_blank :
    ∃ a, (FileTree.run (load "post.md") (FileTree.empty.withFile "post.md" [])).1 = .ok a ∧
      ¬ a.HasContent ∧
      ∀ (p : Platform) (k : ContentProcessor) (c : Context),
        (p.transform k a c).run = .done (.error (.unsupported .content)) := by
  have hload : (FileTree.run (load "post.md") (FileTree.empty.withFile "post.md" [])).1 =
      .ok { empty with title := "post", markdown := some "" } := by
    decide +kernel
  have hblank : ¬ ({ empty with title := "post", markdown := some "" } : Article).HasContent := by
    simp only [not_hasContent_iff, IsMissing, empty]
    decide +kernel
  exact ⟨_, hload, hblank, run_transform_of_not_hasContent hblank⟩

end Article

end Syndication
