/-!
# The vocabulary of definitions

What a platform may be able to do, the formats its editor takes, the encodings of
a request body, and the hooks that a definition may ask for, each with the name
that it has in documents.

Main statements:

* `Capability.ofName?_name`, `BodyEncoding.ofName?_name`, `Hook.ofName?_name`: a name is read as
  what it names.
-/

namespace Syndication

/-- Something a platform is able to do. -/
inductive Capability where
  /-- Articles can be posted. -/
  | article
  /-- Drafts can be saved. -/
  | draft
  /-- Images can be uploaded. -/
  | imageUpload
  /-- Posts have categories. -/
  | categories
  /-- Posts have tags. -/
  | tags
  /-- Posts have a cover image. -/
  | cover
  /-- Posts can be scheduled. -/
  | schedule
deriving DecidableEq, Repr

namespace Capability

/-- All capabilities, in order. -/
def all : List Capability :=
  [.article, .draft, .imageUpload, .categories, .tags, .cover, .schedule]

/-- The name in documents. -/
def name : Capability → String
  | .article => "article"
  | .draft => "draft"
  | .imageUpload => "image_upload"
  | .categories => "categories"
  | .tags => "tags"
  | .cover => "cover"
  | .schedule => "schedule"

/-- The capability with a name. -/
def ofName? (name : String) : Option Capability :=
  all.find? (·.name == name)

/-- A name is read as what it names. -/
@[simp] theorem ofName?_name (c : Capability) : ofName? c.name = some c := by
  cases c <;> decide

theorem mem_all (c : Capability) : c ∈ all := by
  cases c <;> decide

end Capability

/-- The format that the editor of a platform takes. -/
inductive ContentFormat where
  | html
  | markdown
deriving DecidableEq, Repr

/-- The name in documents. -/
def ContentFormat.name : ContentFormat → String
  | .html => "html"
  | .markdown => "markdown"

/-- The encoding of a request body. -/
inductive BodyEncoding where
  /-- A JSON document. -/
  | json
  /-- Form fields. -/
  | form
  /-- Parts, of which some may be files. -/
  | multipart
deriving DecidableEq, Repr

namespace BodyEncoding

/-- The name in documents. -/
def name : BodyEncoding → String
  | .json => "json"
  | .form => "form"
  | .multipart => "multipart"

/-- The encoding with a name. -/
def ofName? (name : String) : Option BodyEncoding :=
  [json, form, multipart].find? (·.name == name)

/-- A name is read as what it names. -/
@[simp] theorem ofName?_name (e : BodyEncoding) : ofName? e.name = some e := by
  cases e <;> decide

end BodyEncoding

/-- A step of the workflow that a platform's own code can take over. -/
inductive Hook where
  /-- Changing the content before it is converted. -/
  | contentTransform
  /-- Changing an encoded body. -/
  | prepareBody
  /-- Headers for one request. -/
  | beforeRequest
  /-- Replacing the images of the content. -/
  | processImages
  | uploadImageByUrl
deriving DecidableEq, Repr

namespace Hook

/-- All hooks, in order. -/
def all : List Hook :=
  [.contentTransform, .prepareBody, .beforeRequest, .processImages, .uploadImageByUrl]

/-- The name in documents. -/
def name : Hook → String
  | .contentTransform => "content_transform"
  | .prepareBody => "prepare_body"
  | .beforeRequest => "before_request"
  | .processImages => "process_images"
  | .uploadImageByUrl => "upload_image_by_url"

/-- The name that is shown. -/
def shownName : Hook → String
  | .contentTransform => "ContentTransform"
  | .prepareBody => "PrepareBody"
  | .beforeRequest => "BeforeRequest"
  | .processImages => "ProcessImages"
  | .uploadImageByUrl => "UploadImageByUrl"

/-- The hook with a name. -/
def ofName? (name : String) : Option Hook :=
  all.find? (·.name == name)

/-- A name is read as what it names. -/
@[simp] theorem ofName?_name (h : Hook) : ofName? h.name = some h := by
  cases h <;> decide

theorem mem_all (h : Hook) : h ∈ all := by
  cases h <;> decide

end Hook

end Syndication
