import Syndication.Article.Basic
import Syndication.Expression.Path
import Syndication.Http.Basic
import Syndication.Json.Printer

/-!
# The context of a run

What the templates of one run are rendered against: a JSON object that begins
with the article and grows by what the steps extract, and the files that are
bound to names while they are sent.

Main statements:

* `find?_data_set_self`: a field that was set is found.
* `blobFor?_setBlob_self`, `blobFor?_removeBlob_self`: a bound file is found
  under its name until it is removed.
-/

namespace Syndication

/-- What the templates of a run are rendered against. -/
structure Context where
  /-- The fields, by name. -/
  data : KeyMap Json
  /-- The files that are bound to names. -/
  blobs : KeyMap Blob
deriving DecidableEq, Repr

namespace Context

/-- The context that holds an article and nothing else. -/
def ofArticle (article : Article) : Context :=
  ⟨[("article", article.toJson)], []⟩

/-- The whole context as a JSON object. -/
def toJson (c : Context) : Json :=
  .object c.data

/-- The value at a path; a text that is no path addresses nothing. -/
def get? (c : Context) (path : String) : Option Json :=
  (FieldPath.parse? path).bind fun p => p.resolve c.toJson

/-- The text at a path: a nonempty text, or a number written out. -/
def getString? (c : Context) (path : String) : Option String :=
  match c.get? path with
  | some (.string s) => if s.isEmpty then none else some s
  | some (.number n) => some n.text
  | _ => none

/-- The context with a field set. -/
def set (c : Context) (key : String) (value : Json) : Context :=
  { c with data := c.data.insert key value }

/-- The context with a field of the article set; nothing changes where the
article is no object. -/
def setArticleField (c : Context) (key : String) (value : Json) : Context :=
  match c.data.find? "article" with
  | some (.object article) => c.set "article" (.object (KeyMap.insert key value article))
  | _ => c

/-- The context with the outputs of a step. -/
def merge (c : Context) (outputs : KeyMap Json) : Context :=
  outputs.foldl (fun c (key, value) => c.set key value) c

/-- The context with a file bound to a name. -/
def setBlob (c : Context) (name : String) (blob : Blob) : Context :=
  { c with blobs := c.blobs.insert name blob }

/-- The context without the file that is bound to a name. -/
def removeBlob (c : Context) (name : String) : Context :=
  { c with blobs := c.blobs.erase name }

/-- The file bound to a path that is a single name. -/
def blobFor? (c : Context) (path : FieldPath) : Option Blob :=
  match path.segments with
  | [name] => c.blobs.find? name
  | _ => none

@[simp] theorem blobs_set (c : Context) (key : String) (value : Json) :
    (c.set key value).blobs = c.blobs := rfl

@[simp] theorem blobs_merge (c : Context) (outputs : KeyMap Json) :
    (c.merge outputs).blobs = c.blobs := by
  unfold merge
  induction outputs generalizing c with
  | nil => rfl
  | cons e rest ih => simp [ih]

@[simp] theorem blobs_setArticleField (c : Context) (key : String) (value : Json) :
    (c.setArticleField key value).blobs = c.blobs := by
  unfold setArticleField
  split <;> rfl

@[simp] theorem data_setBlob (c : Context) (name : String) (blob : Blob) :
    (c.setBlob name blob).data = c.data := rfl

@[simp] theorem data_removeBlob (c : Context) (name : String) : (c.removeBlob name).data = c.data :=
  rfl

/-- A field that was set is found. -/
@[simp] theorem find?_data_set_self (c : Context) (key : String) (value : Json) :
    (c.set key value).data.find? key = some value :=
  KeyMap.find?_insert_self key value c.data

/-- A bound file is found under its name. -/
@[simp] theorem blobFor?_setBlob_self (c : Context) (name : String) (blob : Blob) :
    (c.setBlob name blob).blobFor? ⟨[name]⟩ = some blob :=
  KeyMap.find?_insert_self name blob c.blobs

/-- A removed file is not found. -/
@[simp] theorem blobFor?_removeBlob_self (c : Context) (name : String) :
    (c.removeBlob name).blobFor? ⟨[name]⟩ = none :=
  KeyMap.find?_erase_self name c.blobs

end Context

end Syndication
