import Syndication.Endpoint.Request
import Syndication.Proofs.Definition.Validation
import Syndication.Proofs.Template.Filling

/-!
# The bodies of the requests of a definition

A form and a body in parts are made from the members of a template, so a template that is no object
would leave nothing of itself in such a body. A definition with one is refused
(`Endpoint.Follows.body_object`). In the requests of the definitions that are accepted every member
of a template is therefore sent, once and in its place.

Main statement:

* `requestBody_of_validate`: what is sent of the template of a body.
-/

namespace Syndication

open Template (IsBody braced solePlaceholder?_eq_some_iff)

/-! ### The members of a template -/

/-- **A member stands for a file** when it is a text that is, blanks around it apart, a placeholder
for the name that the file is bound to. -/
def StandsForFile (c : Context) (template : Json) (file : Blob) : Prop :=
  ∃ s body name, template = .string s ∧ IsBody body ∧ (Text.trim s).toList = braced body ∧
    FieldPath.parseChars body = .ok ⟨[name]⟩ ∧ c.blobs.find? name = some file

/-- **What is sent for a member in a form**: the text of the value that it is filled in to. -/
def SentAsText (c : Context) (template : Json) (text : String) : Prop :=
  text = renderValue (some (interpolateValue c.toJson template))

/-- **What is sent for a member in a body in parts**: the file that it stands for, and a text where
it stands for none. -/
def SentAsPart (c : Context) (template : Json) (part : Part) : Prop :=
  (∀ file, part = .blob file ↔ StandsForFile c template file) ∧
    ∀ text, part = .text text → SentAsText c template text

/-- **One entry is sent for each member of a template**, in the place of the member and under its
key. Where the members are in the order of their keys so are the entries, and no key comes twice. -/
def SentByMember {α : Type} (Sent : Json → α → Prop) (template : Json)
    (entries : List (String × α)) : Prop :=
  ∃ members, template = .object members ∧ KeyMap.Related (fun _ => Sent) members entries ∧
    (KeyMap.Sorted members → KeyMap.Sorted entries)

/-- **What is sent of a template** in each of the encodings. -/
def SentIn (c : Context) (template : Json) : BodyEncoding → Body → Prop
  | .json, body => body = .json (interpolateValue c.toJson template)
  | .form, body => ∃ fields, body = .form fields ∧ SentByMember (SentAsText c) template fields
  | .multipart, body =>
    ∃ parts, body = .multipart parts ∧ SentByMember (SentAsPart c) template parts

namespace Endpoint

variable {c : Context} {template : Json}

/-- The file of a member is looked up where the member is a placeholder for a path of one segment,
and nowhere else. -/
theorem blobOf?_eq_some_iff {file : Blob} :
    blobOf? c template = some file ↔ StandsForFile c template file := by
  constructor
  · intro h
    unfold blobOf? at h
    split at h
    · next s =>
      obtain ⟨path, hpath, hfile⟩ := Option.bind_eq_some_iff.1 h
      obtain ⟨body, hbody, htrim, hparse⟩ := solePlaceholder?_eq_some_iff.1 hpath
      unfold Context.blobFor? at hfile
      split at hfile
      · next name hsegments =>
        have hname : path = ⟨[name]⟩ := congrArg FieldPath.mk hsegments
        have htext : (Text.trim s).toList = braced body := by rw [Text.toList_trim, htrim]
        rw [hname] at hparse
        exact ⟨s, body, name, rfl, hbody, htext, toOption_eq_some_iff.1 hparse, hfile⟩
      · cases hfile
    · cases h
  · rintro ⟨s, body, name, rfl, hbody, htext, hparse, hfile⟩
    have htrim : Chars.trim s.toList = braced body := by rw [← Text.toList_trim, htext]
    have hsole : solePlaceholder? s.toList = some ⟨[name]⟩ :=
      solePlaceholder?_eq_some_iff.2 ⟨body, hbody, htrim, toOption_eq_some_iff.2 hparse⟩
    show (solePlaceholder? s.toList).bind c.blobFor? = some file
    rw [hsole]
    exact hfile

theorem sentAsPart_partOf (c : Context) (template : Json) :
    SentAsPart c template (partOf c template) := by
  unfold SentAsPart partOf
  simp only [← blobOf?_eq_some_iff]
  cases blobOf? c template with
  | some file => simp
  | none => simp [SentAsText, fieldText]

/-- Entries that are made of the members one by one are sent by member. -/
theorem sentByMember_map {α : Type} {Sent : Json → α → Prop} {make : Json → α}
    (hmake : ∀ v, Sent v (make v)) (members : List (String × Json)) :
    SentByMember Sent (.object members) (members.map fun (key, v) => (key, make v)) := by
  refine ⟨members, rfl, ?_, KeyMap.sorted_mapValues make⟩
  unfold KeyMap.Related
  rw [List.forall₂_map_right_iff]
  exact List.forall₂_same.2 fun member _ => ⟨rfl, hmake member.2⟩

/-- Nothing of an object is lost in any encoding, and nothing of any template in JSON. -/
theorem sentIn_encodeBody {encoding : BodyEncoding}
    (hobject : encoding ≠ .json → ∃ members, template = .object members) (c : Context) :
    SentIn c template encoding (encodeBody encoding template c) := by
  cases encoding with
  | json => exact rfl
  | form =>
    obtain ⟨members, rfl⟩ := hobject nofun
    have htext : ∀ v, SentAsText c v (fieldText c.toJson v) := fun _ => rfl
    exact ⟨_, rfl, sentByMember_map htext members⟩
  | multipart =>
    obtain ⟨members, rfl⟩ := hobject nofun
    exact ⟨_, rfl, sentByMember_map (sentAsPart_partOf c) members⟩

theorem requestBody_eq_empty_iff {e : Endpoint} :
    e.requestBody c = .empty ↔ e.method = .get ∨ e.method = .delete ∨ e.body = none := by
  have hempty : e.requestBody c = .empty ↔ (e.requestBody c).isEmpty = true := by
    cases e.requestBody c <;> simp [Body.isEmpty]
  rw [hempty, isEmpty_requestBody, Method.allowsBody_iff, or_assoc]

theorem requestBody_eq_encodeBody {e : Endpoint} (hbody : e.body = some template)
    (hget : e.method ≠ .get) (hdelete : e.method ≠ .delete) :
    e.requestBody c = encodeBody e.encoding template c := by
  have hallows : e.method.allowsBody = true := by
    rw [← Bool.not_eq_false, Method.allowsBody_iff]
    exact not_or.2 ⟨hget, hdelete⟩
  rw [requestBody, hallows, hbody]

end Endpoint

/-! ### The requests of a definition -/

/-- **The endpoints of a definition**: the one that tells whether a session is logged in, and the
other ones. -/
def Definition.HasEndpoint (d : Definition) (e : Endpoint) : Prop :=
  e = d.auth ∨ ∃ name, (name, e) ∈ d.endpoints

/-- Every endpoint of an accepted definition has been checked. -/
theorem Definition.HasEndpoint.exists_follows {s : DefinitionSpec} {d : Definition}
    (hvalid : Definition.validate s = .ok d) {e : Endpoint} (he : d.HasEndpoint e) :
    ∃ name spec, Endpoint.Follows name spec e := by
  obtain ⟨-, hfollows⟩ := (Definition.checks_validate s).of_ok d hvalid
  rcases he with rfl | ⟨name, hmem⟩
  · obtain ⟨auth, -, hauth⟩ := hfollows.auth_follows
    exact ⟨_, _, hauth⟩
  · obtain ⟨spec, -, hendpoint⟩ := hfollows.endpoints_follow.exists_of_mem hmem
    exact ⟨_, _, hendpoint⟩

/-- **The bodies of accepted definitions lose nothing.** The requests of an endpoint have no body
just when its method allows none or there is no template for it. Otherwise they send the template:
filled in as a whole in JSON; member by member in the other encodings, in the order of the members,
which are files where a member stands for a file and texts where it does not. -/
theorem requestBody_of_validate {s : DefinitionSpec} {d : Definition}
    (hvalid : Definition.validate s = .ok d) {e : Endpoint} (he : d.HasEndpoint e) (c : Context) :
    ((e.request c).body = .empty ↔ e.method = .get ∨ e.method = .delete ∨ e.body = none) ∧
    ∀ template, e.body = some template → e.method ≠ .get → e.method ≠ .delete →
      SentIn c template e.encoding (e.request c).body := by
  refine ⟨Endpoint.requestBody_eq_empty_iff, fun template hbody hget hdelete => ?_⟩
  obtain ⟨name, spec, hfollows⟩ := he.exists_follows hvalid
  -- the encoder would send nothing of a template without members, but the validator lets none pass
  have hobject : e.encoding ≠ .json → ∃ members, template = .object members :=
    fun hother => hfollows.body_object hother template hbody
  show SentIn c template e.encoding (e.requestBody c)
  rw [Endpoint.requestBody_eq_encodeBody hbody hget hdelete]
  exact Endpoint.sentIn_encodeBody hobject c

namespace ImageUpload

/-- The template of a body in parts: a file and its title. -/
def template : Json :=
  .object [("image", .string " \x7b\x7bfile\x7d\x7d "),
    ("title", .string "\x7b\x7barticle.title\x7d\x7d")]

/-- What a document says about an endpoint that takes images. -/
def endpointSpec : EndpointSpec where
  url := "https://alpha.test/images"
  method := some " post "
  headers := []
  contentType := some "multipart"
  body := some template
  acceptStatus := []
  response := .empty

/-- What a document says about a platform with that endpoint. -/
def spec : DefinitionSpec where
  id := "alpha"
  name := "Alpha"
  icon := none
  homepage := "https://alpha.test"
  capabilities := []
  contentFormat := none
  auth := some { endpointSpec with method := none, contentType := none, body := none }
  endpoints := [("upload_image", endpointSpec)]
  draftUrl := none
  postUrl := none
  requestDelayMs := none
  hooks := []

def endpoint : Endpoint where
  name := "upload_image"
  url := "https://alpha.test/images"
  method := .post
  headers := []
  encoding := .multipart
  body := some template
  acceptStatus := []
  response := ⟨none, none, []⟩

def definition : Definition where
  id := "alpha"
  displayName := "Alpha"
  icon := none
  homepage := ⟨true, "", none, .domain "alpha.test", none, [""], none, none⟩
  capabilities := []
  contentFormat := .html
  auth := { endpoint with name := "auth", method := .get, encoding := .json, body := none }
  endpoints := [("upload_image", endpoint)]
  draftUrl := none
  postUrl := none
  requestDelayMs := none
  hooks := []

/-- A file that is bound to the name in the template. -/
def file : Blob :=
  ⟨[1, 2, 3], "image/png", "cover.png"⟩

def context : Context :=
  (Context.ofArticle { Article.empty with title := "Cover" }).setBlob "file" file

/-- The member for the file is sent as the file, and the other one as a text. -/
theorem requestBody_of_validate_upload :
    Definition.validate spec = .ok definition ∧ definition.HasEndpoint endpoint ∧
    ((endpoint.request context).body = .empty ↔
      endpoint.method = .get ∨ endpoint.method = .delete ∨ endpoint.body = none) ∧
    SentIn context template .multipart (endpoint.request context).body ∧
    (endpoint.request context).body =
      .multipart [("image", .blob file), ("title", .text "Cover")] := by
  have hvalid : Definition.validate spec = .ok definition := by decide +kernel
  have hendpoint : definition.HasEndpoint endpoint :=
    .inr ⟨"upload_image", List.mem_singleton_self _⟩
  obtain ⟨hempty, hsent⟩ := requestBody_of_validate hvalid hendpoint context
  exact ⟨hvalid, hendpoint, hempty, hsent template rfl nofun nofun, by decide +kernel⟩

end ImageUpload

end Syndication
