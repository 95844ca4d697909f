import Syndication.Definition.Vocabulary
import Syndication.Expression.Error
import Syndication.Text.Quoted
import Syndication.Url.Basic

/-!
# Why a definition is refused
-/

namespace Syndication

/-- What is wrong with a field of a definition document. -/
inductive FieldProblem where
  /-- The field is missing or blank. -/
  | required
  /-- The id has other characters than small letters, digits, hyphens and
  underscores. -/
  | idShape
  /-- The text is no URL. -/
  | malformedUrl (cause : Url.Error)
  /-- The URL is no web address. -/
  | notWebUrl (raw : String)
  /-- The capability is not known. -/
  | unknownCapability (raw : String)
  /-- The content format is not known. -/
  | unknownFormat (name : String)
  /-- The hook is not known. -/
  | unknownHook (raw : String)
  /-- The method is not known. -/
  | unknownMethod (name : String)
  /-- The encoding is not known. -/
  | unknownEncoding (name : String)
  /-- The body has fields but its template is no object. -/
  | bodyNotObject
  /-- The number is no status. -/
  | invalidStatus (status : Nat)
deriving DecidableEq, Repr

/-- The wording of the problem, behind the name of the field. -/
def FieldProblem.message : FieldProblem → String
  | .required => "is required"
  | .idShape => "must match [a-z0-9_-]+"
  | .malformedUrl cause => s!"is not a valid URL: {cause.message}"
  | .notWebUrl raw => s!"must be an http(s) URL (got '{raw}')"
  | .unknownCapability raw => s!"unknown capability '{raw}'"
  | .unknownFormat name => s!"must be html or markdown (got '{name}')"
  | .unknownHook raw => s!"unknown hook '{raw}'"
  | .unknownMethod name => s!"must be one of GET, POST, PUT, PATCH, DELETE (got '{name}')"
  | .unknownEncoding name => s!"must be one of json, form, multipart (got '{name}')"
  | .bodyNotObject => "must be an object for form and multipart encodings"
  | .invalidStatus status => s!"contains invalid status code {status}"

/-- Why a definition is refused. -/
inductive DefinitionError where
  /-- A field has a value that it may not have. -/
  | invalid (id field : String) (problem : FieldProblem)
  /-- A field holds a text that is no expression. -/
  | expression (id field : String) (cause : ExpressionError)
  /-- The file cannot be read as a document. -/
  | parse (file : String)
  /-- The directory is not there. -/
  | missingDirectory (directory : String)
  /-- The file cannot be read as text. -/
  | unreadableFile
  /-- Another file has defined the same platform. -/
  | duplicateId (id : String) (first second : String)
  /-- No implementation provides a hook that is asked for. -/
  | missingHook (id : String) (hook : Hook)
deriving DecidableEq, Repr

/-- The wording of the error. What a document library says about a file that it
cannot read is left out. -/
def DefinitionError.message : DefinitionError → String
  | .invalid id field problem =>
    s!"Invalid definition '{id}': field `{field}` {problem.message}"
  | .expression id field cause =>
    s!"Invalid expression in '{id}' at `{field}`: {cause.message}"
  | .parse file => s!"Parse error in {file}: <text>"
  | .missingDirectory directory => s!"IO error: Definitions directory not found: {directory}"
  | .unreadableFile => "IO error: stream did not contain valid UTF-8"
  | .duplicateId id first second =>
    s!"Duplicate platform id '{id}' in files: [{Text.quoted first}, {Text.quoted second}]"
  | .missingHook id hook =>
    s!"Definition '{id}' declares hook `{hook.name}` but no implementation provides it"

end Syndication
