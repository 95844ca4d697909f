/-!
# Outcomes

What has become of an article on one platform: a post, a draft, or a failure.
-/

namespace Syndication

/-- What has become of an article on a platform. -/
structure Outcome where
  /-- The id of the platform. -/
  platform : String
  /-- Whether it went well. -/
  success : Bool
  /-- The id of the post or draft. -/
  postId : Option String
  /-- Its address. -/
  postUrl : Option String
  /-- Whether it is a draft. -/
  draftOnly : Bool
  /-- Why it did not go well. -/
  error : Option String
deriving DecidableEq, Repr

/-- The outcome of a run that has failed. -/
def Outcome.failed (platform error : String) : Outcome :=
  ⟨platform, false, none, none, false, some error⟩

end Syndication
