/-!
# The states of a run

A run begins idle, checks the session, transforms the content, saves a draft,
and publishes it or leaves it at that. It can fail in any state.
-/

namespace Syndication

/-- A state of a run. -/
inductive WorkflowState where
  /-- Nothing has been done. -/
  | idle
  /-- The session is being checked. -/
  | checkingAuth
  /-- The content is being brought into the format of the platform. -/
  | transforming
  /-- A draft is being saved. -/
  | creatingDraft
  /-- The draft is being changed. -/
  | updatingDraft
  /-- The post is being made public. -/
  | publishing
  /-- The draft is left as it is. -/
  | draftOnly
  /-- The run has ended well. -/
  | done
  /-- The run has failed. -/
  | failed
deriving DecidableEq, Repr

/-- The name in events. -/
def WorkflowState.name : WorkflowState → String
  | .idle => "Idle"
  | .checkingAuth => "CheckingAuth"
  | .transforming => "Transforming"
  | .creatingDraft => "CreatingDraft"
  | .updatingDraft => "UpdatingDraft"
  | .publishing => "Publishing"
  | .draftOnly => "DraftOnly"
  | .done => "Done"
  | .failed => "Failed"

end Syndication
