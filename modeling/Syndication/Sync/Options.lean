import Syndication.Duration

/-!
# Options of a sync

How many platforms are published to at a time, what happens after a failure, and
how often a failure of transport is tried again.

Main statements:

* `backoff_eq`: how long the wait before another try is.
* `backoff_le`: no wait before another try is longer than the longest.
* `allowedRetries_le`: no more tries are made than the bound allows.
* `batchSize_pos`: a batch has at least one platform.
-/

namespace Syndication

/-- Options of a sync. -/
structure SyncOptions where
  /-- The platforms of a batch. -/
  concurrency : Nat
  /-- Whether further batches begin after a failure. -/
  continueOnError : Bool
  /-- Whether every platform is left with its draft. -/
  draftOnly : Bool
  /-- How often a failure of transport is tried again. -/
  retries : Nat
  /-- The wait before the first further try. -/
  retryBaseDelay : Duration
deriving DecidableEq, Repr

namespace SyncOptions

/-- The options when nothing is said. -/
def standard : SyncOptions := ⟨3, true, false, 2, .ofMillis 500⟩

instance : Inhabited SyncOptions := ⟨standard⟩

/-- The most further tries, whatever the options say. -/
def maxRetries : Nat := 5

/-- The longest wait before a further try. -/
def maxRetryDelay : Duration := .ofSeconds 60

/-- The further tries that are made. -/
def allowedRetries (o : SyncOptions) : Nat :=
  min o.retries maxRetries

theorem allowedRetries_le (o : SyncOptions) : o.allowedRetries ≤ maxRetries :=
  Nat.min_le_right _ _

/-- How many times the first wait is the wait before further try number `attempt`:
twice as many with every try, up to the largest number of 32 bits. -/
def doubling (attempt : Nat) : Nat :=
  min (Nat.pow 2 (attempt - 1)) (Nat.pow 2 32 - 1)

/-- The wait before further try number `attempt`: the first wait doubled with
every try, up to the longest. A product that is too long for a span stands for the
longest wait. -/
def backoff (o : SyncOptions) (attempt : Nat) : Duration :=
  ((o.retryBaseDelay.times? (doubling attempt)).getD maxRetryDelay).shorter maxRetryDelay

/-- The wait is the exact product, up to the longest, as no more tries are made than
can be counted. -/
theorem backoff_eq (o : SyncOptions) {attempt : Nat} (h : attempt ≤ 32) :
    o.backoff attempt =
      ⟨min (o.retryBaseDelay.nanoseconds * Nat.pow 2 (attempt - 1)) maxRetryDelay.nanoseconds⟩ := by
  have hpow : Nat.pow 2 (attempt - 1) ≤ Nat.pow 2 31 :=
    Nat.pow_le_pow_right (by decide) (by omega)
  have hdoubling : doubling attempt = Nat.pow 2 (attempt - 1) :=
    Nat.min_eq_left (Nat.le_trans hpow (by decide))
  rw [backoff, Duration.shorter_getD_times? _ _ (by decide), hdoubling]

theorem backoff_le (o : SyncOptions) (attempt : Nat) :
    (o.backoff attempt).nanoseconds ≤ maxRetryDelay.nanoseconds :=
  Nat.min_le_right _ _

/-- The size of a batch: at least one. -/
def batchSize (o : SyncOptions) : Nat :=
  max o.concurrency 1

theorem batchSize_pos (o : SyncOptions) : 0 < o.batchSize :=
  Nat.lt_of_lt_of_le Nat.zero_lt_one (Nat.le_max_right _ _)

/-- The text of a truth value. -/
def flagText (b : Bool) : String :=
  if b then "true" else "false"

/-- The options as they are shown, with whether the sync has been cancelled and
whether progress is reported. -/
def text (o : SyncOptions) (cancelled progress : Bool) : String :=
  "SyncOptions \x7b concurrency: " ++ s!"{o.concurrency}" ++ ", continue_on_error: " ++
    flagText o.continueOnError ++ ", draft_only: " ++ flagText o.draftOnly ++ ", retries: " ++
    s!"{o.retries}" ++ ", retry_base_delay: " ++ o.retryBaseDelay.text ++ ", cancelled: " ++
    flagText cancelled ++ ", on_progress: " ++ flagText progress ++ " \x7d"

end SyncOptions

end Syndication
