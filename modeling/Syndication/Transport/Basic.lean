import Syndication.Program

/-!
# Transports

A transport answers requests. It may keep a state, it may take its time, and it
may be cut off by a fault.
-/

namespace Syndication

/-- What a transport does with a request. -/
structure Delivery where
  /-- The time until the reply. -/
  delay : Duration
  reply : Reply

/-- A transport with a state. -/
structure Transport (σ : Type) where
  /-- What is done with a request, and the state after it. -/
  deliver : σ → Request → Delivery × σ

/-- A transport whose replies depend on the request alone. -/
def Transport.stateless (reply : Request → Delivery) : Transport Unit where
  deliver _ r := (reply r, ())

end Syndication
