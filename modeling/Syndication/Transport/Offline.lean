import Syndication.Settings.Basic
import Syndication.Transport.Basic

/-!
# Transports without a network

Two transports that send nothing: one answers every request with an empty object,
the other one says that it cannot be delivered.

Main statements:

* `deliver_answering`: the answer to every request is an empty object, at once.
-/

namespace Syndication

namespace Transport

/-- The transport that answers every request with an empty object. -/
def answering : Transport Unit :=
  .stateless fun _ => ⟨.zero, .answer (.ofJson 200 (.object []))⟩

/-- The transport by which nothing can be delivered. -/
def unreachable : Transport Unit :=
  .stateless fun _ => ⟨.zero, .failure (.network "no network")⟩

/-- The answer to every request is an empty object, at once. -/
theorem deliver_answering (r : Request) :
    answering.deliver () r = (⟨.zero, .answer (.ofJson 200 (.object []))⟩, ()) := rfl

end Transport

/-- The transport of a kind. There is no client for the network in this library: what
would go over it is not delivered. -/
def TransportKind.transport : TransportKind → Transport Unit
  | .http => Transport.unreachable
  | .stub => Transport.answering

end Syndication
