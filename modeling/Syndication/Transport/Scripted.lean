import Syndication.Text.Search
import Syndication.Transport.Basic

/-!
# Scripted transports

A transport for offline use answers from a list of routes. A route has a method
or takes any, and takes the addresses that contain a text; it may be used a
limited number of times. The first route that matches answers, and a request that
none matches gets an empty JSON object.

Main statements:

* `deliver_nil`: without routes, every answer is an empty object at once.
-/

namespace Syndication

/-- A route of a scripted transport. -/
structure Route where
  /-- The method that is taken; any if there is none. -/
  method : Option Method
  /-- The text that the address has to contain. -/
  contains : String
  /-- How often the route may still be used; any number if there is none. -/
  times : Option Nat
  /-- The time until the reply. -/
  delay : Duration
  reply : Reply

namespace Route

/-- Whether the route takes a request. -/
def takes (route : Route) (r : Request) : Bool :=
  (route.method.all (· == r.method)) && Text.contains route.contains r.url &&
    route.times != some 0

/-- The route after it has been used once. -/
def used (route : Route) : Route :=
  { route with times := route.times.map (· - 1) }

end Route

namespace Transport

/-- The delivery of the first route that takes a request, and the routes after
it. -/
def route : List Route → Request → Delivery × List Route
  | [], _ => (⟨.zero, .answer (.ofJson 200 (.object []))⟩, [])
  | first :: rest, r =>
    if first.takes r then (⟨first.delay, first.reply⟩, first.used :: rest)
    else
      let (delivery, rest) := route rest r
      (delivery, first :: rest)

/-- The transport that answers from a list of routes. -/
def scripted : Transport (List Route) where
  deliver := route

/-- Without routes, every answer is an empty object at once. -/
theorem deliver_nil (r : Request) :
    scripted.deliver [] r = (⟨.zero, .answer (.ofJson 200 (.object []))⟩, []) := rfl

end Transport

end Syndication
