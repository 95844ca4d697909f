/-!
# Spans of time

A span of time is a whole number of nanoseconds.

Main statements:

* `toMillis_ofMillis`: milliseconds are kept exactly.
* `shorter_getD_times?`: a product that is cut off is the exact product, cut off.
-/

namespace Syndication

/-- A span of time, in nanoseconds. -/
structure Duration where
  /-- The number of nanoseconds. -/
  nanoseconds : Nat
deriving DecidableEq, Repr

namespace Duration

/-- No time. -/
def zero : Duration := ⟨0⟩

/-- A number of milliseconds. -/
def ofMillis (ms : Nat) : Duration :=
  ⟨ms * 1000000⟩

/-- A number of seconds. -/
def ofSeconds (s : Nat) : Duration :=
  ⟨s * 1000000000⟩

/-- The whole milliseconds of a span. -/
def toMillis (d : Duration) : Nat :=
  d.nanoseconds / 1000000

/-- Milliseconds are kept exactly. -/
@[simp] theorem toMillis_ofMillis (ms : Nat) : (ofMillis ms).toMillis = ms := by
  simp [ofMillis, toMillis]

/-- One span after another. -/
def plus (a b : Duration) : Duration :=
  ⟨a.nanoseconds + b.nanoseconds⟩

/-- Whether no time passes. -/
def isZero (d : Duration) : Bool :=
  d.nanoseconds == 0

/-- The longer of two spans. -/
def longer (a b : Duration) : Duration :=
  ⟨max a.nanoseconds b.nanoseconds⟩

/-- The shorter of two spans. -/
def shorter (a b : Duration) : Duration :=
  ⟨min a.nanoseconds b.nanoseconds⟩

/-- The longest span: its seconds are a number of 64 bits. -/
def longest : Duration := ⟨Nat.pow 2 64 * 1000000000 - 1⟩

/-- A span a number of times, unless that is longer than the longest. -/
def times? (d : Duration) (count : Nat) : Option Duration :=
  if d.nanoseconds * count ≤ longest.nanoseconds then some ⟨d.nanoseconds * count⟩ else none

/-- Where a product that is too long stands for a bound, nothing is lost by it: what comes out
is the exact product, up to the bound. -/
theorem shorter_getD_times? (d : Duration) (count : Nat) {bound : Duration}
    (h : bound.nanoseconds ≤ longest.nanoseconds) :
    ((d.times? count).getD bound).shorter bound =
      ⟨min (d.nanoseconds * count) bound.nanoseconds⟩ := by
  unfold times?
  split
  · rfl
  · rename_i hlong
    have hbound : bound.nanoseconds ≤ d.nanoseconds * count := by omega
    simp [shorter, hbound]

/-- Whether a span is no longer than another. -/
def atMost (a b : Duration) : Bool :=
  a.nanoseconds ≤ b.nanoseconds

/-- The digits of a fraction with `count` places, without the zeros at the
end. -/
def fractionDigits (value count : Nat) : List Char :=
  let digits := Nat.toDigits 10 value
  let padded := List.replicate (count - digits.length) '0' ++ digits
  (padded.reverse.dropWhile (· == '0')).reverse

/-- The text of a span, in the largest unit that it fills. -/
def text (d : Duration) : String :=
  let inUnit (unit places : Nat) (name : String) : String :=
    let rest := d.nanoseconds % unit
    String.ofList (Nat.toDigits 10 (d.nanoseconds / unit) ++
      (if rest = 0 then [] else '.' :: fractionDigits rest places)) ++ name
  if 1000000000 ≤ d.nanoseconds then inUnit 1000000000 9 "s"
  else if 1000000 ≤ d.nanoseconds then inUnit 1000000 6 "ms"
  else if 1000 ≤ d.nanoseconds then inUnit 1000 3 "µs"
  else inUnit 1 0 "ns"

end Duration

end Syndication
