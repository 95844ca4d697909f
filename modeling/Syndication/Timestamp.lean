import Syndication.Decimal.Reading
import Syndication.Duration

/-!
# Moments of the calendar

A moment is a date and a time of day at an offset from universal time. It is
written with all its parts, the offset kept, and a fraction of a second only as
long as needed.

Main statements:

* `Timestamp.parse?`, `Timestamp.text`: reading and writing a moment.
* `Timestamp.ofUnix`: the moment at a number of nanoseconds after the beginning
  of 1970.
-/

namespace Syndication

/-! ### Dates -/

/-- Whether a year has a leap day. -/
def isLeapYear (year : Nat) : Bool :=
  year % 4 == 0 && (year % 100 != 0 || year % 400 == 0)

/-- The lengths of the months of a year. -/
def monthLengths (year : Nat) : List Nat :=
  [31, if isLeapYear year then 29 else 28, 31, 30, 31, 30, 31, 31, 30, 31, 30, 31]

/-- The length of a month, counted from one. -/
def daysInMonth (year month : Nat) : Nat :=
  if month = 0 then 0 else (monthLengths year).getD (month - 1) 0

/-- The days from the beginning of year zero to that of a year. -/
def daysBeforeYear (year : Nat) : Nat :=
  365 * year + (year + 3) / 4 - (year + 99) / 100 + (year + 399) / 400

/-- The days from the beginning of year zero to a date. -/
def dayNumber (year month day : Nat) : Nat :=
  daysBeforeYear year + ((monthLengths year).take (month - 1)).foldl (· + ·) 0 + (day - 1)

/-- The month and the day at a number of days after the beginning of the first of
some months, of which the first has number `month`. -/
def monthAndDay : Nat → List Nat → Nat → Nat × Nat
  | month, [], days => (month, days + 1)
  | month, length :: rest, days =>
    if days < length then (month, days + 1) else monthAndDay (month + 1) rest (days - length)

/-- The date at a number of days after the beginning of year zero. -/
def dateOfDay (days : Nat) : Nat × Nat × Nat :=
  -- a cycle of 400 years has 146097 days; the guess is at most one year off
  let guess := days * 400 / 146097
  let year :=
    if daysBeforeYear (guess + 1) ≤ days then guess + 1
    else if days < daysBeforeYear guess then guess - 1
    else guess
  (year, monthAndDay 1 (monthLengths year) (days - daysBeforeYear year))

/-! ### Moments -/

/-- A moment. -/
structure Timestamp where
  year : Nat
  month : Nat
  /-- The day of the month, from one. -/
  day : Nat
  hour : Nat
  minute : Nat
  second : Nat
  nanosecond : Nat
  /-- The minutes by which clocks are ahead of universal time. -/
  offset : Int
deriving DecidableEq, Repr

namespace Timestamp

/-- The digits of a number with at least some places. -/
def padded (places value : Nat) : List Char :=
  let digits := Nat.toDigits 10 value
  List.replicate (places - digits.length) '0' ++ digits

/-- The text of an offset. -/
def offsetText (offset : Int) : List Char :=
  if offset = 0 then ['Z']
  else
    let minutes := offset.natAbs
    (if offset < 0 then '-' else '+') :: padded 2 (minutes / 60) ++ ':' :: padded 2 (minutes % 60)

/-- The text of a moment. -/
def text (t : Timestamp) : String :=
  let fraction := if t.nanosecond = 0 then [] else '.' :: Duration.fractionDigits t.nanosecond 9
  String.ofList (padded 4 t.year ++ '-' :: padded 2 t.month ++ '-' :: padded 2 t.day ++
    'T' :: padded 2 t.hour ++ ':' :: padded 2 t.minute ++ ':' :: padded 2 t.second ++ fraction ++
    offsetText t.offset)

/-- The minutes of universal time since the beginning of year zero. -/
def utcMinute (t : Timestamp) : Int :=
  ((dayNumber t.year t.month t.day * 1440 + t.hour * 60 + t.minute : Nat) : Int) - t.offset

/-- The nanoseconds by which a moment is later than another one. -/
def nanosecondsSince (t earlier : Timestamp) : Nat :=
  let nanoseconds (t : Timestamp) : Int :=
    (t.utcMinute * 60 + t.second) * 1000000000 + t.nanosecond
  (nanoseconds t - nanoseconds earlier).toNat

/-- Whether a leap second may follow the minute: it is the last of a month. -/
def endsMonth (t : Timestamp) : Bool :=
  let next := t.utcMinute + 1
  0 ≤ next && next % 1440 == 0 && (dateOfDay (next / 1440).toNat).2.2 == 1

/-- Reads a number with exactly some places, and gives the rest. -/
def digits? (places : Nat) (cs : List Char) : Option (Nat × List Char) :=
  let (found, rest) := (cs.take places, cs.drop places)
  if found.length = places ∧ found.all Char.isDigit then some (Decimal.natOfDigits found, rest)
  else none

/-- Reads a separator. -/
def skip? (c : Char) : List Char → Option (List Char)
  | first :: rest => if first = c then some rest else none
  | [] => none

/-- Reads what stands between the date and the time: one character. -/
def skipDateEnd? : List Char → Option (List Char)
  | first :: rest => if first.toNat < 128 then some rest else none
  | [] => none

/-- Reads a fraction of a second, if there is one: its nanoseconds. Further places
are left out. -/
def fraction? : List Char → Option (Nat × List Char)
  | '.' :: rest =>
    let (found, rest) := rest.span Char.isDigit
    if found.isEmpty then none
    else
      let kept := found.take 9
      some (Decimal.natOfDigits kept * Nat.pow 10 (9 - kept.length), rest)
  | cs => some (0, cs)

/-- Reads an offset up to the end. -/
def offset? : List Char → Option Int
  | [c] => if c = 'Z' ∨ c = 'z' then some 0 else none
  | sign :: cs => do
    let (hours, cs) ← digits? 2 cs
    let (minutes, cs) ← digits? 2 (← skip? ':' cs)
    if cs.isEmpty ∧ hours ≤ 23 ∧ minutes ≤ 59 then
      let offset : Int := (hours * 60 + minutes : Nat)
      if sign = '+' then some offset else if sign = '-' then some (-offset) else none
    else none
  | [] => none

/-- Whether the parts are a date and a time of day. -/
def isValid (t : Timestamp) : Bool :=
  1 ≤ t.month && t.month ≤ 12 && 1 ≤ t.day && t.day ≤ daysInMonth t.year t.month &&
    t.hour ≤ 23 && t.minute ≤ 59 && t.second ≤ 59

/-- **Reads a moment.** A leap second is read as the last nanosecond before it. -/
def parse? (s : String) : Option Timestamp := do
  let (year, cs) ← digits? 4 s.toList
  let (month, cs) ← digits? 2 (← skip? '-' cs)
  let (day, cs) ← digits? 2 (← skip? '-' cs)
  let (hour, cs) ← digits? 2 (← skipDateEnd? cs)
  let (minute, cs) ← digits? 2 (← skip? ':' cs)
  let (second, cs) ← digits? 2 (← skip? ':' cs)
  let (nanosecond, cs) ← fraction? cs
  let offset ← offset? cs
  -- the second has no place for a sixtieth
  let isLeap := second == 60
  let t : Timestamp :=
    if isLeap then ⟨year, month, day, hour, minute, 59, 999999999, offset⟩
    else ⟨year, month, day, hour, minute, second, nanosecond, offset⟩
  if t.isValid && (!isLeap || t.endsMonth) then some t else none

/-- The moment at a number of nanoseconds after the beginning of 1970. -/
def ofUnix (nanoseconds : Nat) : Timestamp :=
  let seconds := nanoseconds / 1000000000
  let (year, month, day) := dateOfDay (dayNumber 1970 1 1 + seconds / 86400)
  ⟨year, month, day, seconds / 3600 % 24, seconds / 60 % 60, seconds % 60,
    nanoseconds % 1000000000, 0⟩

end Timestamp

end Syndication
