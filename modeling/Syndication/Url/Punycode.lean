/-!
# Punycode

A label of a domain name with characters beyond ASCII is written with ASCII
characters only: first the ASCII characters of the label, then, behind a hyphen,
where the others are to be inserted, as differences in a number system of
variable length.

Main statement:

* `threshold_bounds`: a digit below its threshold is the last one, and there is
  room for one that is not.
-/

namespace Syndication.Url.Punycode

/-- The number of digits. -/
def base : Nat := 36

/-- The least threshold. -/
def leastThreshold : Nat := 1

/-- The greatest threshold. -/
def greatestThreshold : Nat := 26

/-- How the thresholds follow the size of the differences. -/
def adapt (delta points : Nat) (first : Bool) : Nat :=
  let delta := if first then delta / 700 else delta / 2
  shrink 32 0 (delta + delta / points)
where
  /-- Divides until a difference is small; `fuel` bounds the steps. -/
  shrink : Nat → Nat → Nat → Nat
    | 0, k, _ => k
    | fuel + 1, k, delta =>
      if (base - leastThreshold) * greatestThreshold / 2 < delta then
        shrink fuel (k + base) (delta / (base - leastThreshold))
      else k + (base - leastThreshold + 1) * delta / (delta + 38)

/-- The character of a digit. -/
def digitChar (d : Nat) : Char :=
  if d < 26 then Char.ofNat ('a'.toNat + d) else Char.ofNat ('0'.toNat + (d - 26))

/-- The digit of a character. -/
def digit? (c : Char) : Option Nat :=
  if 'a' ≤ c ∧ c ≤ 'z' then some (c.toNat - 'a'.toNat)
  else if 'A' ≤ c ∧ c ≤ 'Z' then some (c.toNat - 'A'.toNat)
  else if c.isDigit then some (c.toNat - '0'.toNat + 26)
  else none

/-- The threshold of the digit at position `k`. -/
def threshold (k bias : Nat) : Nat :=
  if k ≤ bias then leastThreshold
  else if bias + greatestThreshold ≤ k then greatestThreshold
  else k - bias

/-- A threshold lies among the digits: above zero and below the base. -/
theorem threshold_bounds (k bias : Nat) : 1 ≤ threshold k bias ∧ threshold k bias < base := by
  unfold threshold leastThreshold greatestThreshold base
  split
  · omega
  · split <;> omega

/-- The digits of a difference; `fuel` bounds their count. -/
def writeDelta (bias : Nat) : Nat → Nat → Nat → List Char
  | 0, _, _ => []
  | fuel + 1, k, q =>
    let t := threshold k bias
    if q < t then [digitChar q]
    else
      digitChar (t + (q - t) % (base - t)) ::
        writeDelta bias fuel (k + base) ((q - t) / (base - t))

/-- The state of the writer between two code points. -/
structure Writer where
  /-- The difference so far. -/
  delta : Nat
  /-- The bias of the thresholds. -/
  bias : Nat
  /-- How many characters have been written or inserted. -/
  handled : Nat
  /-- What has been written. -/
  output : List Char

/-- Passes the characters of a label for one code point `n`, writing a difference
at each place where it stands. -/
def pass (basic n : Nat) (w : Writer) : List Char → Writer
  | [] => w
  | c :: cs =>
    let w := if c.toNat < n then { w with delta := w.delta + 1 }
      else if c.toNat = n then
        { delta := 0, bias := adapt w.delta (w.handled + 1) (w.handled == basic),
          handled := w.handled + 1, output := w.output ++ writeDelta w.bias 20 base w.delta }
      else w
    pass basic n w cs

/-- Writes the code points beyond ASCII, in increasing order from `n` on. -/
def writeFrom (label : List Char) (basic : Nat) : Nat → Nat → Writer → Writer
  | 0, _, w => w
  | fuel + 1, n, w =>
    let larger := (label.map Char.toNat).filter (n ≤ ·)
    match larger.min? with
    | none => w
    | some m =>
      -- no character has a code point between: every place is passed that often
      let w := { w with delta := w.delta + (m - n) * (w.handled + 1) }
      let w := pass basic m w label
      writeFrom label basic fuel (m + 1) { w with delta := w.delta + 1 }

/-- The Punycode of a label. -/
def encode (label : List Char) : List Char :=
  let ascii := label.filter (·.toNat < 128)
  let start : Writer := ⟨0, 72, ascii.length, if ascii.isEmpty then [] else ascii ++ ['-']⟩
  (writeFrom label ascii.length label.length 128 start).output

/-- Reads one difference: its value, and the rest of the text. -/
def readDelta (bias : Nat) : Nat → Nat → Nat → List Char → Option (Nat × List Char)
  | _, _, _, [] => none
  | k, weight, i, c :: cs => do
    let d ← digit? c
    let i := i + d * weight
    let t := threshold k bias
    -- a difference has 32 bits
    if 0x100000000 ≤ i then none
    else if d < t then some (i, cs)
    else readDelta bias (k + base) (weight * (base - t)) i cs

/-- Inserts the code points that the differences stand for; `fuel` bounds their
count. -/
def insertAll : Nat → Nat → Nat → Nat → List Char → List Char → Option (List Char)
  | _, _, _, _, output, [] => some output
  | 0, _, _, _, _, _ => none
  | fuel + 1, n, i, bias, output, cs => do
    let (j, rest) ← readDelta bias base 1 i cs
    let size := output.length + 1
    -- a difference counts the places of all code points passed
    let n := n + j / size
    let place := j % size
    -- there is no such character
    if 0x110000 ≤ n ∨ (0xD800 ≤ n ∧ n < 0xE000) then none
    else
      insertAll fuel n (place + 1) (adapt (j - i) size (i == 0))
        (output.take place ++ Char.ofNat n :: output.drop place) rest

/-- The label that a Punycode text stands for. -/
def decode? (text : List Char) : Option (List Char) :=
  let reversed := text.reverse
  let tail := (reversed.takeWhile (· != '-')).reverse
  let head := ((reversed.dropWhile (· != '-')).drop 1).reverse
  insertAll (text.length + 1) 128 0 72 head tail

end Syndication.Url.Punycode
