import Syndication.Text.Utf8

/-!
# Percent encoding

A character that a part of a URL may not hold is written as its bytes, each a
percent sign and two hexadecimal digits. Which characters those are depends on
the part; control characters and everything beyond ASCII are always among them.

Main statement:

* `toNat_le_of_mem_percentEncode`: what is written is ASCII.
-/

namespace Syndication.Url

/-- A percent sign and the two hexadecimal digits of a byte. -/
def percentByte (b : UInt8) : List Char :=
  ['%', (Nat.digitChar (b.toNat / 16)).toUpper, (Nat.digitChar (b.toNat % 16)).toUpper]

/-- The bytes of a character, each percent encoded. -/
def percentChar (c : Char) : List Char :=
  (String.singleton c).toUTF8.toList.flatMap percentByte

/-- Control characters and all characters beyond ASCII. -/
def isControlOrBeyond (c : Char) : Bool :=
  c.toNat < 0x20 || 0x7E < c.toNat

/-- The characters that a fragment may not hold. -/
def inFragmentSet (c : Char) : Bool :=
  isControlOrBeyond c || [' ', '"', '<', '>', '\x60'].contains c

/-- The characters that the query of a web address may not hold. -/
def inQuerySet (c : Char) : Bool :=
  isControlOrBeyond c || [' ', '"', '#', '<', '>', '\''].contains c

/-- The characters that a path may not hold. -/
def inPathSet (c : Char) : Bool :=
  inFragmentSet c || ['#', '?', '{', '}'].contains c

/-- The characters that a user name or password may not hold. -/
def inUserInfoSet (c : Char) : Bool :=
  inPathSet c || ['/', ':', ';', '=', '@', '[', '\\', ']', '^', '|'].contains c

/-- A text with the characters of a set percent encoded. -/
def percentEncode (mustEncode : Char → Bool) (cs : List Char) : List Char :=
  cs.flatMap fun c => if mustEncode c then percentChar c else [c]

/-- The digits of a byte are ASCII characters. -/
theorem toNat_le_of_mem_percentByte {b : UInt8} {c : Char} (h : c ∈ percentByte b) :
    c.toNat ≤ 0x7E := by
  have hd : ∀ n, n < 16 → (Nat.digitChar n).toUpper.toNat ≤ 0x7E := by decide
  have hb : b.toNat < 256 := b.toNat_lt
  simp only [percentByte, List.mem_cons, List.not_mem_nil, or_false] at h
  rcases h with rfl | rfl | rfl
  · decide
  · exact hd _ (by omega)
  · exact hd _ (by omega)

/-- A percent-encoded text is ASCII when the set holds everything beyond it. -/
theorem toNat_le_of_mem_percentEncode {mustEncode : Char → Bool} {cs : List Char} {c : Char}
    (hset : ∀ c, isControlOrBeyond c = true → mustEncode c = true)
    (h : c ∈ percentEncode mustEncode cs) : c.toNat ≤ 0x7E := by
  simp only [percentEncode, List.mem_flatMap] at h
  obtain ⟨d, -, hd⟩ := h
  split at hd
  · simp only [percentChar, List.mem_flatMap] at hd
    obtain ⟨b, -, hb⟩ := hd
    exact toNat_le_of_mem_percentByte hb
  · rename_i hn
    rw [List.mem_singleton.1 hd]
    by_cases hc : isControlOrBeyond d = true
    · exact absurd (hset d hc) hn
    · simp only [isControlOrBeyond, Bool.or_eq_true, decide_eq_true_eq] at hc
      omega

/-- The value of a hexadecimal digit. -/
def hexDigit? (c : Char) : Option Nat :=
  if c.isDigit then some (c.toNat - '0'.toNat)
  else if 'a' ≤ c ∧ c ≤ 'f' then some (c.toNat - 'a'.toNat + 10)
  else if 'A' ≤ c ∧ c ≤ 'F' then some (c.toNat - 'A'.toNat + 10)
  else none

/-- The bytes that a percent-encoded text stands for. A percent sign without two
hexadecimal digits stands for itself. -/
def percentDecode : List Char → List UInt8
  | '%' :: a :: b :: rest =>
    match hexDigit? a, hexDigit? b with
    | some x, some y => UInt8.ofNat (x * 16 + y) :: percentDecode rest
    | _, _ => '%'.toUInt8 :: percentDecode (a :: b :: rest)
  | c :: rest => (String.singleton c).toUTF8.toList ++ percentDecode rest
  | [] => []

end Syndication.Url
