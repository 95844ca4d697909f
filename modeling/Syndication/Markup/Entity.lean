/-!
# Character references

Writing text inside HTML, and reading it back. Writing turns the three characters
that HTML gives a meaning to into references; reading understands those and the
references of the quotation mark, the apostrophe and the no-break space, the last
as a plain space.

Main statements:

* `encode_append`: text is written character by character.
* `lt_not_mem_encode`: written text holds no angle bracket.
* `decode_encode_append`: written text is read back.
-/

namespace Syndication.Markup.Entity

/-- A character as it is written. -/
def encodeChar (c : Char) : List Char :=
  if c = '&' then ['&', 'a', 'm', 'p', ';']
  else if c = '<' then ['&', 'l', 't', ';']
  else if c = '>' then ['&', 'g', 't', ';']
  else [c]

/-- Text as it is written. -/
def encode (cs : List Char) : List Char :=
  cs.flatMap encodeChar

/-- Text as it is read. A reference that is put together by reading is not read
again. -/
def decode : List Char → List Char
  | '&' :: 'l' :: 't' :: ';' :: rest => '<' :: decode rest
  | '&' :: 'g' :: 't' :: ';' :: rest => '>' :: decode rest
  | '&' :: 'q' :: 'u' :: 'o' :: 't' :: ';' :: rest => '"' :: decode rest
  | '&' :: '#' :: '3' :: '9' :: ';' :: rest => '\'' :: decode rest
  | '&' :: 'n' :: 'b' :: 's' :: 'p' :: ';' :: rest => ' ' :: decode rest
  | '&' :: 'a' :: 'm' :: 'p' :: ';' :: rest => '&' :: decode rest
  | c :: rest => c :: decode rest
  | [] => []

@[simp] theorem encode_nil : encode [] = [] := rfl

/-- Text is written character by character. -/
@[simp] theorem encode_append (a b : List Char) : encode (a ++ b) = encode a ++ encode b := by
  simp [encode]

/-- Written text holds no angle bracket. -/
theorem lt_not_mem_encode (cs : List Char) : '<' ∉ encode cs := by
  simp only [encode, List.mem_flatMap, not_exists, not_and]
  intro c _
  unfold encodeChar
  split
  · decide
  · split
    · decide
    · split
      · decide
      · rename_i h _
        simpa using fun he => h he.symm

theorem encodeChar_of_ne {c : Char} (hamp : c ≠ '&') (hlt : c ≠ '<') (hgt : c ≠ '>') :
    encodeChar c = [c] := by
  rw [encodeChar, if_neg hamp, if_neg hlt, if_neg hgt]

/-- A character that begins no reference is read as it stands. -/
theorem decode_cons_of_ne {c : Char} (h : c ≠ '&') (rest : List Char) :
    decode (c :: rest) = c :: decode rest := by
  simp [decode, h]

/-- Written text is read back, whatever follows it. -/
theorem decode_encode_append (cs rest : List Char) :
    decode (encode cs ++ rest) = cs ++ decode rest := by
  induction cs with
  | nil => rfl
  | cons c cs ih =>
    rw [encode, List.flatMap_cons, ← encode, List.append_assoc]
    by_cases hamp : c = '&'
    · subst hamp
      simp [encodeChar, decode, ih]
    by_cases hlt : c = '<'
    · subst hlt
      simp [encodeChar, decode, ih]
    by_cases hgt : c = '>'
    · subst hgt
      simp [encodeChar, decode, ih]
    · rw [encodeChar_of_ne hamp hlt hgt, List.singleton_append, decode_cons_of_ne hamp, ih]
      rfl

end Syndication.Markup.Entity
