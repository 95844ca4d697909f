/-!
# UTF-8

Reading bytes as text. The strict reading gives nothing when some byte does not
belong to a well-formed sequence; the lossy reading puts the replacement
character U+FFFD in the place of every maximal ill-formed part: the longest
beginning of a well-formed sequence that the bytes break off, or one byte where
no sequence begins.

Also here: how many bytes a text takes, the longest beginning of a text that
fits a number of bytes, and what stands behind it; and where a text may be cut
when only its bytes are looked at.

Main statements:

* `decode?_eq_lossy`: where the strict reading succeeds, the lossy one agrees.
* `byteLength_takeBytes_le`, `takeBytes_isPrefix`: the cut text fits and is a
  beginning of the text.
* `takeBytes_append`, `dropBytes_append`: a text is cut exactly where one of its
  characters ends.
* `boundaryFrom_le`: a cut is looked for backwards.
-/

namespace Syndication.Text

/-- What the first byte of a sequence asks for: how many continuation bytes
follow, the bounds of the first of them, and the bits that the first byte
gives to the code point. -/
structure Lead where
  /-- Continuation bytes to come. -/
  count : Nat
  /-- Least value of the first continuation byte. -/
  low : Nat
  /-- Greatest value of the first continuation byte. -/
  high : Nat
  /-- The bits of the code point that the first byte carries. -/
  bits : Nat

/-- What a byte asks for as the first of a sequence; nothing when no sequence
begins with it. -/
def lead? (b : Nat) : Option Lead :=
  if b < 0x80 then some ⟨0, 0, 0, b⟩
  else if b < 0xC2 then none
  else if b < 0xE0 then some ⟨1, 0x80, 0xBF, b - 0xC0⟩
  else if b = 0xE0 then some ⟨2, 0xA0, 0xBF, 0⟩
  else if b = 0xED then some ⟨2, 0x80, 0x9F, 0xD⟩
  else if b < 0xF0 then some ⟨2, 0x80, 0xBF, b - 0xE0⟩
  else if b = 0xF0 then some ⟨3, 0x90, 0xBF, 0⟩
  else if b < 0xF4 then some ⟨3, 0x80, 0xBF, b - 0xF0⟩
  else if b = 0xF4 then some ⟨3, 0x80, 0x8F, 4⟩
  else none

/-- The reading of bytes, one entry for each character and one `none` for each
maximal ill-formed part. Within a sequence, `pending` is what is still asked
for; a byte that does not continue it ends the ill-formed part and begins anew. -/
def decodeUnits : Option Lead → List UInt8 → List (Option Char)
  | none, [] => []
  | some _, [] => [none]
  | none, b :: bs =>
    match lead? b.toNat with
    | none => none :: decodeUnits none bs
    | some ⟨0, _, _, bits⟩ => some (Char.ofNat bits) :: decodeUnits none bs
    | some pending => decodeUnits (some pending) bs
  | some pending, b :: bs =>
    if pending.low ≤ b.toNat ∧ b.toNat ≤ pending.high then
      let bits := pending.bits * 64 + (b.toNat - 0x80)
      if pending.count ≤ 1 then some (Char.ofNat bits) :: decodeUnits none bs
      else decodeUnits (some ⟨pending.count - 1, 0x80, 0xBF, bits⟩) bs
    else
      none ::
        match lead? b.toNat with
        | none => none :: decodeUnits none bs
        | some ⟨0, _, _, bits⟩ => some (Char.ofNat bits) :: decodeUnits none bs
        | some fresh => decodeUnits (some fresh) bs

/-- The character that stands for an ill-formed part. -/
def replacementCharacter : Char := '\uFFFD'

/-- The lossy reading of bytes. -/
def decodeLossy (bytes : List UInt8) : List Char :=
  (decodeUnits none bytes).map fun unit => unit.getD replacementCharacter

/-- The strict reading of bytes. -/
def decode? (bytes : List UInt8) : Option (List Char) :=
  (decodeUnits none bytes).mapM id

/-- Where the strict reading succeeds, the lossy one agrees. -/
theorem decode?_eq_lossy {bytes : List UInt8} {cs : List Char} (h : decode? bytes = some cs) :
    decodeLossy bytes = cs := by
  unfold decodeLossy
  unfold decode? at h
  generalize decodeUnits none bytes = units at h
  induction units generalizing cs with
  | nil => simpa using h
  | cons unit units ih =>
    cases unit with
    | none => simp at h
    | some c =>
      simp only [List.mapM_cons, id_eq, Option.pure_def, Option.bind_eq_bind, Option.bind_some,
        Option.bind_eq_some_iff, Option.some.injEq] at h
      obtain ⟨rest, hrest, rfl⟩ := h
      simp [ih hrest]

/-- The bytes that a text takes. -/
def byteLength : List Char → Nat
  | [] => 0
  | c :: cs => c.utf8Size + byteLength cs

/-- The longest beginning of a text that takes at most `room` bytes. -/
def takeBytes : Nat → List Char → List Char
  | _, [] => []
  | room, c :: cs =>
    if c.utf8Size ≤ room then c :: takeBytes (room - c.utf8Size) cs else []

/-- What stands behind the longest beginning of a text that takes at most `room`
bytes. -/
def dropBytes : Nat → List Char → List Char
  | _, [] => []
  | room, c :: cs => if c.utf8Size ≤ room then dropBytes (room - c.utf8Size) cs else c :: cs

theorem byteLength_append (cs rest : List Char) :
    byteLength (cs ++ rest) = byteLength cs + byteLength rest := by
  induction cs with
  | nil => simp [byteLength]
  | cons c cs ih => rw [List.cons_append, byteLength, ih, byteLength, Nat.add_assoc]

/-- The cut text fits. -/
theorem byteLength_takeBytes_le (room : Nat) (cs : List Char) :
    byteLength (takeBytes room cs) ≤ room := by
  induction cs generalizing room with
  | nil => simp [takeBytes, byteLength]
  | cons c cs ih =>
    by_cases h : c.utf8Size ≤ room
    · have := ih (room - c.utf8Size)
      simp only [takeBytes, if_pos h, byteLength]
      omega
    · simp [takeBytes, h, byteLength]

/-- The cut text is a beginning of the text. -/
theorem takeBytes_isPrefix (room : Nat) (cs : List Char) : takeBytes room cs <+: cs := by
  induction cs generalizing room with
  | nil => simp [takeBytes]
  | cons c cs ih =>
    by_cases h : c.utf8Size ≤ room
    · simp only [takeBytes, if_pos h]
      exact List.cons_prefix_cons.2 ⟨rfl, ih _⟩
    · simp [takeBytes, h]

/-- With the bytes of its beginning a text is cut behind that beginning. -/
theorem takeBytes_append (cs rest : List Char) : takeBytes (byteLength cs) (cs ++ rest) = cs := by
  induction cs with
  | nil =>
    cases rest with
    | nil => rfl
    | cons c rest => simp [takeBytes, byteLength, Nat.ne_of_gt c.utf8Size_pos]
  | cons c cs ih => simp [takeBytes, byteLength, ih]

theorem dropBytes_append (cs rest : List Char) : dropBytes (byteLength cs) (cs ++ rest) = rest := by
  induction cs with
  | nil =>
    cases rest with
    | nil => rfl
    | cons c rest => simp [dropBytes, byteLength, Nat.ne_of_gt c.utf8Size_pos]
  | cons c cs ih => simp [dropBytes, byteLength, ih]

/-! ### Cutting by the bytes -/

/-- The bytes of a text. -/
def utf8Bytes (cs : List Char) : List UInt8 :=
  cs.flatMap String.utf8EncodeChar

@[simp] theorem utf8Bytes_nil : utf8Bytes [] = [] := rfl

@[simp] theorem utf8Bytes_cons (c : Char) (cs : List Char) :
    utf8Bytes (c :: cs) = String.utf8EncodeChar c ++ utf8Bytes cs := rfl

@[simp] theorem length_utf8Bytes (cs : List Char) : (utf8Bytes cs).length = byteLength cs := by
  induction cs with
  | nil => rfl
  | cons c cs ih => rw [utf8Bytes_cons, List.length_append, String.length_utf8EncodeChar, ih,
      byteLength]

/-- Whether a byte goes on with a character that has begun before it. -/
def isContinuation (b : UInt8) : Bool :=
  0x80 ≤ b.toNat && b.toNat < 0xC0

/-- Whether a text may be cut at an index of its bytes: at its ends, and where a
character begins. -/
def isBoundary (bytes : List UInt8) (index : Nat) : Bool :=
  index == 0 ||
    match bytes[index]? with
    | some b => !isContinuation b
    | none => index == bytes.length

/-- The nearest index at which a text may be cut, looked for from the given one
backwards. -/
def boundaryFrom (bytes : List UInt8) : Nat → Nat
  | 0 => 0
  | index + 1 => if isBoundary bytes (index + 1) then index + 1 else boundaryFrom bytes index

/-- A cut is looked for backwards. -/
theorem boundaryFrom_le (bytes : List UInt8) (index : Nat) : boundaryFrom bytes index ≤ index := by
  induction index with
  | zero => exact Nat.le_refl 0
  | succ index ih =>
    rw [boundaryFrom]
    split
    · exact Nat.le_refl _
    · exact Nat.le_succ_of_le ih

end Syndication.Text
