import Mathlib.Tactic.SplitIfs
import Syndication.Text.Utf8

/-!
# Cutting a text by its bytes

A text whose bytes are too many is cut at the last index that is allowed, or at one before it: an
index at which a character begins is looked for backwards. The bytes tell where that is, since only
the first byte of a character does not look like one that goes on with a character. A character has
at most four bytes, so three steps back are enough, and the first index is one that is looked for,
so no step leads before it.

* `isBoundary_iff`: the bytes tell where a beginning of the text ends.
* `Search`: the search, step by step, and `search_boundaryFrom` that it is what is done.
* `boundaryFrom_eq`: it finds the end of the longest beginning of the text that fits.
-/

namespace Syndication.Text

variable {cs front back : List Char} {bytes : List UInt8} {room index cut steps : Nat}

/-! ### Where a text may be cut -/

/-- Only the first byte of a character does not go on with one. -/
theorem exists_lead (c : Char) : ∃ lead more, String.utf8EncodeChar c = lead :: more ∧
    isContinuation lead = false ∧ ∀ b ∈ more, isContinuation b = true := by
  unfold String.utf8EncodeChar
  have hgreatest := c.val.toNat_lt
  generalize c.val.toNat = v at *
  dsimp only
  split_ifs <;> refine ⟨_, _, rfl, ?_, ?_⟩ <;>
    simp only [isContinuation, List.forall_mem_cons, List.not_mem_nil, false_implies, implies_true,
      and_true, UInt8.toNat_ofNat', Bool.and_eq_true, Bool.and_eq_false_iff, decide_eq_true_eq,
      decide_eq_false_iff_not] <;>
    omega

theorem utf8Bytes_append (front back : List Char) :
    utf8Bytes (front ++ back) = utf8Bytes front ++ utf8Bytes back :=
  List.flatMap_append

/-- Within a character a text may not be cut. -/
theorem isBoundary_within {c : Char} (hpos : 0 < index) (h : index < c.utf8Size) (cs : List Char) :
    isBoundary (utf8Bytes (c :: cs)) index = false := by
  obtain ⟨lead, more, hencode, -, hmore⟩ := exists_lead c
  have hsize : more.length + 1 = c.utf8Size := by
    rw [← String.length_utf8EncodeChar, hencode, List.length_cons]
  obtain ⟨n, rfl⟩ := Nat.exists_eq_add_of_le' hpos
  have hn : n < more.length := by omega
  have hget : (utf8Bytes (c :: cs))[n + 1]? = some more[n] := by
    rw [utf8Bytes_cons, hencode, List.cons_append, List.getElem?_cons_succ,
      List.getElem?_append_left hn, List.getElem?_eq_getElem hn]
  rw [isBoundary, hget]
  show (false || !isContinuation more[n]) = false
  rw [hmore _ (List.getElem_mem hn)]
  rfl

theorem getElem?_behind (c : Char) (cs : List Char) (later : Nat) :
    (utf8Bytes (c :: cs))[c.utf8Size + later]? = (utf8Bytes cs)[later]? := by
  rw [utf8Bytes_cons, ← String.length_utf8EncodeChar,
    List.getElem?_append_right (Nat.le_add_right _ _), Nat.add_sub_cancel_left]

/-- Behind its first character a text may be cut. -/
theorem isBoundary_utf8Size (c : Char) (cs : List Char) :
    isBoundary (utf8Bytes (c :: cs)) c.utf8Size = true := by
  rw [isBoundary, ← Nat.add_zero c.utf8Size, getElem?_behind]
  cases cs with
  | nil => simp
  | cons d cs =>
    obtain ⟨lead, more, hencode, hlead, -⟩ := exists_lead d
    have hget : (utf8Bytes (d :: cs))[0]? = some lead := by
      rw [utf8Bytes_cons, hencode]
      rfl
    rw [hget]
    show (_ || !isContinuation lead) = true
    rw [hlead, Bool.not_false, Bool.or_true]

/-- Behind a character a text may be cut where the rest of it may be cut. -/
theorem isBoundary_behind (c : Char) (cs : List Char) (later : Nat) :
    isBoundary (utf8Bytes (c :: cs)) (c.utf8Size + later) = isBoundary (utf8Bytes cs) later := by
  cases later with
  | zero => exact isBoundary_utf8Size c cs
  | succ later =>
    have hlength : (c.utf8Size + (later + 1) == (utf8Bytes (c :: cs)).length) =
        (later + 1 == (utf8Bytes cs).length) := by
      rw [length_utf8Bytes, length_utf8Bytes, byteLength, Bool.eq_iff_iff, beq_iff_eq, beq_iff_eq,
        Nat.add_left_cancel_iff]
    have hpos : (c.utf8Size + (later + 1) == 0) = false := rfl
    rw [isBoundary, isBoundary, getElem?_behind, hlength, hpos]
    rfl

/-- **The bytes tell where a beginning of the text ends.** -/
theorem isBoundary_iff : isBoundary (utf8Bytes cs) index = true ↔
    ∃ front, front <+: cs ∧ byteLength front = index := by
  induction cs generalizing index with
  | nil =>
    have hempty : isBoundary (utf8Bytes []) index = true ↔ index = 0 := by simp [isBoundary]
    rw [hempty]
    constructor
    · rintro rfl
      exact ⟨[], List.prefix_rfl, rfl⟩
    · rintro ⟨front, hfront, rfl⟩
      rw [List.prefix_nil.1 hfront]
      rfl
  | cons c cs ih =>
    -- a beginning of the text is empty or has the first character
    have hbeginnings : (∃ front, front <+: c :: cs ∧ byteLength front = index) ↔
        index = 0 ∨ ∃ front, front <+: cs ∧ c.utf8Size + byteLength front = index := by
      constructor
      · rintro ⟨_ | ⟨d, front⟩, hfront, rfl⟩
        · exact .inl rfl
        · obtain ⟨rfl, htail⟩ := List.cons_prefix_cons.1 hfront
          exact .inr ⟨front, htail, rfl⟩
      · rintro (rfl | ⟨front, hfront, rfl⟩)
        · exact ⟨[], List.nil_prefix, rfl⟩
        · exact ⟨c :: front, List.cons_prefix_cons.2 ⟨rfl, hfront⟩, rfl⟩
    rw [hbeginnings]
    rcases Nat.eq_zero_or_pos index with rfl | hpos
    · exact ⟨fun _ => .inl rfl, fun _ => rfl⟩
    by_cases hwithin : index < c.utf8Size
    · rw [isBoundary_within hpos hwithin]
      refine ⟨nofun, ?_⟩
      rintro (rfl | ⟨front, -, rfl⟩)
      · cases hpos
      · omega
    · obtain ⟨later, rfl⟩ := Nat.exists_eq_add_of_le (Nat.le_of_not_lt hwithin)
      rw [isBoundary_behind, ih]
      constructor
      · rintro ⟨front, hfront, rfl⟩
        exact .inr ⟨front, hfront, rfl⟩
      · rintro (hzero | ⟨front, hfront, hlength⟩)
        · omega
        · exact ⟨front, hfront, Nat.add_left_cancel hlength⟩

/-! ### The longest beginning that fits -/

/-- What fits is a beginning of the longest beginning that fits. -/
theorem isPrefix_takeBytes (h : front <+: cs) (hfits : byteLength front ≤ room) :
    front <+: takeBytes room cs := by
  induction cs generalizing front room with
  | nil => exact h
  | cons c cs ih =>
    cases front with
    | nil => exact List.nil_prefix
    | cons d front =>
      obtain ⟨rfl, htail⟩ := List.cons_prefix_cons.1 h
      rw [byteLength] at hfits
      rw [takeBytes, if_pos (by omega)]
      exact List.cons_prefix_cons.2 ⟨rfl, ih htail (by omega)⟩

/-- A text that fits is left whole. -/
theorem takeBytes_of_byteLength_le (h : byteLength cs ≤ room) : takeBytes room cs = cs :=
  (takeBytes_isPrefix room cs).eq_of_length_le
    (List.IsPrefix.length_le (isPrefix_takeBytes List.prefix_rfl h))

theorem byteLength_le_of_isPrefix (h : front <+: cs) : byteLength front ≤ byteLength cs := by
  obtain ⟨back, rfl⟩ := h
  rw [byteLength_append]
  exact Nat.le_add_right _ _

/-- Of a text that does not fit, three bytes at most are left out that would have. -/
theorem le_byteLength_takeBytes (h : room < byteLength cs) :
    room ≤ byteLength (takeBytes room cs) + 3 := by
  induction cs generalizing room with
  | nil => cases h
  | cons c cs ih =>
    rw [byteLength] at h
    rw [takeBytes]
    split
    · rename_i hfits
      have hrest : room - c.utf8Size ≤ byteLength (takeBytes (room - c.utf8Size) cs) + 3 :=
        ih (by omega)
      rw [byteLength]
      omega
    · have hsize := c.utf8Size_le_four
      rw [byteLength]
      omega

/-! ### The search -/

/-- **The search for a cut**, from one index to another in so many steps back. A step is only made
from an index that has one before it. -/
inductive Search (bytes : List UInt8) : Nat → Nat → Nat → Prop
  /-- The text may be cut here. -/
  | found {index : Nat} (h : isBoundary bytes index = true) : Search bytes index 0 index
  | back {index steps cut : Nat} (h : isBoundary bytes (index + 1) = false)
      (rest : Search bytes index steps cut) : Search bytes (index + 1) (steps + 1) cut

/-- The search comes to an end. -/
theorem search_boundaryFrom (bytes : List UInt8) (index : Nat) :
    ∃ steps, Search bytes index steps (boundaryFrom bytes index) := by
  induction index with
  | zero => exact ⟨0, .found rfl⟩
  | succ index ih =>
    rw [boundaryFrom]
    cases h : isBoundary bytes (index + 1) with
    | true => exact ⟨0, .found h⟩
    | false =>
      obtain ⟨steps, hsearch⟩ := ih
      exact ⟨steps + 1, .back h hsearch⟩

theorem Search.add_steps (h : Search bytes index steps cut) : cut + steps = index := by
  induction h with
  | found h => rfl
  | back h rest ih => omega

/-- The search ends where the text may be cut. -/
theorem Search.isBoundary (h : Search bytes index steps cut) : isBoundary bytes cut = true := by
  induction h with
  | found h => exact h
  | back h rest ih => exact ih

/-- The search passes no index at which the text may be cut. -/
theorem Search.le_cut (h : Search bytes index steps cut) {n : Nat} (hn : n ≤ index)
    (hboundary : Text.isBoundary bytes n = true) : n ≤ cut := by
  induction h with
  | found h => exact hn
  | @back index steps cut h rest ih =>
    refine ih (Nat.le_of_lt_succ (Nat.lt_of_le_of_ne hn ?_))
    rintro rfl
    rw [h] at hboundary
    cases hboundary

/-- **The search finds the end of the longest beginning that fits.** -/
theorem boundaryFrom_eq (cs : List Char) (room : Nat) :
    boundaryFrom (utf8Bytes cs) room = byteLength (takeBytes room cs) := by
  obtain ⟨steps, hsearch⟩ := search_boundaryFrom (utf8Bytes cs) room
  apply Nat.le_antisymm
  · obtain ⟨front, hfront, hlength⟩ := isBoundary_iff.1 hsearch.isBoundary
    have hfits : byteLength front ≤ room := hlength ▸ boundaryFrom_le _ room
    rw [← hlength]
    exact byteLength_le_of_isPrefix (isPrefix_takeBytes hfront hfits)
  · exact hsearch.le_cut (byteLength_takeBytes_le room cs)
      (isBoundary_iff.2 ⟨_, takeBytes_isPrefix room cs, rfl⟩)

/-- The bytes of a beginning of the text are the first of its bytes. -/
theorem utf8Bytes_of_isPrefix (h : front <+: cs) :
    utf8Bytes front = (utf8Bytes cs).take (byteLength front) := by
  obtain ⟨back, rfl⟩ := h
  rw [utf8Bytes_append, ← length_utf8Bytes, List.take_left]

end Syndication.Text
