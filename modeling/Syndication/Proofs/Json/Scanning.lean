import Syndication.Proofs.Json.Texts
import Syndication.Proofs.Json.Values

/-!
# The compact text of a value is scanned again

What is scanned from the compact text of a value is the document of that value, but a number of
double precision is what its text is read as, which may be a neighbour of it.

* `Number.reread`: what the text of a number is read as.
* `exists_numberText`: the text of every number of the bounds has the parts of a number.
* `parse?_text`: a number of the bounds has a text that is read; an integer is read back.
* `document?_compact`: the document of the text of a value.
-/

namespace Syndication.Json

open Document (ofJson ofItems)

variable {depth fuel : Nat} {rest : List Char}

/-! ### Numbers -/

/-- **What the text of a number is read as.** -/
def Number.reread (n : Number) : Number :=
  match parse? n.text with
  | some (.number m) => m
  | _ => n

/-- The value with what the texts of its numbers are read as. -/
abbrev reread (v : Json) : Json :=
  v.mapNumbers Number.reread

/-- The parts of an integer. -/
def integerText (i : Int) : NumberText :=
  ⟨i < 0, Nat.toDigits 10 i.natAbs, none, none⟩

theorem chars_integerText (i : Int) : (integerText i).chars = intChars i := by
  unfold integerText NumberText.chars NumberText.unsignedChars intChars
  simp

theorem wellFormed_integerText (i : Int) : (integerText i).WellFormed where
  whole := digits_toDigits i.natAbs
  zero hhead := by
    by_cases hzero : i.natAbs = 0
    · show (Nat.toDigits 10 i.natAbs).length = 1
      rw [hzero]
      rfl
    · exact absurd hhead (head?_toDigits hzero)
  fraction := nofun

/-- An integer of 64 bits is read back. -/
theorem number?_integerText {i : Int} (hleast : Decimal.leastInt64 ≤ i)
    (hgreatest : i ≤ Decimal.greatestNat64) : (integerText i).number? = some (.integer i) := by
  have hvalue : Decimal.natOfDigits (Nat.toDigits 10 i.natAbs) = i.natAbs :=
    Decimal.natOfDigits_toDigits _
  have hinteger : (integerText i).integer? = some i := by
    unfold NumberText.integer? integerText
    dsimp only
    rw [hvalue]
    by_cases hneg : i < 0
    · have habs : -((i.natAbs : Nat) : Int) = i := by omega
      have hpos : 0 < i.natAbs := by omega
      generalize i.natAbs = n at habs hpos
      simp [hneg, habs, hpos, hleast]
    · have habs : ((i.natAbs : Nat) : Int) = i := by omega
      have hfits : i.natAbs ≤ Decimal.greatestNat64 := by omega
      generalize i.natAbs = n at habs hfits
      simp [hneg, habs, hfits]
  rw [NumberText.number?, hinteger]

/-- **The parts of a number of the bounds**, which are read as a number again. -/
theorem exists_numberText {n : Number} (h : n.InRange) :
    ∃ t : NumberText, t.WellFormed ∧ t.chars = n.chars ∧
      ∃ m, t.number? = some m ∧ ∀ i, n = .integer i → m = n := by
  cases n with
  | integer i =>
    exact ⟨integerText i, wellFormed_integerText i, chars_integerText i, _,
      number?_integerText h.1 h.2, fun _ _ => rfl⟩
  | double x =>
    obtain ⟨t, hwrites, -, hchars⟩ := exists_writes_doubleChars x
    obtain ⟨y, hy⟩ := Option.isSome_iff_exists.1 (NumberText.double?_isSome h hwrites hchars)
    have hinteger : t.integer? = none := by
      rw [NumberText.integer?, if_pos hwrites.noInteger]
    refine ⟨t, hwrites.wellFormed, hchars, .double y, ?_, nofun⟩
    rw [NumberText.number?, hinteger, hy]
    rfl

/-- **A character with which a number begins.** -/
def BeginsNumber (c : Char) : Prop :=
  c = '-' ∨ c.isDigit = true

theorem BeginsNumber.ne {c d : Char} (h : BeginsNumber c) (hd : d.isDigit = false) (hd' : d ≠ '-') :
    c ≠ d := by
  rintro rfl
  rcases h with rfl | h
  · exact hd' rfl
  · rw [hd] at h
    cases h

theorem BeginsNumber.isSpace {c : Char} (h : BeginsNumber c) : isSpace c = false := by
  unfold Json.isSpace
  rw [beq_eq_false_iff_ne.2 (h.ne rfl (by decide)), beq_eq_false_iff_ne.2 (h.ne rfl (by decide)),
    beq_eq_false_iff_ne.2 (h.ne rfl (by decide)), beq_eq_false_iff_ne.2 (h.ne rfl (by decide))]
  rfl

theorem exists_beginsNumber {t : NumberText} (h : t.WellFormed) :
    ∃ c cs, t.chars = c :: cs ∧ BeginsNumber c := by
  unfold NumberText.chars
  split
  · exact ⟨'-', _, rfl, .inl rfl⟩
  · obtain ⟨c, whole, hwhole⟩ := List.exists_cons_of_ne_nil h.whole.ne_nil
    refine ⟨c, _, by rw [NumberText.unsignedChars, hwhole, List.cons_append], .inr ?_⟩
    exact h.whole.digit c (by rw [hwhole]; exact List.mem_cons_self)

theorem skipSpace_cons {c : Char} (h : isSpace c = false) (cs : List Char) :
    skipSpace (c :: cs) = c :: cs :=
  List.dropWhile_cons_of_neg (by simp [h])

theorem scanValue_chars {t : NumberText} (h : t.WellFormed) (hrest : EndsNumber rest) :
    scanValue (fuel + 1) depth (t.chars ++ rest) = some (numberDocument t, rest) := by
  have hscan := scanNumber_chars h hrest
  obtain ⟨c, cs, hchars, hc⟩ := exists_beginsNumber h
  rw [hchars, List.cons_append] at hscan ⊢
  rw [scanValue, skipSpace_cons hc.isSpace]
  have hne {d : Char} {cs' : List Char} (heq : c :: (cs ++ rest) = d :: cs')
      (hd : d.isDigit = false) (hd' : d ≠ '-') : False :=
    hc.ne hd hd' (List.cons.inj heq).1
  -- none of the other kinds of values begins in this way
  split
  · rename_i heq
    exact (hne heq rfl (by decide)).elim
  · rename_i heq
    exact (hne heq rfl (by decide)).elim
  · rename_i heq
    exact (hne heq rfl (by decide)).elim
  · rename_i heq
    exact (hne heq rfl (by decide)).elim
  · rename_i heq
    exact (hne heq rfl (by decide)).elim
  · rename_i heq
    exact (hne heq rfl (by decide)).elim
  · rw [hscan]
    rfl

theorem parse?_text_of_chars {n m : Number} {t : NumberText} (h : t.WellFormed)
    (hchars : t.chars = n.chars) (hm : t.number? = some m) : parse? n.text = some (.number m) := by
  have hscan : scanValue (2 * n.chars.length + 1 + 1) 0 (t.chars ++ []) = some (.number m, []) := by
    rw [scanValue_chars h endsNumber_nil, numberDocument, hm]
  rw [List.append_nil, hchars] at hscan
  rw [parse?, document?, Number.text, String.toList_ofList, scan?, hscan]
  rfl

theorem reread_eq {n m : Number} (h : parse? n.text = some (.number m)) : n.reread = m := by
  rw [Number.reread, h]

/-- **A number of the bounds has a text that is read.** -/
theorem parse?_text {n : Number} (h : n.InRange) : parse? n.text = some (.number n.reread) := by
  obtain ⟨t, hwell, hchars, m, hm, -⟩ := exists_numberText h
  have hparse := parse?_text_of_chars hwell hchars hm
  rw [hparse, reread_eq hparse]

/-- An integer of 64 bits is read back. -/
theorem reread_integer {i : Int} (h : (Number.integer i).InRange) :
    (Number.integer i).reread = .integer i := by
  obtain ⟨t, hwell, hchars, m, hm, hinteger⟩ := exists_numberText h
  rw [reread_eq (parse?_text_of_chars hwell hchars hm), hinteger i rfl]

/-- A natural number of 64 bits is read back. -/
theorem reread_ofNat {n : Nat} (h : n ≤ Decimal.greatestNat64) : (ofNat n).reread = ofNat n :=
  congrArg Json.number (reread_integer (inRange_ofNat h))

theorem scanValue_number {n : Number} (h : n.InRange) (hrest : EndsNumber rest) :
    scanValue (fuel + 1) depth (n.chars ++ rest) = some (.number n.reread, rest) := by
  obtain ⟨t, hwell, hchars, m, hm, -⟩ := exists_numberText h
  rw [reread_eq (parse?_text_of_chars hwell hchars hm), ← hchars, scanValue_chars hwell hrest,
    numberDocument, hm]

/-! ### Values -/

/-- The first character of a value is neither a blank nor a closing bracket. -/
theorem exists_cons_compactChars {v : Json} (h : v.Readable depth) :
    ∃ c cs, v.compactChars = c :: cs ∧ isSpace c = false ∧ c ≠ ']' ∧ c ≠ '}' := by
  cases h with
  | null => exact ⟨'n', _, rfl, rfl, by decide, by decide⟩
  | bool b =>
    cases b with
    | true => exact ⟨'t', _, rfl, rfl, by decide, by decide⟩
    | false => exact ⟨'f', _, rfl, rfl, by decide, by decide⟩
  | number h =>
    obtain ⟨t, hwell, hchars, -⟩ := exists_numberText h
    obtain ⟨c, cs, hcons, hc⟩ := exists_beginsNumber hwell
    exact ⟨c, cs, hchars.symm.trans hcons, hc.isSpace, hc.ne rfl (by decide),
      hc.ne rfl (by decide)⟩
  | string s => exact ⟨'"', _, rfl, rfl, by decide, by decide⟩
  | array hdepth h => exact ⟨'[', _, rfl, rfl, by decide, by decide⟩
  | object hdepth h => exact ⟨'{', _, rfl, rfl, by decide, by decide⟩

theorem exists_fuel {v : Json} (h : v.Readable depth)
    (hfuel : 2 * v.compactChars.length ≤ fuel) : ∃ less, fuel = less + 1 := by
  obtain ⟨c, cs, hcons, -⟩ := exists_cons_compactChars h
  rw [hcons, List.length_cons] at hfuel
  exact Nat.exists_eq_add_one_of_ne_zero (by omega)

/-- **A value is scanned from its compact text**, with so many steps and whatever follows that does
not go on with a number. -/
def ScansBack (v : Json) : Prop :=
  ∀ {depth fuel : Nat} {rest : List Char}, v.Readable depth → 2 * v.compactChars.length ≤ fuel →
    EndsNumber rest → scanValue fuel depth (v.compactChars ++ rest) =
      some (ofJson (v.mapNumbers Number.reread), rest)

theorem endsNumber_cons {c : Char} (h : c.isDigit = false ∧ c ≠ '.' ∧ c ≠ 'e' ∧ c ≠ 'E')
    (rest : List Char) : EndsNumber (c :: rest) := by
  intro d hd
  obtain rfl : c = d := Option.some.inj hd
  exact h

/-- The items of a list are scanned back up to the closing bracket. -/
theorem scanItems_compactItems {items : List Json} (hne : items ≠ [])
    (hitems : ∀ v ∈ items, ScansBack v ∧ v.Readable depth)
    (hfuel : 2 * (compactItems items).length < fuel) :
    scanItems fuel depth (compactItems items ++ ']' :: rest) =
      some (ofItems (mapItems Number.reread items), rest) := by
  induction items generalizing fuel with
  | nil => exact absurd rfl hne
  | cons v items ih =>
    obtain ⟨⟨hback, hv⟩, hitems⟩ := List.forall_mem_cons.1 hitems
    obtain ⟨fuel, rfl⟩ := Nat.exists_eq_add_one_of_ne_zero (Nat.ne_of_gt (Nat.zero_lt_of_lt hfuel))
    cases items with
    | nil =>
      rw [compactItems] at hfuel
      have hends : EndsNumber (']' :: rest) := endsNumber_cons (by decide) rest
      rw [compactItems, scanItems, hback hv (by omega) hends]
      rfl
    | cons w items =>
      -- a comma, which does not go on with a number, and then the other items
      have hsplit : compactItems (v :: w :: items) =
          v.compactChars ++ ',' :: compactItems (w :: items) := rfl
      rw [hsplit, List.length_append, List.length_cons] at hfuel
      have hends : EndsNumber (',' :: (compactItems (w :: items) ++ ']' :: rest)) :=
        endsNumber_cons (by decide) _
      have hrest : scanItems fuel depth (compactItems (w :: items) ++ ']' :: rest) =
          some (ofItems (mapItems Number.reread (w :: items)), rest) :=
        ih (List.cons_ne_nil _ _) hitems (by omega)
      rw [hsplit, List.append_assoc, List.cons_append, scanItems, hback hv (by omega) hends]
      show (scanItems fuel depth (compactItems (w :: items) ++ ']' :: rest)).bind _ = _
      rw [hrest]
      rfl

theorem quote_append (s : String) (rest : List Char) :
    quote s ++ rest = '"' :: (s.toList.flatMap escapeChar ++ '"' :: rest) := by
  rw [quote]
  simp

/-- A member begins with its key. -/
theorem scanMembers_quote (key : String) (cs : List Char) :
    scanMembers (fuel + 1) depth (quote key ++ ':' :: cs) =
      (scanValue fuel depth cs).bind fun (d, behind) =>
        match skipSpace behind with
        | ',' :: behind => (scanMembers fuel depth behind).bind fun (es, behind) =>
          some ((.text key, d) :: es, behind)
        | '}' :: behind => some ([(.text key, d)], behind)
        | _ => none := by
  obtain ⟨units, hscan, hunits⟩ := exists_scanText_quote key (':' :: cs)
  rw [quote_append, scanMembers, skipSpace_cons rfl]
  show (scanText (key.toList.flatMap escapeChar ++ '"' :: ':' :: cs)).bind _ = _
  rw [hscan, Option.bind_some, ← hunits]
  rfl

/-- The members of a map are scanned back up to the closing brace. -/
theorem scanMembers_compactMembers {members : List (String × Json)} (hne : members ≠ [])
    (hmembers : ∀ m ∈ members, ScansBack m.2 ∧ m.2.Readable depth)
    (hfuel : 2 * (compactMembers members).length < fuel) :
    scanMembers fuel depth (compactMembers members ++ '}' :: rest) =
      some (Document.ofMembers (mapMembers Number.reread members), rest) := by
  induction members generalizing fuel with
  | nil => exact absurd rfl hne
  | cons m members ih =>
    obtain ⟨key, v⟩ := m
    obtain ⟨hmember, hmembers⟩ := List.forall_mem_cons.1 hmembers
    have hback : ScansBack v := hmember.1
    have hv : v.Readable depth := hmember.2
    obtain ⟨fuel, rfl⟩ := Nat.exists_eq_add_one_of_ne_zero (Nat.ne_of_gt (Nat.zero_lt_of_lt hfuel))
    cases members with
    | nil =>
      rw [compactMembers, List.length_append, List.length_cons] at hfuel
      have hends : EndsNumber ('}' :: rest) := endsNumber_cons (by decide) rest
      rw [compactMembers, List.append_assoc, List.cons_append, scanMembers_quote,
        hback hv (by omega) hends]
      rfl
    | cons m members =>
      have hsplit : compactMembers ((key, v) :: m :: members) =
          quote key ++ ':' :: (v.compactChars ++ ',' :: compactMembers (m :: members)) := by
        rw [compactMembers, List.append_assoc]
        rfl
      simp only [hsplit, List.length_append, List.length_cons] at hfuel
      have hends : EndsNumber (',' :: (compactMembers (m :: members) ++ '}' :: rest)) :=
        endsNumber_cons (by decide) _
      have hrest : scanMembers fuel depth (compactMembers (m :: members) ++ '}' :: rest) =
          some (Document.ofMembers (mapMembers Number.reread (m :: members)), rest) :=
        ih (List.cons_ne_nil _ _) hmembers (by omega)
      rw [hsplit, List.append_assoc, List.cons_append, List.append_assoc, List.cons_append,
        scanMembers_quote, hback hv (by omega) hends]
      show (scanMembers fuel depth (compactMembers (m :: members) ++ '}' :: rest)).bind _ = _
      rw [hrest]
      rfl

theorem exists_cons_compactItems {v : Json} (h : v.Readable depth) (items : List Json) :
    ∃ c cs, compactItems (v :: items) = c :: cs ∧ isSpace c = false ∧ c ≠ ']' := by
  obtain ⟨c, cs, hcons, hspace, hbracket, -⟩ := exists_cons_compactChars h
  cases items with
  | nil => exact ⟨c, cs, hcons, hspace, hbracket⟩
  | cons w items => exact ⟨c, _, by rw [compactItems, hcons, List.cons_append], hspace, hbracket⟩

theorem exists_cons_compactMembers (m : String × Json) (members : List (String × Json)) :
    ∃ cs, compactMembers (m :: members) = '"' :: cs := by
  cases members with
  | nil => exact ⟨_, rfl⟩
  | cons m' members => exact ⟨_, rfl⟩

theorem scanValue_bracket {cs : List Char} (h : ∀ behind, skipSpace cs ≠ ']' :: behind) :
    scanValue (fuel + 1) depth ('[' :: cs) =
      (scanItems fuel (depth + 1) (skipSpace cs)).map fun p => (nested depth (.list p.1), p.2) := by
  rw [scanValue, skipSpace_cons rfl]
  -- no other kind of value begins with this character
  split
  case h_5 behind heq =>
    obtain rfl := (List.cons.inj heq).2
    split
    · rename_i behind heq
      exact absurd heq (h behind)
    · rfl
  case h_7 hbracket _ => exact absurd rfl (hbracket cs)
  all_goals
    rename_i heq
    simp at heq

theorem scanValue_brace {cs : List Char} (h : ∀ behind, skipSpace cs ≠ '}' :: behind) :
    scanValue (fuel + 1) depth ('{' :: cs) =
      (scanMembers fuel (depth + 1) (skipSpace cs)).map fun p => (nested depth (.map p.1), p.2) := by
  rw [scanValue, skipSpace_cons rfl]
  split
  case h_6 behind heq =>
    obtain rfl := (List.cons.inj heq).2
    split
    · rename_i behind heq
      exact absurd heq (h behind)
    · rfl
  case h_7 hbrace => exact absurd rfl (hbrace cs)
  all_goals
    rename_i heq
    simp at heq

/-- A list is scanned from its bracket on. -/
theorem scanValue_array {items : List Json} (hdepth : depth < maxDepth)
    (hitems : ∀ v ∈ items, ScansBack v ∧ v.Readable (depth + 1))
    (hfuel : 2 * (compactItems items).length < fuel) :
    scanValue (fuel + 1) depth ('[' :: (compactItems items ++ ']' :: rest)) =
      some (.list (ofItems (mapItems Number.reread items)), rest) := by
  cases items with
  | nil =>
    show some (nested depth (.list []), rest) = _
    rw [nested, if_pos hdepth]
    rfl
  | cons v items =>
    have hscan : scanItems fuel (depth + 1) (compactItems (v :: items) ++ ']' :: rest) =
        some (ofItems (mapItems Number.reread (v :: items)), rest) :=
      scanItems_compactItems (List.cons_ne_nil v items) hitems hfuel
    obtain ⟨c, cs, hcons, hspace, hbracket⟩ :=
      exists_cons_compactItems (hitems v List.mem_cons_self).2 items
    rw [hcons, List.cons_append] at hscan ⊢
    have hopen : ∀ behind, skipSpace (c :: (cs ++ ']' :: rest)) ≠ ']' :: behind := by
      intro behind heq
      rw [skipSpace_cons hspace] at heq
      exact hbracket (List.cons.inj heq).1
    rw [scanValue_bracket hopen, skipSpace_cons hspace, hscan, Option.map_some]
    exact congrArg (fun d => some (d, rest)) (if_pos hdepth)

/-- A map is scanned from its brace on. -/
theorem scanValue_object {members : List (String × Json)} (hdepth : depth < maxDepth)
    (hmembers : ∀ m ∈ members, ScansBack m.2 ∧ m.2.Readable (depth + 1))
    (hfuel : 2 * (compactMembers members).length < fuel) :
    scanValue (fuel + 1) depth ('{' :: (compactMembers members ++ '}' :: rest)) =
      some (.map (Document.ofMembers (mapMembers Number.reread members)), rest) := by
  cases members with
  | nil =>
    show some (nested depth (.map []), rest) = _
    rw [nested, if_pos hdepth]
    rfl
  | cons m members =>
    have hscan : scanMembers fuel (depth + 1) (compactMembers (m :: members) ++ '}' :: rest) =
        some (Document.ofMembers (mapMembers Number.reread (m :: members)), rest) :=
      scanMembers_compactMembers (List.cons_ne_nil m members) hmembers hfuel
    obtain ⟨cs, hcons⟩ := exists_cons_compactMembers m members
    rw [hcons, List.cons_append] at hscan ⊢
    have hspace : isSpace '"' = false := rfl
    have hopen : ∀ behind, skipSpace ('"' :: (cs ++ '}' :: rest)) ≠ '}' :: behind := by
      intro behind heq
      rw [skipSpace_cons hspace] at heq
      exact absurd (List.cons.inj heq).1 (by decide)
    rw [scanValue_brace hopen, skipSpace_cons hspace, hscan, Option.map_some]
    exact congrArg (fun d => some (d, rest)) (if_pos hdepth)

/-- **A value is scanned back from its compact text**, but for the numbers. -/
theorem scansBack (v : Json) : ScansBack v := by
  -- a list or a map uses a step for itself, which its two brackets pay for
  induction v using nested_induction with
  | null =>
    intro depth fuel rest hv hfuel hrest
    obtain ⟨fuel, rfl⟩ := exists_fuel hv hfuel
    rfl
  | bool b =>
    intro depth fuel rest hv hfuel hrest
    obtain ⟨fuel, rfl⟩ := exists_fuel hv hfuel
    cases b with
    | true => rfl
    | false => rfl
  | number n =>
    intro depth fuel rest hv hfuel hrest
    obtain ⟨fuel, rfl⟩ := exists_fuel hv hfuel
    cases hv with
    | number h => exact scanValue_number h hrest
  | string s =>
    intro depth fuel rest hv hfuel hrest
    obtain ⟨fuel, rfl⟩ := exists_fuel hv hfuel
    obtain ⟨units, hscan, hunits⟩ := exists_scanText_quote s rest
    rw [compactChars, quote_append, scanValue, skipSpace_cons rfl]
    show (scanText (s.toList.flatMap escapeChar ++ '"' :: rest)).map _ = _
    rw [hscan, Option.map_some]
    exact congrArg (fun d => some (d, rest)) hunits
  | array items ih =>
    intro depth fuel rest hv hfuel hrest
    obtain ⟨fuel, rfl⟩ := exists_fuel hv hfuel
    cases hv with
    | array hdepth h =>
      have hlength : (compactChars (.array items)).length = (compactItems items).length + 2 := by
        simp [compactChars]
      have hchars : compactChars (.array items) ++ rest =
          '[' :: (compactItems items ++ ']' :: rest) := by
        simp [compactChars]
      rw [hchars, mapNumbers]
      exact scanValue_array hdepth (fun v hv => ⟨ih v hv, h v hv⟩) (by omega)
  | object members ih =>
    intro depth fuel rest hv hfuel hrest
    obtain ⟨fuel, rfl⟩ := exists_fuel hv hfuel
    cases hv with
    | object hdepth h =>
      have hlength : (compactChars (.object members)).length =
          (compactMembers members).length + 2 := by
        simp [compactChars]
      have hchars : compactChars (.object members) ++ rest =
          '{' :: (compactMembers members ++ '}' :: rest) := by
        simp [compactChars]
      rw [hchars, mapNumbers]
      exact scanValue_object hdepth (fun m hm => ⟨ih m hm, h m hm⟩) (by omega)

/-- **The text of a value is the document of the value**, but for the numbers. -/
theorem document?_compact {v : Json} (h : v.Readable 0) :
    document? v.compact = some (ofJson v.reread) := by
  have hscan : scanValue (2 * v.compactChars.length + 2) 0 (v.compactChars ++ []) =
      some (ofJson v.reread, []) := scansBack v h (by omega) endsNumber_nil
  rw [List.append_nil] at hscan
  rw [document?, compact, String.toList_ofList, scan?, hscan]
  rfl

end Syndication.Json
