import Syndication.Proofs.Decimal.Nearest
import Syndication.Proofs.Expression.Comparisons

/-!
# Comparing integers

The value at a path and the integer that is written behind the operator are compared as they are
while both are integers of 64 bits with a sign. When one of them is `2 ^ 63` or more, both are
rounded to 53 bits first, the written one already when it is read. Two integers that are rounded to
the same number are then equal (`Blurred`).

* `Literal.Numeral.parseChars`: an integer is read exactly or rounded.
* `Literal.Numeral.exists_holdsFor_iff`: when it is equal to an integer at the path.
* `integerComparison_iff`: what a comparison with an integer evaluates to, and where it is exact.
* `integers_confused`: two integers that are taken for equal.
-/

namespace Syndication

/-- **Two integers are blurred**: one of them is beyond 64 bits with a sign, and both are rounded to
the same multiple of 2048, which is what 53 bits leave of them. -/
def Blurred (i j : Int) : Prop :=
  2 ^ 63 ≤ max i j ∧ 2 ^ 63 - 512 ≤ min i j ∧
    Binary64.divideNearest i.toNat 2048 = Binary64.divideNearest j.toNat 2048

theorem not_blurred_of_small {i j : Int} (h : max i j < 2 ^ 63 ∨ min i j < 2 ^ 63 - 512) :
    ¬ Blurred i j := by
  rintro ⟨hmax, hmin, -⟩
  omega

theorem blurred_comm {i j : Int} : Blurred i j ↔ Blurred j i := by
  rw [Blurred, Blurred, Int.max_comm, Int.min_comm, eq_comm]

/-- **Rounded, two integers are the same** when they are equal or blurred. -/
theorem exists_sameValue_iff {i j : Int} (hi : 2 ^ 63 ≤ i) (hi' : i < 2 ^ 64) (hj : j < 2 ^ 64) :
    (∃ x y, Binary64.ofInt i = some x ∧ Binary64.ofInt j = some y ∧ x.sameValue y = true) ↔
      i = j ∨ Blurred i j := by
  rw [Binary64.sameValue_ofInt_iff hi hi' hj, Blurred]
  constructor
  · rintro ⟨hnear, hmultiple⟩
    exact .inr ⟨by omega, by omega, hmultiple⟩
  · rintro (rfl | ⟨-, hnear, hmultiple⟩)
    · exact ⟨by omega, rfl⟩
    · exact ⟨by omega, hmultiple⟩

namespace Literal

variable {i j : Int} {x : Binary64}

/-! ### Reading an integer -/

namespace Numeral

theorem ne_nil (n : Numeral) : n.text.toList ≠ [] := by
  intro hnil
  have hwrites := n.writes
  rw [hnil] at hwrites
  cases hwrites

theorem isNumeralChar (n : Numeral) : ∀ c ∈ n.text.toList, Decimal.isNumeralChar c = true :=
  Decimal.isNumeralChar_of_int? n.writes

theorem trim_text (n : Numeral) : Chars.trim n.text.toList = n.text.toList :=
  Chars.trim_of_forall fun c hc => isBlank_eq_false_of_isNumeralChar (n.isNumeralChar c hc)

theorem newline_notMem (n : Numeral) : '\n' ∉ n.text.toList :=
  fun hc => absurd (n.isNumeralChar _ hc) (by decide)

theorem le_value (n : Numeral) : -2 ^ 63 ≤ n.value := by
  have hlow := n.atLeast
  unfold Decimal.leastInt64 at hlow
  omega

theorem value_lt (n : Numeral) : n.value < 2 ^ 64 := by
  have hhigh := n.atMost
  unfold Decimal.greatestNat64 at hhigh
  omega

/-- **An integer is read** as it is, or rounded when it is `2 ^ 63` or more. -/
theorem parseChars (n : Numeral) :
    (n.value < 2 ^ 63 ∧ Literal.parseChars n.text.toList = .ok (.integer n.value)) ∨
    (2 ^ 63 ≤ n.value ∧ ∃ x, Binary64.ofInt n.value = some x ∧
      Literal.parseChars n.text.toList = .ok (.double x)) := by
  have hlow := n.le_value
  have hhigh := n.value_lt
  have hinteger : Decimal.int64? n.text.toList =
      if n.value < 2 ^ 63 then some n.value else none := by
    rw [Decimal.int64?, Decimal.intWithin?, n.writes, Option.filter_some]
    refine if_congr ?_ rfl rfl
    rw [Bool.and_eq_true, decide_eq_true_eq, decide_eq_true_eq, Decimal.leastInt64,
      Decimal.greatestInt64]
    omega
  rw [parseChars_of_isNumeralChar n.ne_nil n.isNumeralChar, hinteger]
  by_cases hsmall : n.value < 2 ^ 63
  · exact .inl ⟨hsmall, by rw [if_pos hsmall]⟩
  · obtain ⟨x, hx⟩ : ∃ x, Binary64.ofInt n.value = some x := by
      rw [Binary64.ofInt_of_nonneg (by omega), Binary64.nearest_eq_of_large (by omega) (by omega)]
      exact ⟨_, rfl⟩
    refine .inr ⟨Int.not_lt.1 hsmall, x, hx, ?_⟩
    rw [if_neg hsmall, Decimal.binary64?_of_int? n.writes (by omega) hhigh, hx]

end Numeral

/-! ### Comparing -/

theorem doublesAgree_iff {x y : Option Binary64} :
    integerHolds.doublesAgree x y = true ↔
      ∃ a b, x = some a ∧ y = some b ∧ a.sameValue b = true := by
  cases x <;> cases y <;> simp [integerHolds.doublesAgree]

/-- An integer that was read exactly. -/
theorem integer_holdsFor_iff (hi : i < 2 ^ 63) (hlow : -2 ^ 63 ≤ j) (hj : j < 2 ^ 64) :
    (Literal.integer i).holdsFor (some (.number (.integer j))) = true ↔ j = i ∨ Blurred j i := by
  show integerHolds i (.integer j) = true ↔ _
  by_cases hsmall : j < 2 ^ 63
  · -- both have 64 bits with a sign
    have hexact : ¬ Blurred j i := not_blurred_of_small (.inl (by omega))
    have hint : (Json.Number.integer j).int64? = some j := if_pos ⟨hlow, by omega⟩
    rw [integerHolds, hint, or_iff_left hexact]
    exact beq_iff_eq
  · have hint : (Json.Number.integer j).int64? = none := if_neg (by omega)
    rw [integerHolds, hint]
    show integerHolds.doublesAgree (Binary64.ofInt j) (Binary64.ofInt i) = true ↔ _
    rw [doublesAgree_iff, exists_sameValue_iff (by omega) hj (by omega)]

/-- An integer that was rounded when it was read. -/
theorem double_holdsFor_iff (hi : 2 ^ 63 ≤ i) (hi' : i < 2 ^ 64) (hx : Binary64.ofInt i = some x)
    (hj : j < 2 ^ 64) :
    (Literal.double x).holdsFor (some (.number (.integer j))) = true ↔ j = i ∨ Blurred j i := by
  have hholds : (Literal.double x).holdsFor (some (.number (.integer j))) = true ↔
      ∃ a b, Binary64.ofInt i = some a ∧ Binary64.ofInt j = some b ∧ a.sameValue b = true := by
    have hread : (Json.Number.integer j).binary64? = Binary64.ofInt j := rfl
    simp only [Literal.holdsFor, hread, hx]
    cases Binary64.ofInt j with
    | none => simp
    | some y => simp [Binary64.sameValue_comm]
  rw [hholds, exists_sameValue_iff hi hi' hj, eq_comm, blurred_comm]

/-- **An integer that is read is equal** to itself and to those that it is blurred with. -/
theorem Numeral.exists_holdsFor_iff (n : Numeral) :
    ∃ literal, Literal.parseChars n.text.toList = .ok literal ∧
      ∀ j : Int, -2 ^ 63 ≤ j → j < 2 ^ 64 →
        (literal.holdsFor (some (.number (.integer j))) = true ↔
          j = n.value ∨ Blurred j n.value) := by
  rcases n.parseChars with ⟨hsmall, hparse⟩ | ⟨hlarge, x, hx, hparse⟩
  · exact ⟨_, hparse, fun j hlow hhigh => integer_holdsFor_iff hsmall hlow hhigh⟩
  · exact ⟨_, hparse, fun j _ hhigh => double_holdsFor_iff hlarge n.value_lt hx hhigh⟩

end Literal

namespace Expression

theorem parse_integerComparison (c : IntegerComparison) (operator : Operator) {literal : Literal}
    (h : Literal.parseChars c.numeral.text.toList = .ok literal) :
    parse (c.text operator) = .ok (operator.compare c.path literal) := by
  have htrim := (trim_around c.gap' c.after c.numeral.text).trans c.numeral.trim_text
  have hliteral : Literal.parseChars (c.gap'.text ++ c.numeral.text ++ c.after.text).toList =
      .ok literal := by
    rw [← Literal.parseChars_trim, htrim, h]
  rw [parse, IntegerComparison.text,
    (begins_of_writes c.writes c.before c.gap operator _).parseChars
      (by rw [htrim]; exact c.numeral.ne_nil),
    if_neg (by rw [htrim]; exact c.numeral.newline_notMem), c.writes.parseChars, hliteral]
  rfl

/-- **A comparison with an integer**, however it is written, is read, and where there is an integer
at the path it evaluates to a truth value: with `==` to true just when the integer at the path is
the written one or blurred with it, and with `!=` to the opposite. So it is exact when both are
integers of 64 bits with a sign, and when one of them is below `2 ^ 63 - 512`. -/
theorem integerComparison_iff (c : IntegerComparison) (document : Json) (i : Int)
    (hlow : -2 ^ 63 ≤ i) (hhigh : i < 2 ^ 64)
    (hi : c.path.resolve document = some (.number (.integer i))) :
    ∃ equal differ same, parse (c.text .equal) = .ok equal ∧
      parse (c.text .notEqual) = .ok differ ∧
      equal.evaluate document = some (.bool same) ∧
      differ.evaluate document = some (.bool (!same)) ∧
      (same = true ↔ i = c.numeral.value ∨ Blurred i c.numeral.value) ∧
      (max i c.numeral.value < 2 ^ 63 ∨ min i c.numeral.value < 2 ^ 63 - 512 →
        (same = true ↔ i = c.numeral.value)) := by
  obtain ⟨literal, hparse, hholds⟩ := c.numeral.exists_holdsFor_iff
  have hsame := hholds i hlow hhigh
  refine ⟨_, _, literal.holdsFor (some (.number (.integer i))),
    parse_integerComparison c .equal hparse, parse_integerComparison c .notEqual hparse, ?_, ?_,
    hsame, fun hexact => ?_⟩
  · show some (Json.bool (literal.holdsFor (c.path.resolve document))) = _
    rw [hi]
  · show some (Json.bool (!literal.holdsFor (c.path.resolve document))) = _
    rw [hi]
  · rw [hsame, or_iff_left (not_blurred_of_small hexact)]

/-- The comparison of a member with an integer, without blanks. -/
private def plainly (member : FieldPath.Segment) (numeral : Literal.Numeral) :
    IntegerComparison where
  before := ⟨"", nofun⟩
  left := String.ofList member.chars
  path := ⟨[String.ofList member.chars]⟩
  writes := .inr ⟨⟨.bare, member, []⟩, by simp [FieldPath.Spelling.text, FieldPath.Spelling.body,
    FieldPath.Opening.chars], rfl⟩
  gap := ⟨" ", List.forall_mem_singleton.2 rfl⟩
  gap' := ⟨" ", List.forall_mem_singleton.2 rfl⟩
  numeral := numeral
  after := ⟨"", nofun⟩

private def limit : IntegerComparison :=
  plainly ⟨['p'], by decide⟩
    ⟨"9223372036854775807", 2 ^ 63 - 1, by decide +kernel, by decide, by decide⟩

/-- The greatest integer of 64 bits with a sign is told from the least one. -/
theorem integers_told_apart :
    ∃ equal differ same, parse "p == 9223372036854775807" = .ok equal ∧
      parse "p != 9223372036854775807" = .ok differ ∧
      equal.evaluate (.object [("p", .number (.integer (-2 ^ 63)))]) = some (.bool same) ∧
      differ.evaluate (.object [("p", .number (.integer (-2 ^ 63)))]) = some (.bool (!same)) ∧
      same = false := by
  obtain ⟨equal, differ, same, hequal, hdiffer, hsame, hsame', -, hexact⟩ :=
    integerComparison_iff limit (.object [("p", .number (.integer (-2 ^ 63)))]) (-2 ^ 63)
      (by decide) (by decide) rfl
  refine ⟨equal, differ, same, hequal, hdiffer, hsame, hsame', ?_⟩
  rw [← Bool.not_eq_true, hexact (.inl (by decide))]
  decide

/-- **Two integers that are taken for equal**: the first that is beyond 64 bits with a sign is
confused with the one before it. -/
theorem integers_confused :
    (parse "p == 9223372036854775807").map
        (·.evaluate (.object [("p", .number (.integer 9223372036854775808))])) =
      .ok (some (.bool true)) ∧
    (parse "p != 9223372036854775807").map
        (·.evaluate (.object [("p", .number (.integer 9223372036854775808))])) =
      .ok (some (.bool false)) := by
  decide +kernel

end Expression

end Syndication
