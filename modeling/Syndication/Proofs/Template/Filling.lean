import Mathlib.Data.List.Forall2
import Syndication.Proofs.Template.Rendering

/-!
# The filling in of a JSON template

A JSON template is filled in leaf by leaf. A text leaf is looked at twice: once as a whole, to see
whether it is one placeholder and nothing else, and, when it is not, once more from the left, for
the placeholders that stand in it. Both looks see the same placeholders. A leaf that is a sole
placeholder is a placeholder in braces when it is trimmed, with a path between the braces
(`solePlaceholder?_eq_some_iff`), so the text of what takes its place is the rendering of the
trimmed leaf. Only text leaves change: keys, arrays and all other leaves are kept.

Main statement:

* `interpolateValue_agrees`: what a filled-in template is.
-/

namespace Syndication

namespace Template

variable {cs : List Char} {path : FieldPath} {s : String}

/-! ### A leaf that is one placeholder -/

/-- **A text is a sole placeholder** when it is a placeholder, blanks around it apart, and what
stands between the braces is a path. -/
theorem solePlaceholder?_eq_some_iff : solePlaceholder? cs = some path ↔
    ∃ body, IsBody body ∧ Chars.trim cs = braced body ∧
      (FieldPath.parseChars body).toOption = some path := by
  constructor
  · intro h
    obtain ⟨m, hm, h⟩ := Option.bind_eq_some_iff.1 h
    obtain ⟨hlength, hpath⟩ := Option.ite_none_right_eq_some.1 h
    obtain ⟨p, hp, -⟩ := Pattern.exists_matchAt_of_first? hm
    obtain ⟨body, rest, hbody, -, htext, hgroup⟩ := exists_braced_of_matchAt hp
    refine ⟨body, hbody, ?_, ?_⟩
    · rw [← htext, Pattern.text_eq_of_first? hm hlength]
    · rw [← FieldPath.toOption_parseChars_congr hgroup, hpath]
  · rintro ⟨body, hbody, htrim, hpath⟩
    obtain ⟨m, hm, htext⟩ := matchAt_braced hbody none []
    obtain ⟨body', rest, hbody', hrest, -, hgroup⟩ := exists_braced_of_matchAt hm
    obtain ⟨rfl, -⟩ := braced_append_inj hbody hbody' hrest
    have hfirst : placeholder.first? (Chars.trim cs) = some m := by
      rw [htrim, ← htext]
      refine Pattern.first?_of_matchAt ?_ (by simp [htext, braced])
      rwa [htext, ← List.append_nil (braced body)]
    refine Option.bind_eq_some_iff.2 ⟨m, hfirst, ?_⟩
    rw [htrim, htext, if_pos rfl, FieldPath.toOption_parseChars_congr hgroup, hpath]

/-- A sole placeholder is rendered as the text of the value that it addresses. -/
theorem interpolateChars_of_solePlaceholder? (h : solePlaceholder? cs = some path)
    (context : Json) :
    interpolateChars (Chars.trim cs) context = (renderValue (path.resolve context)).toList := by
  obtain ⟨body, hbody, htrim, hpath⟩ := solePlaceholder?_eq_some_iff.1 h
  have hpieces : pieces (braced body) = [.placeholder body] := by
    rw [← List.append_nil (braced body), pieces_braced hbody]
    rfl
  rw [htrim, interpolateChars_eq, hpieces, List.flatMap_singleton, Piece.render, renderPath_eq,
    hpath]
  rfl

/-! ### Leaves -/

/-- A sole placeholder gives way to the value that it addresses, as it is, and to the empty text
when there is none. -/
theorem interpolateLeaf_of_solePlaceholder? (h : solePlaceholder? s.toList = some path)
    (context : Json) :
    (∀ value, path.resolve context = some value → value ≠ .null →
      interpolateLeaf s context = value) ∧
    (path.resolve context = none ∨ path.resolve context = some .null →
      interpolateLeaf s context = .string "") := by
  rw [interpolateLeaf, h]
  dsimp only
  constructor
  · intro value hvalue hnull
    rw [hvalue]
    cases value with
    | null => exact absurd rfl hnull
    | _ => rfl
  · rintro (hvalue | hvalue) <;> rw [hvalue]

/-- **Both looks at a leaf agree**: the text of what takes the place of a leaf is the rendering of
the leaf, trimmed when it is a sole placeholder. -/
theorem renderValue_interpolateLeaf (s : String) (context : Json) :
    renderValue (some (interpolateLeaf s context)) =
      interpolate (if (solePlaceholder? s.toList).isSome then Text.trim s else s) context := by
  cases hsole : solePlaceholder? s.toList with
  | none =>
    rw [interpolateLeaf, hsole]
    rfl
  | some path =>
    have hrendering : interpolate (Text.trim s) context = renderValue (path.resolve context) := by
      rw [interpolate, Text.toList_trim, interpolateChars_of_solePlaceholder? hsole,
        String.ofList_toList]
    have hleaf := interpolateLeaf_of_solePlaceholder? hsole context
    rw [Option.isSome_some, if_pos rfl, hrendering]
    cases hvalue : path.resolve context with
    | none =>
      rw [hleaf.2 (.inl hvalue)]
      rfl
    | some value =>
      by_cases hnull : value = .null
      · rw [hleaf.2 (.inr (hvalue.trans (congrArg some hnull))), hnull]
        rfl
      · rw [hleaf.1 value hvalue hnull]

/-- A leaf in which no placeholder occurs is left alone. -/
theorem interpolateLeaf_of_isEmpty (h : IsEmpty (Occurrence s)) (context : Json) :
    interpolateLeaf s context = .string s := by
  have hnone : ∀ before body after, IsBody body → s.toList ≠ before ++ (braced body ++ after) :=
    fun before body after hbody heq =>
      (Occurrence.exists_of_toList_eq hbody heq).elim fun o _ => h.false o
  have hsole : solePlaceholder? s.toList = none := by
    rw [Option.eq_none_iff_forall_ne_some]
    intro path hpath
    obtain ⟨body, hbody, htrim, -⟩ := solePlaceholder?_eq_some_iff.1 hpath
    obtain ⟨before, after, -, -, hs⟩ := Chars.exists_append_trim s.toList
    rw [htrim] at hs
    exact hnone before body after hbody hs
  have hrendering : interpolate s context = s := by
    rw [← String.toList_inj, interpolate, String.toList_ofList, interpolateChars_eq,
      pieces_of_forall_ne hnone, List.flatMap_map]
    exact List.flatMap_singleton' _
  rw [interpolateLeaf, hsole]
  exact congrArg Json.string hrendering

/-! ### Templates -/

/-- **A value fills in a template** when it has the same keys in every object, the same number of
items in every array, and the same leaves, but for the text leaves: each of them gives way to a
value that `leaf` allows. -/
inductive Fills (leaf : String → Json → Prop) : Json → Json → Prop
  | null : Fills leaf .null .null
  | bool (b : Bool) : Fills leaf (.bool b) (.bool b)
  | number (n : Json.Number) : Fills leaf (.number n) (.number n)
  /-- A text gives way to what is allowed for it. -/
  | text {s : String} {value : Json} (allowed : leaf s value) : Fills leaf (.string s) value
  /-- An array is filled in item by item. -/
  | array {items items' : List Json} (each : items.Forall₂ (Fills leaf) items') :
    Fills leaf (.array items) (.array items')
  /-- An object keeps its keys and is filled in value by value. -/
  | object {members members' : List (String × Json)}
    (keys : members.map Prod.fst = members'.map Prod.fst)
    (each : (members.map Prod.snd).Forall₂ (Fills leaf) (members'.map Prod.snd)) :
    Fills leaf (.object members) (.object members')

/-- **A text leaf** of a template. -/
inductive HasLeaf (s : String) : Json → Prop
  /-- A text is its own leaf. -/
  | text : HasLeaf s (.string s)
  /-- The leaves of an array are those of its items. -/
  | item {v : Json} {items : List Json} (mem : v ∈ items) (leaf : HasLeaf s v) :
    HasLeaf s (.array items)
  /-- The leaves of an object are those of its values. -/
  | member {m : String × Json} {members : List (String × Json)} (mem : m ∈ members)
    (leaf : HasLeaf s m.2) : HasLeaf s (.object members)

theorem fills_interpolateValue (context template : Json) :
    Fills (fun s value => value = interpolateValue context (.string s)) template
      (interpolateValue context template) := by
  induction template using Json.nested_induction with
  | null => exact .null
  | bool b => exact .bool b
  | number n => exact .number n
  | string s => exact .text rfl
  | array items ih =>
    rw [interpolateValue, interpolateItems_eq_map]
    refine .array ?_
    rw [List.forall₂_map_right_iff, List.forall₂_same]
    exact ih
  | object members ih =>
    rw [interpolateValue, interpolateMembers_eq_map]
    refine .object (by simp) ?_
    rw [List.map_map, List.forall₂_map_left_iff, List.forall₂_map_right_iff, List.forall₂_same]
    exact ih

theorem interpolateValue_of_isEmpty (context template : Json)
    (h : ∀ s, HasLeaf s template → IsEmpty (Occurrence s)) :
    interpolateValue context template = template := by
  induction template using Json.nested_induction with
  | null | bool | number => rfl
  | string s => exact interpolateLeaf_of_isEmpty (h s .text) context
  | array items ih =>
    have hitems : items.map (interpolateValue context) = items.map id :=
      List.map_congr_left fun v hv => ih v hv fun s hs => h s (.item hv hs)
    rw [interpolateValue, interpolateItems_eq_map, hitems, List.map_id]
  | object members ih =>
    have hmembers : (members.map fun m => (m.1, interpolateValue context m.2)) = members.map id :=
      List.map_congr_left fun m hm => by rw [ih m hm fun s hs => h s (.member hm hs), id]
    rw [interpolateValue, interpolateMembers_eq_map, hmembers, List.map_id]

end Template

open Template

/-- **What a filled-in template is.** The text of what takes the place of a text leaf is the
rendering of the leaf, trimmed when the leaf is a sole placeholder. It is one just when, trimmed,
it is a placeholder with nothing around it whose body is a path. Then what takes its place is the
value at the path, whatever its type, or the empty text when that value is null or absent. A
template keeps the keys of its objects, the lengths of its arrays and all leaves that are no
texts, and when no placeholder occurs in its text leaves, it is left alone. -/
theorem interpolateValue_agrees (context : Json) :
    (∀ s : String, renderValue (some (interpolateValue context (.string s))) =
      interpolate (if (solePlaceholder? s.toList).isSome then Text.trim s else s) context) ∧
    (∀ (s : String) (path : FieldPath), solePlaceholder? s.toList = some path ↔
      ∃ o : Occurrence (Text.trim s), o.before = "" ∧ o.after = "" ∧
        FieldPath.parse? o.body = some path) ∧
    (∀ (s : String) (path : FieldPath), solePlaceholder? s.toList = some path →
      (∀ value, path.resolve context = some value → value ≠ .null →
        interpolateValue context (.string s) = value) ∧
      (path.resolve context = none ∨ path.resolve context = some .null →
        interpolateValue context (.string s) = .string "")) ∧
    (∀ template, Fills (fun s value => value = interpolateValue context (.string s)) template
      (interpolateValue context template)) ∧
    ∀ template, (∀ s, HasLeaf s template → IsEmpty (Occurrence s)) →
      interpolateValue context template = template := by
  refine ⟨fun s => renderValue_interpolateLeaf s context, fun s path => ?_,
    fun s path h => interpolateLeaf_of_solePlaceholder? h context, fills_interpolateValue context,
    interpolateValue_of_isEmpty context⟩
  rw [solePlaceholder?_eq_some_iff]
  constructor
  · rintro ⟨body, hbody, htrim, hpath⟩
    have heq : (Text.trim s).toList = [] ++ (braced body ++ []) := by
      rw [Text.toList_trim, htrim, List.append_nil, List.nil_append]
    obtain ⟨o, hbefore, hinside, hafter⟩ := Occurrence.exists_of_toList_eq hbody heq
    refine ⟨o, String.toList_eq_nil_iff.1 hbefore, String.toList_eq_nil_iff.1 hafter, ?_⟩
    rw [FieldPath.parse?, FieldPath.parse, hinside, hpath]
  · rintro ⟨o, hbefore, hafter, hpath⟩
    refine ⟨o.body.toList, o.isBody, ?_, hpath⟩
    rw [← Text.toList_trim, o.toList_eq, hbefore, hafter]
    simp

-- a number keeps its type where a placeholder stands alone, and becomes text among other text
example : interpolateValue (.object [("n", .ofInt 3)])
    (.array [.string " \x7b\x7bn\x7d\x7d ", .string "#\x7b\x7bn\x7d\x7d", .null]) =
      .array [.ofInt 3, .string "#3", .null] := by
  decide +kernel

end Syndication
