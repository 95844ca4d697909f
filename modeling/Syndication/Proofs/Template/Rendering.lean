import Mathlib.Tactic.SplitIfs
import Syndication.Proofs.Template.Placeholders

/-!
# The rendering of a template

A template is rendered piece by piece: each placeholder, wherever it stands, gives way to the text
of the value that it addresses, and everything else is kept. The rendering of a text with a
placeholder is therefore that of what stands before it, the value, and that of what stands after
it. The value itself is not looked at, whatever it contains.

Main statement:

* `interpolate_exact`: what the rendering of a template is.
-/

namespace Syndication

/-- Blanks around a path make no difference. -/
theorem FieldPath.toOption_parseChars_congr {raw raw' : List Char}
    (h : Chars.trim raw = Chars.trim raw') :
    (parseChars raw).toOption = (parseChars raw').toOption := by
  unfold parseChars
  rw [h]
  dsimp only
  split_ifs <;> rfl

namespace Template

/-! ### Rendering piece by piece -/

theorem renderPath_eq (context : Json) (path : List Char) :
    renderPath context path = ((FieldPath.parseChars path).toOption.elim "" fun path =>
      renderValue (path.resolve context)).toList := by
  unfold renderPath
  cases FieldPath.parseChars path <;> rfl

/-- **A template is rendered piece by piece.** -/
theorem interpolateChars_eq (template : List Char) (context : Json) :
    interpolateChars template context = (pieces template).flatMap (Piece.render context) := by
  rw [interpolateChars, Pattern.replace, pieces, piecesFrom, List.flatMap_map, Pattern.scan]
  refine List.flatMap_congr fun piece hpiece => ?_
  cases piece with
  | plain c => rfl
  | hit m =>
    obtain ⟨p, hm, -⟩ := Pattern.exists_matchAt_of_hit_mem hpiece
    obtain ⟨body, rest, -, -, htext, hgroup⟩ := exists_braced_of_matchAt hm
    rw [Piece.ofFound_hit htext]
    change renderPath context (m.group 1) = renderPath context body
    rw [renderPath_eq, FieldPath.toOption_parseChars_congr hgroup, renderPath_eq]

/-! ### Placeholders in texts -/

/-- **A placeholder that stands in a template**: two opening braces, one or more characters other
than braces, and two closing braces. -/
@[ext]
structure Occurrence (template : String) where
  /-- What stands before it. -/
  before : String
  /-- What stands between its braces. -/
  body : String
  /-- What stands after it. -/
  after : String
  source : template = before ++ "\x7b\x7b" ++ body ++ "\x7d\x7d" ++ after
  nonempty : body ≠ ""
  braceFree : ∀ c ∈ body.toList, c ≠ '{' ∧ c ≠ '}'

namespace Occurrence

variable {template : String}

/-- Where it begins. -/
def start (o : Occurrence template) : Nat :=
  o.before.length

/-- Where it ends. -/
def stop (o : Occurrence template) : Nat :=
  o.start + o.body.length + 4

/-- The text of the value that it addresses; nothing when it names no path, and when there is
nothing at its path. -/
def value (o : Occurrence template) (context : Json) : String :=
  match FieldPath.parse o.body with
  | .ok path => renderValue (path.resolve context)
  | .error _ => ""

theorem isBody (o : Occurrence template) : IsBody o.body.toList := by
  refine ⟨fun h => o.nonempty (String.toList_eq_nil_iff.1 h), fun c hc => ?_⟩
  obtain ⟨hopening, hclosing⟩ := o.braceFree c hc
  simp [isBrace, hopening, hclosing]

theorem toList_eq (o : Occurrence template) :
    template.toList = o.before.toList ++ (braced o.body.toList ++ o.after.toList) := by
  have hsource := congrArg String.toList o.source
  simpa [braced] using hsource

theorem toList_value (o : Occurrence template) (context : Json) :
    (o.value context).toList = renderPath context o.body.toList := by
  unfold value renderPath FieldPath.parse
  cases FieldPath.parseChars o.body.toList <;> rfl

/-- What stands in a text as a placeholder does occurs in it. -/
theorem exists_of_toList_eq {before body after : List Char} (h : IsBody body)
    (heq : template.toList = before ++ (braced body ++ after)) :
    ∃ o : Occurrence template, o.before.toList = before ∧ o.body.toList = body ∧
      o.after.toList = after := by
  refine ⟨⟨.ofList before, .ofList body, .ofList after, ?_, ?_, ?_⟩, by simp, by simp, by simp⟩
  · rw [← String.toList_inj, heq]
    simp [braced]
  · intro hempty
    exact h.1 (by simpa using congrArg String.toList hempty)
  · intro c hc
    have hbrace := h.2 c (by simpa using hc)
    simpa [isBrace] using hbrace

/-- Of two placeholders that occur in a text, the one that does not begin later is the other one,
or it ends before that one begins. -/
theorem eq_or_stop_le_of_start_le {o o' : Occurrence template} (h : o.start ≤ o'.start) :
    o = o' ∨ o.stop ≤ o'.start := by
  have hle : o.before.toList.length ≤ o'.before.toList.length := by
    rwa [String.length_toList, String.length_toList]
  rcases eq_or_exists_of_braced_append o.isBody o'.isBody (o.toList_eq.symm.trans o'.toList_eq) hle
    with ⟨hbefore, hbody, hafter⟩ | ⟨middle, hmiddle⟩
  · exact .inl (Occurrence.ext (String.toList_inj.1 hbefore) (String.toList_inj.1 hbody)
      (String.toList_inj.1 hafter))
  · have hlength := congrArg List.length hmiddle
    simp only [List.length_append, length_braced, String.length_toList] at hlength
    exact .inr (by unfold stop start; omega)

end Occurrence

end Template

open Template

/-- **What the rendering of a template is.** No two placeholders that occur in it overlap. It falls
into pieces, and those of them that are no character are just the placeholders that occur in it.
In the rendering each placeholder has given way to its value and each character is kept. What
stands before a placeholder and what stands after it is rendered as if it stood alone, and the
value between them is not looked at. A text in which no placeholder occurs is its own rendering. -/
theorem interpolate_exact (template : String) (context : Json) :
    (∀ o o' : Occurrence template, o = o' ∨ o.stop ≤ o'.start ∨ o'.stop ≤ o.start) ∧
    (template.toList = (pieces template.toList).flatMap Piece.source ∧
      (interpolate template context).toList =
        (pieces template.toList).flatMap (Piece.render context) ∧
      (∀ o : Occurrence template,
        pieces template.toList = pieces o.before.toList ++
          .placeholder o.body.toList :: pieces o.after.toList ∧
        (Piece.placeholder o.body.toList).render context = (o.value context).toList) ∧
      ∀ earlier body later, pieces template.toList = earlier ++ .placeholder body :: later →
        ∃ o : Occurrence template, o.before.toList = earlier.flatMap Piece.source ∧
          o.body.toList = body ∧ o.after.toList = later.flatMap Piece.source) ∧
    (∀ o : Occurrence template, interpolate template context =
      interpolate o.before context ++ o.value context ++ interpolate o.after context) ∧
    (IsEmpty (Occurrence template) → interpolate template context = template) := by
  have htoList (text : String) : (interpolate text context).toList =
      (pieces text.toList).flatMap (Piece.render context) := by
    rw [interpolate, String.toList_ofList, interpolateChars_eq]
  have hpieces (o : Occurrence template) : pieces template.toList =
      pieces o.before.toList ++ .placeholder o.body.toList :: pieces o.after.toList := by
    rw [o.toList_eq, pieces_append_braced o.isBody]
  refine ⟨fun o o' => ?_, ⟨(flatMap_source_pieces _).symm, htoList template,
    fun o => ⟨hpieces o, (o.toList_value context).symm⟩, fun earlier body later h => ?_⟩,
    fun o => ?_, fun hnone => ?_⟩
  · rcases Nat.le_total o.start o'.start with h | h
    · exact (Occurrence.eq_or_stop_le_of_start_le h).imp_right .inl
    · exact (Occurrence.eq_or_stop_le_of_start_le h).elim (fun h => .inl h.symm)
        fun h => .inr (.inr h)
  · have hmem : .placeholder body ∈ pieces template.toList := by simp [h]
    have hbody : IsBody body := isBody_of_mem_pieces hmem
    refine Occurrence.exists_of_toList_eq hbody ?_
    rw [← flatMap_source_pieces template.toList, h, List.flatMap_append, List.flatMap_cons]
    rfl
  · rw [← String.toList_inj, htoList, hpieces o]
    simp [htoList, o.toList_value, Piece.render]
  · have hplain : pieces template.toList = template.toList.map .char := by
      refine pieces_of_forall_ne fun before body after hbody heq => ?_
      obtain ⟨o, -⟩ := Occurrence.exists_of_toList_eq hbody heq
      exact hnone.false o
    rw [← String.toList_inj, htoList, hplain, List.flatMap_map]
    exact List.flatMap_singleton' _

-- the outermost of three braces is kept, and so is what the value holds
example : interpolate "\x7b\x7b\x7b a \x7d\x7d\x7d"
    (.object [("a", .string "\x7b\x7bb\x7d\x7d"), ("b", .string "no")]) =
      "\x7b\x7b\x7bb\x7d\x7d\x7d" := by
  decide +kernel

end Syndication
