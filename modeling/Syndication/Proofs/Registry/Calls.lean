import Mathlib.Data.List.Induction
import Syndication.Proofs.Registry.Registration
import Syndication.Proofs.Text.ByteOrder

/-!
# What calls make of a registry

Platforms are registered and taken out again, one at a time or by the list of their definitions.
A list of definitions stands for the registration of those that can be bound (`Call.edits`), so
whatever is called, the registry goes through single edits, and each of them is easily described
(`Edit.get?_apply`): a removal leaves nothing under its id, and a registration fills an id under
which there is nothing.

Main statements:

* `after_eq`: calls do what their edits do.
* `get?_afterEdits_eq_some_iff`: under an id is the platform that was registered when there was
  last nothing.
* `Registry.after_lawful`: the registry after any calls.
-/

namespace Syndication.Registry

/-- A platform is registered or taken out. -/
inductive Edit where
  | register (p : Platform)
  | unregister (id : String)

/-- **A call** that may change a registry. -/
inductive Call where
  | register (p : Platform)
  | unregister (id : String)
  /-- Definitions are bound and registered, one after another. -/
  | registerAll (hooksFor : Definition → Hooks) (ds : List Definition)

/-- The registry after an edit; it stays as it is when a platform is refused. -/
def Edit.apply (r : Registry) : Edit → Registry
  | .register p =>
    match r.register p with
    | .ok r' => r'
    | .error _ => r
  | .unregister id => r.unregister id

/-- The registry after a call. -/
def Call.apply (r : Registry) : Call → Registry
  | .register p => Edit.apply r (.register p)
  | .unregister id => Edit.apply r (.unregister id)
  | .registerAll hooksFor ds => (r.registerAll hooksFor ds).1

/-- The edits that a call stands for. Of a list of definitions they are the registrations of
those that can be bound. -/
def Call.edits : Call → List Edit
  | .register p => [.register p]
  | .unregister id => [.unregister id]
  | .registerAll hooksFor ds =>
    ds.filterMap fun d => (Platform.bind d (hooksFor d)).toOption.map .register

/-- **The registry after calls**, which is empty at first. -/
def after (calls : List Call) : Registry :=
  calls.foldl Call.apply empty

/-- The registry after edits. -/
def afterEdits (edits : List Edit) : Registry :=
  edits.foldl Edit.apply empty

variable {r : Registry} {id : String} {p : Platform} {edits : List Edit}

@[simp] theorem afterEdits_nil : afterEdits [] = empty := rfl

@[simp] theorem afterEdits_concat (edits : List Edit) (e : Edit) :
    afterEdits (edits ++ [e]) = e.apply (afterEdits edits) := by
  simp [afterEdits]

/-! ### Edits -/

theorem Edit.apply_register_of_free (h : r.get? p.id = none) :
    Edit.apply r (.register p) = r.put p := by
  simp [Edit.apply, Registry.register, h]

theorem Edit.apply_register_of_taken (h : (r.get? p.id).isSome = true) :
    Edit.apply r (.register p) = r := by
  simp [Edit.apply, Registry.register, h]

/-- **What an edit changes.** -/
theorem Edit.get?_apply (r : Registry) (e : Edit) (id : String) :
    (e.apply r).get? id =
      match e with
      | .register p => (r.get? id).or (if p.id = id then some p else none)
      | .unregister other => if id = other then none else r.get? id := by
  cases e with
  | unregister other => exact get?_unregister r other id
  | register p =>
    cases hfree : r.get? p.id with
    | none =>
      rw [apply_register_of_free hfree, get?_put]
      by_cases hid : p.id = id
      · subst hid
        simp [hfree]
      · simp [hid, Ne.symm hid]
    | some q =>
      rw [apply_register_of_taken (by rw [hfree]; rfl)]
      by_cases hid : p.id = id
      · subst hid
        simp [hfree]
      · simp [hid]

/-- A turn is an edit, or nothing. -/
theorem Turn.eq_foldl {r' : Registry} {hooksFor : Definition → Hooks} {d : Definition}
    {failures : List (String × RegistrationError)} (h : Turn r hooksFor d r' failures) :
    r' = (Call.registerAll hooksFor [d]).edits.foldl Edit.apply r := by
  cases h with
  | registered bound free =>
    rw [← Platform.id_of_bind bound] at free
    simp [Call.edits, bound, Except.toOption, Edit.apply_register_of_free free]
  | taken bound taken =>
    rw [← Platform.id_of_bind bound] at taken
    simp [Call.edits, bound, Except.toOption, Edit.apply_register_of_taken taken]
  | unbound unbound => simp [Call.edits, unbound, Except.toOption]

/-- A call does what its edits do. -/
theorem Call.apply_eq (r : Registry) (c : Call) : c.apply r = c.edits.foldl Edit.apply r := by
  cases c with
  | register | unregister => rfl
  | registerAll hooksFor ds =>
    induction ds generalizing r with
    | nil => rfl
    | cons d ds ih =>
      obtain ⟨r', failures, hturn, -⟩ := exists_turn r hooksFor d
      have hrest : (r'.registerAll hooksFor ds).1 = _ := ih r'
      have hsplit : (Call.registerAll hooksFor (d :: ds)).edits =
          (Call.registerAll hooksFor [d]).edits ++ (Call.registerAll hooksFor ds).edits := by
        rw [edits, edits, edits, ← List.filterMap_append]
        rfl
      rw [Call.apply, registerAll_cons hturn, hrest, hturn.eq_foldl, hsplit, List.foldl_append]

/-- **Calls do what their edits do.** -/
theorem after_eq (calls : List Call) : after calls = afterEdits (calls.flatMap Call.edits) := by
  rw [after, afterEdits, List.foldl_flatMap]
  congr 1
  funext r c
  exact c.apply_eq r

/-! ### What is found -/

/-- **A platform has stood under an id since it was registered**: when it was, there was nothing
under the id, and ever since there has been something. -/
def StandsSince (edits : List Edit) (id : String) (p : Platform) : Prop :=
  ∃ earlier later, edits = earlier ++ .register p :: later ∧ p.id = id ∧
    (afterEdits earlier).get? id = none ∧
    ∀ between, between <+: later →
      ((afterEdits (earlier ++ .register p :: between)).get? id).isSome = true

theorem StandsSince.concat {e : Edit} (h : StandsSince edits id p)
    (he : ((e.apply (afterEdits edits)).get? id).isSome = true) :
    StandsSince (edits ++ [e]) id p := by
  obtain ⟨earlier, later, rfl, hid, hfree, hsome⟩ := h
  refine ⟨earlier, later ++ [e], by simp, hid, hfree, fun between hbetween => ?_⟩
  rcases List.prefix_concat_iff.1 hbetween with rfl | hbetween
  · rw [← afterEdits_concat] at he
    simpa using he
  · exact hsome between hbetween

theorem standsSince_register (hid : p.id = id) (hfree : (afterEdits edits).get? id = none) :
    StandsSince (edits ++ [.register p]) id p := by
  refine ⟨edits, [], rfl, hid, hfree, fun between hbetween => ?_⟩
  rw [List.prefix_nil.1 hbetween, afterEdits_concat, Edit.get?_apply]
  simp [hid, hfree]

/-- What has stood since it was registered has done so before the last edit, unless that was the
registration itself. -/
theorem StandsSince.of_concat {e : Edit} (h : StandsSince (edits ++ [e]) id p) :
    (e = .register p ∧ p.id = id ∧ (afterEdits edits).get? id = none) ∨
      (StandsSince edits id p ∧ ((e.apply (afterEdits edits)).get? id).isSome = true) := by
  obtain ⟨earlier, later, heq, hid, hfree, hsome⟩ := h
  rcases List.eq_nil_or_concat later with rfl | ⟨later, last, rfl⟩
  · obtain ⟨rfl, hlast⟩ := List.append_inj' heq rfl
    cases hlast
    exact .inl ⟨rfl, hid, hfree⟩
  · rw [List.concat_eq_append, ← List.cons_append, ← List.append_assoc] at heq
    obtain ⟨rfl, hlast⟩ := List.append_inj' heq rfl
    cases hlast
    refine .inr ⟨⟨earlier, later, rfl, hid, hfree, fun between hbetween => ?_⟩, ?_⟩
    · exact hsome between (by simpa using hbetween.trans (List.prefix_append later [e]))
    · have hall := hsome (later ++ [e]) (by simp)
      rwa [← List.cons_append, ← List.append_assoc, afterEdits_concat] at hall

/-- **Under an id is the platform that was registered when there was last nothing.** -/
theorem get?_afterEdits_eq_some_iff :
    (afterEdits edits).get? id = some p ↔ StandsSince edits id p := by
  induction edits using List.reverseRecOn with
  | nil =>
    refine ⟨nofun, ?_⟩
    rintro ⟨earlier, later, h, -⟩
    simp at h
  | append_singleton edits e ih =>
    rw [afterEdits_concat]
    constructor
    · intro h
      cases hbefore : (afterEdits edits).get? id with
      | some q =>
        -- what was there is still there
        obtain rfl : q = p := by
          rw [Edit.get?_apply, hbefore] at h
          cases e with
          | register => simpa using h
          | unregister other =>
            simp only [Option.ite_none_left_eq_some] at h
            exact Option.some.inj h.2
        exact (ih.1 hbefore).concat (by rw [h]; rfl)
      | none =>
        -- the last edit has filled the id
        rw [Edit.get?_apply, hbefore] at h
        cases e with
        | unregister other => simp at h
        | register q =>
          simp only [Option.none_or, Option.ite_none_right_eq_some, Option.some.injEq] at h
          obtain ⟨hid, rfl⟩ := h
          exact standsSince_register hid hbefore
    · intro h
      rcases h.of_concat with ⟨rfl, hid, hfree⟩ | ⟨hstands, hsome⟩
      · rw [Edit.get?_apply]
        simp [hid, hfree]
      · have hbefore := ih.2 hstands
        cases e with
        | register q =>
          rw [Edit.get?_apply, hbefore]
          rfl
        | unregister other =>
          rw [Edit.get?_apply] at hsome ⊢
          by_cases hid : id = other
          · simp [hid] at hsome
          · simpa [hid] using hbefore

/-! ### The registry after any calls -/

/-- **The registry after any calls.** Every platform stands under its own id, and the ids are
listed in the order of their bytes. Under an id is the platform that was registered when there was
last nothing under it. A platform is refused exactly when its id is taken, and then nothing is
changed. Definitions have their turns in order: each of them is registered, or is reported once,
between the failures before it and those after it, and no turn takes away what was there. A
definition that cannot be bound is reported, and all else is as if it were not there. -/
theorem after_lawful (calls : List Call) :
    (∀ e ∈ (after calls).platforms, e.2.id = e.1) ∧
    ((after calls).ids.Pairwise fun a b => Text.bytes a < Text.bytes b) ∧
    (∀ id, id ∈ (after calls).ids ↔ ∃ p, (after calls).get? id = some p) ∧
    -- what is found
    after calls = afterEdits (calls.flatMap Call.edits) ∧
    (∀ id p, (after calls).get? id = some p ↔ StandsSince (calls.flatMap Call.edits) id p) ∧
    -- one platform
    (∀ p e, (after calls).register p = .error e ↔
      (∃ q, (after calls).get? p.id = some q) ∧ e = .duplicate p.id) ∧
    (∀ p e, (after calls).register p = .error e →
      after (calls ++ [.register p]) = after calls) ∧
    -- many definitions
    (∀ hooksFor earlier d later, ∃ r failures,
      Turn ((after calls).registerAll hooksFor earlier).1 hooksFor d r failures ∧
      (after calls).registerAll hooksFor (earlier ++ d :: later) =
        ((r.registerAll hooksFor later).1,
          ((after calls).registerAll hooksFor earlier).2 ++ failures ++
            (r.registerAll hooksFor later).2) ∧
      ∀ id p, r.get? id = some p → (r.registerAll hooksFor later).1.get? id = some p) ∧
    ∀ hooksFor earlier d later cause, Platform.bind d (hooksFor d) = .error cause →
      ∃ before behind,
        ((after calls).registerAll hooksFor earlier).2 = before ∧
        ((after calls).registerAll hooksFor (earlier ++ later)).2 = before ++ behind ∧
        (after calls).registerAll hooksFor (earlier ++ d :: later) =
          (((after calls).registerAll hooksFor (earlier ++ later)).1,
            before ++ (d.id, .definition cause) :: behind) := by
  refine ⟨(after calls).keyed, ?_, fun id => ?_, after_eq calls, fun id p => ?_, fun p e => ?_,
    fun p e h => ?_, fun hooksFor earlier d later => ?_,
    fun hooksFor earlier d later cause h => ?_⟩
  · exact (after calls).pairwise_ids.imp fun h => Text.lt_iff_bytes_lt.1 h
  · rw [mem_ids_iff, Option.isSome_iff_exists]
  · rw [after_eq, get?_afterEdits_eq_some_iff]
  · rw [register_eq_error_iff, Option.isSome_iff_exists]
  · obtain ⟨htaken, -⟩ := ((after calls).register_eq_error_iff p e).1 h
    rw [after, List.foldl_append]
    exact Edit.apply_register_of_taken htaken
  · obtain ⟨r, failures, hturn, -⟩ :=
      exists_turn ((after calls).registerAll hooksFor earlier).1 hooksFor d
    refine ⟨r, failures, hturn, ?_, fun id p hp => ?_⟩
    · rw [registerAll_append, registerAll_cons hturn]
      simp
    · rw [get?_registerAll, hp, Option.some_or]
  · obtain ⟨before, behind, hall, hothers, hbefore⟩ :=
      registerAll_of_unbound h (after calls) earlier later
    exact ⟨before, behind, hbefore, hothers, hall⟩

end Syndication.Registry
