import Mathlib.Data.List.Basic
import Syndication.Registry.Basic

/-!
# Registering definitions one after another

Each definition has its turn. It is registered, and nothing is reported; or it is not, and then
the registry stays as it is and the failure is reported under its id. `Registry.Turn` says which
of these it is, and `registerAll_cons` takes a list of definitions apart turn by turn.

Main statements:

* `registerAll_cons`, `registerAll_append`: the turns of a list of definitions.
* `get?_registerAll`: under an id is what was there, or else the first definition that could be
  bound.
* `registerAll_of_unbound`: a definition that cannot be bound might as well not be there.
-/

namespace Syndication.Registry

variable {r r' : Registry} {hooksFor : Definition → Hooks} {d : Definition} {id : String}
  {failures : List (String × RegistrationError)}

/-- **The turn of a definition**: the registry after it, and what is reported. -/
inductive Turn (r : Registry) (hooksFor : Definition → Hooks) (d : Definition) :
    Registry → List (String × RegistrationError) → Prop
  /-- It is registered. -/
  | registered {p : Platform} (bound : Platform.bind d (hooksFor d) = .ok p)
      (free : r.get? d.id = none) : Turn r hooksFor d (r.put p) []
  /-- Its id is taken. -/
  | taken {p : Platform} (bound : Platform.bind d (hooksFor d) = .ok p)
      (taken : (r.get? d.id).isSome = true) : Turn r hooksFor d r [(d.id, .duplicate d.id)]
  /-- It asks for a hook that is not provided. -/
  | unbound {cause : DefinitionError} (unbound : Platform.bind d (hooksFor d) = .error cause) :
      Turn r hooksFor d r [(d.id, .definition cause)]

/-- The platform of a definition for an id, if it can be bound. -/
def candidate? (hooksFor : Definition → Hooks) (id : String) (d : Definition) : Option Platform :=
  (Platform.bind d (hooksFor d)).toOption.filter (·.id == id)

theorem candidate?_eq_some_iff {p : Platform} :
    candidate? hooksFor id d = some p ↔ Platform.bind d (hooksFor d) = .ok p ∧ d.id = id := by
  unfold candidate?
  cases h : Platform.bind d (hooksFor d) with
  | error cause => simp [Except.toOption]
  | ok q =>
    have hid := Platform.id_of_bind h
    simp only [Except.toOption, Option.filter_eq_some_iff, Option.some.injEq, beq_iff_eq,
      Except.ok.injEq]
    constructor
    · rintro ⟨rfl, rfl⟩
      exact ⟨rfl, hid.symm⟩
    · rintro ⟨rfl, rfl⟩
      exact ⟨rfl, hid⟩

theorem candidate?_of_ne (h : d.id ≠ id) : candidate? hooksFor id d = none := by
  rw [Option.eq_none_iff_forall_ne_some]
  exact fun p hp => h (candidate?_eq_some_iff.1 hp).2

/-- Every definition has its turn. -/
theorem exists_turn (r : Registry) (hooksFor : Definition → Hooks) (d : Definition) :
    ∃ r' failures, Turn r hooksFor d r' failures ∧
      ∀ rest, r.registerAll hooksFor (d :: rest) =
        ((r'.registerAll hooksFor rest).1, failures ++ (r'.registerAll hooksFor rest).2) := by
  cases hbind : Platform.bind d (hooksFor d) with
  | error cause =>
    refine ⟨r, _, .unbound hbind, fun rest => ?_⟩
    simp [registerAll, registerDefinition, hbind]
  | ok p =>
    have hid := Platform.id_of_bind hbind
    cases hfound : r.get? d.id with
    | none =>
      refine ⟨r.put p, _, .registered hbind hfound, fun rest => ?_⟩
      simp [registerAll, registerDefinition, register, hbind, hid, hfound]
    | some q =>
      refine ⟨r, _, .taken hbind (by rw [hfound]; rfl), fun rest => ?_⟩
      simp [registerAll, registerDefinition, register, hbind, hid, hfound]

/-- A definition has one turn. -/
theorem Turn.unique {r₁ r₂ : Registry} {failures₁ failures₂ : List (String × RegistrationError)}
    (h₁ : Turn r hooksFor d r₁ failures₁) (h₂ : Turn r hooksFor d r₂ failures₂) :
    r₁ = r₂ ∧ failures₁ = failures₂ := by
  cases h₁ <;> cases h₂ <;> simp_all

/-- What a list of definitions does, one definition at a time. -/
theorem registerAll_cons (h : Turn r hooksFor d r' failures) (rest : List Definition) :
    r.registerAll hooksFor (d :: rest) =
      ((r'.registerAll hooksFor rest).1, failures ++ (r'.registerAll hooksFor rest).2) := by
  obtain ⟨r₁, failures₁, hturn, hcons⟩ := exists_turn r hooksFor d
  obtain ⟨rfl, rfl⟩ := hturn.unique h
  exact hcons rest

/-- Some definitions and then others. -/
theorem registerAll_append (r : Registry) (hooksFor : Definition → Hooks)
    (before after : List Definition) :
    r.registerAll hooksFor (before ++ after) =
      (((r.registerAll hooksFor before).1.registerAll hooksFor after).1,
        (r.registerAll hooksFor before).2 ++
          ((r.registerAll hooksFor before).1.registerAll hooksFor after).2) := by
  induction before generalizing r with
  | nil => rfl
  | cons d before ih =>
    obtain ⟨r', failures, hturn, -⟩ := exists_turn r hooksFor d
    rw [List.cons_append, registerAll_cons hturn, registerAll_cons hturn, ih]
    simp

/-- What a turn changes: something new may be found under the id of the definition. -/
theorem Turn.get? (h : Turn r hooksFor d r' failures) (id : String) :
    r'.get? id = (r.get? id).or (candidate? hooksFor id d) := by
  by_cases hid : d.id = id
  · subst hid
    cases h with
    | registered bound free =>
      rw [get?_put, if_pos (Platform.id_of_bind bound).symm, free, Option.none_or,
        candidate?_eq_some_iff.2 ⟨bound, rfl⟩]
    | taken bound taken =>
      obtain ⟨q, hq⟩ := Option.isSome_iff_exists.1 taken
      rw [hq, Option.some_or]
    | unbound unbound => simp [candidate?, unbound, Except.toOption]
  · rw [candidate?_of_ne hid, Option.or_none]
    cases h with
    | registered bound free =>
      rw [get?_put, if_neg (by rw [Platform.id_of_bind bound]; exact Ne.symm hid)]
    | taken | unbound => rfl

/-- **The first definition wins**: under an id is the platform that was there, or else that of the
first definition with the id that could be bound. -/
theorem get?_registerAll (r : Registry) (hooksFor : Definition → Hooks) (ds : List Definition)
    (id : String) :
    (r.registerAll hooksFor ds).1.get? id =
      (r.get? id).or (ds.findSome? (candidate? hooksFor id)) := by
  induction ds generalizing r with
  | nil => simp [registerAll]
  | cons d ds ih =>
    obtain ⟨r', failures, hturn, -⟩ := exists_turn r hooksFor d
    rw [registerAll_cons hturn, ih, hturn.get?, Option.or_assoc, List.findSome?_cons]
    cases candidate? hooksFor id d <;> rfl

/-! ### Definitions with different ids -/

section Nodup

variable {ds : List Definition} (h : (ds.map (·.id)).Nodup)

include h

/-- What is found in a registry of definitions that do not get in each other's way. -/
theorem get?_registerAll_eq_some_iff {p : Platform} :
    (empty.registerAll hooksFor ds).1.get? id = some p ↔
      ∃ d ∈ ds, d.id = id ∧ Platform.bind d (hooksFor d) = .ok p := by
  rw [get?_registerAll, get?_empty, Option.none_or, List.findSome?_eq_some_iff]
  simp only [candidate?_eq_some_iff]
  constructor
  · rintro ⟨earlier, d, later, rfl, ⟨hbind, hid⟩, -⟩
    exact ⟨d, by simp, hid, hbind⟩
  · rintro ⟨d, hd, rfl, hbind⟩
    obtain ⟨earlier, later, rfl⟩ := List.append_of_mem hd
    refine ⟨earlier, d, later, rfl, ⟨hbind, rfl⟩, fun e he => candidate?_of_ne fun heq => ?_⟩
    rw [List.map_append, List.nodup_append] at h
    exact h.2.2 e.id (List.mem_map_of_mem he) d.id (by simp) heq

/-- What is reported about them is what they cannot be bound for. -/
theorem failures_registerAll (hfree : ∀ d ∈ ds, r.get? d.id = none) :
    (r.registerAll hooksFor ds).2 = ds.filterMap fun d =>
      match Platform.bind d (hooksFor d) with
      | .error cause => some (d.id, .definition cause)
      | .ok _ => none := by
  induction ds generalizing r with
  | nil => rfl
  | cons d ds ih =>
    obtain ⟨hnew, hothers⟩ := List.nodup_cons.1 h
    obtain ⟨hd, hds⟩ := List.forall_mem_cons.1 hfree
    obtain ⟨r', failures, hturn, -⟩ := exists_turn r hooksFor d
    have hstill : ∀ e ∈ ds, r'.get? e.id = none := fun e he => by
      have hne : d.id ≠ e.id := fun heq => hnew (List.mem_map.2 ⟨e, he, heq.symm⟩)
      rw [hturn.get?, hds e he, candidate?_of_ne hne, Option.none_or]
    rw [registerAll_cons hturn, ih hothers hstill, List.filterMap_cons]
    cases hturn with
    | registered bound => rw [bound, List.nil_append]
    | taken bound taken => simp [hd] at taken
    | unbound unbound => rw [unbound, List.singleton_append]

end Nodup

/-- The ids of a registry, from the platforms in it. -/
theorem ids_eq_mergeSort {ids : List String} (h : ids.Nodup)
    (hmem : ∀ id, id ∈ ids ↔ ∃ p, r.get? id = some p) : r.ids = ids.mergeSort := by
  have hnodup : r.ids.Nodup := by
    refine r.pairwise_ids.imp ?_
    rintro id _ hlt rfl
    exact String.lt_irrefl id hlt
  refine List.Perm.eq_of_pairwise (fun a b _ _ => String.le_antisymm) ?_ ?_ ?_
  · exact r.pairwise_ids.imp fun hlt => String.not_lt.1 (String.lt_asymm hlt)
  · have hsorted : ids.mergeSort.Pairwise (decide <| · ≤ ·) := by
      refine List.pairwise_mergeSort ?_ ?_ _
      · simpa using fun a b c => String.le_trans
      · simpa using fun a b => String.le_total _ _
    exact hsorted.imp of_decide_eq_true
  · refine ((List.perm_ext_iff_of_nodup hnodup h).2 fun id => ?_).trans
      (List.mergeSort_perm _ _).symm
    rw [mem_ids_iff, Option.isSome_iff_exists, hmem]

/-- **A definition that cannot be bound** is reported in its turn, and the others fare as if it
were not there. -/
theorem registerAll_of_unbound {cause : DefinitionError}
    (h : Platform.bind d (hooksFor d) = .error cause) (r : Registry)
    (before after : List Definition) :
    ∃ earlier later,
      r.registerAll hooksFor (before ++ d :: after) =
        ((r.registerAll hooksFor (before ++ after)).1,
          earlier ++ (d.id, .definition cause) :: later) ∧
      (r.registerAll hooksFor (before ++ after)).2 = earlier ++ later ∧
      (r.registerAll hooksFor before).2 = earlier := by
  rw [registerAll_append, registerAll_append, registerAll_cons (.unbound h)]
  exact ⟨_, _, rfl, rfl, rfl⟩

end Syndication.Registry
