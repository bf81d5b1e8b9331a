import Mathlib.Data.List.Basic

/-!
# Dicts

A dict as the assignments it was made by, in their order: under each key the last one counts.

`LastWhere` says which element of a list counts.  `get_comprehension` and `get_nested` are the two
ways in which an index is made from records: one key for a record, or a key for each item of a
record.
-/

set_option autoImplicit false

namespace Dicts

variable {κ α ρ ι : Type}

/-! ## The last of a list -/

/-- The last of these that has the property. -/
def LastWhere (p : α → Prop) (xs : List α) (x : α) : Prop :=
  ∃ before after, xs = before ++ x :: after ∧ p x ∧ ∀ y ∈ after, ¬p y

theorem LastWhere.mem {p : α → Prop} {xs : List α} {x : α} (h : LastWhere p xs x) : x ∈ xs := by
  obtain ⟨before, after, rfl, -⟩ := h
  exact List.mem_append_right _ List.mem_cons_self

theorem LastWhere.holds {p : α → Prop} {xs : List α} {x : α} (h : LastWhere p xs x) : p x := by
  obtain ⟨before, after, -, hx, -⟩ := h
  exact hx

/-- If one has it, there is a last one. -/
theorem exists_lastWhere {p : α → Prop} : ∀ {xs : List α}, (∃ x ∈ xs, p x) →
    ∃ x, LastWhere p xs x
  | [], h => by
    obtain ⟨x, hx, -⟩ := h
    cases hx
  | y :: xs, h => by
    by_cases hlater : ∃ x ∈ xs, p x
    · obtain ⟨x, before, after, rfl, hx, hafter⟩ := exists_lastWhere hlater
      exact ⟨x, y :: before, after, rfl, hx, hafter⟩
    · obtain ⟨x, hx, hp⟩ := h
      rcases List.mem_cons.1 hx with rfl | hx
      · exact ⟨x, [], xs, rfl, hp, fun z hz hpz => hlater ⟨z, hz, hpz⟩⟩
      · exact absurd ⟨x, hx, hp⟩ hlater

theorem lastWhere_cons {p : α → Prop} {x y : α} {xs : List α} :
    LastWhere p (y :: xs) x ↔
      LastWhere p xs x ∨ (y = x ∧ p x ∧ ∀ z ∈ xs, ¬p z) := by
  constructor
  · rintro ⟨before, after, he, hx, hafter⟩
    cases before with
    | nil =>
      obtain ⟨rfl, rfl⟩ := List.cons.inj he
      exact .inr ⟨rfl, hx, hafter⟩
    | cons z before =>
      obtain ⟨rfl, rfl⟩ := List.cons.inj he
      exact .inl ⟨before, after, rfl, hx, hafter⟩
  · rintro (⟨before, after, rfl, hx, hafter⟩ | ⟨rfl, hx, hafter⟩)
    · exact ⟨y :: before, after, rfl, hx, hafter⟩
    · exact ⟨[], xs, rfl, hx, hafter⟩

theorem lastWhere_append {p : α → Prop} {x : α} : ∀ {xs ys : List α},
    LastWhere p (xs ++ ys) x ↔ LastWhere p ys x ∨ LastWhere p xs x ∧ ∀ y ∈ ys, ¬p y
  | [], ys => by
    rw [List.nil_append, or_iff_left]
    rintro ⟨h, -⟩
    cases h.mem
  | z :: xs, ys => by
    rw [List.cons_append, lastWhere_cons, lastWhere_append, lastWhere_cons]
    simp only [List.mem_append, or_imp, forall_and]
    tauto

theorem lastWhere_map {β : Type} {p : β → Prop} {f : α → β} {b : β} : ∀ {xs : List α},
    LastWhere p (xs.map f) b ↔ ∃ x, LastWhere (fun x => p (f x)) xs x ∧ f x = b
  | [] => by
    refine iff_of_false (fun h => by cases h.mem) ?_
    rintro ⟨x, h, -⟩
    cases h.mem
  | y :: xs => by
    rw [List.map_cons, lastWhere_cons, lastWhere_map, List.forall_mem_map]
    constructor
    · rintro (⟨x, hx, rfl⟩ | ⟨rfl, hy, hlater⟩)
      · exact ⟨x, lastWhere_cons.2 (.inl hx), rfl⟩
      · exact ⟨y, lastWhere_cons.2 (.inr ⟨rfl, hy, hlater⟩), rfl⟩
    · rintro ⟨x, hx, rfl⟩
      rcases lastWhere_cons.1 hx with hx | ⟨rfl, hy, hlater⟩
      · exact .inl ⟨x, hx, rfl⟩
      · exact .inr ⟨rfl, hy, hlater⟩

theorem lastWhere_flatMap {β : Type} {p : β → Prop} {g : α → List β} {b : β} :
    ∀ {xs : List α}, LastWhere p (xs.flatMap g) b ↔
      ∃ x, LastWhere (fun x => ∃ i ∈ g x, p i) xs x ∧ LastWhere p (g x) b
  | [] => by
    refine iff_of_false (fun h => by cases h.mem) ?_
    rintro ⟨x, h, -⟩
    cases h.mem
  | y :: xs => by
    rw [List.flatMap_cons, lastWhere_append, lastWhere_flatMap]
    constructor
    · rintro (⟨x, hx, hb⟩ | ⟨hb, hlater⟩)
      · exact ⟨x, lastWhere_cons.2 (.inl hx), hb⟩
      · refine ⟨y, lastWhere_cons.2 (.inr ⟨rfl, ⟨b, hb.mem, hb.holds⟩, ?_⟩), hb⟩
        rintro z hz ⟨i, hi, hp⟩
        exact hlater i (List.mem_flatMap.2 ⟨z, hz, hi⟩) hp
    · rintro ⟨x, hx, hb⟩
      rcases lastWhere_cons.1 hx with hx | ⟨rfl, -, hlater⟩
      · exact .inl ⟨x, hx, hb⟩
      · refine .inr ⟨hb, fun i hi hp => ?_⟩
        obtain ⟨z, hz, hi⟩ := List.mem_flatMap.1 hi
        exact hlater z hz ⟨i, hi, hp⟩

/-! ## Dicts from records -/

section

variable [DecidableEq κ]

/-- What a dict holds under a key. -/
def get (assignments : List (κ × α)) (key : κ) : Option α := assignments.reverse.lookup key

theorem get_eq_some_iff {d : List (κ × α)} {key : κ} {a : α} :
    get d key = some a ↔ LastWhere (fun assignment => assignment.1 = key) d (key, a) := by
  rw [get, List.lookup_eq_some_iff]
  constructor
  · rintro ⟨after, before, he, hafter⟩
    refine ⟨before.reverse, after.reverse, ?_, rfl, fun entry hm hkey => ?_⟩
    · rw [← List.reverse_inj, he, List.reverse_append, List.reverse_cons, List.reverse_reverse,
        List.reverse_reverse, List.append_assoc, List.singleton_append]
    · exact bne_iff_ne.1 (hafter entry (List.mem_reverse.1 hm)) hkey.symm
  · rintro ⟨before, after, rfl, -, hafter⟩
    refine ⟨after.reverse, before.reverse, ?_, fun entry hm => bne_iff_ne.2 fun hkey => ?_⟩
    · rw [List.reverse_append, List.reverse_cons, List.append_assoc, List.singleton_append]
    · exact hafter entry (List.mem_reverse.1 hm) hkey.symm

/-- `{key(x): f(x) for x in xs}` -/
theorem get_comprehension {key : ρ → κ} {f : ρ → α} {xs : List ρ} {k : κ} {a : α} :
    get (xs.map fun x => (key x, f x)) k = some a ↔
      ∃ x, LastWhere (fun x => key x = k) xs x ∧ f x = a := by
  rw [get_eq_some_iff, lastWhere_map]
  refine exists_congr fun x => and_congr_right fun hx => ?_
  rw [Prod.mk.injEq]
  exact and_iff_right hx.holds

/-- `{key(i): f(x, i) for x in xs for i in items(x)}` -/
theorem get_nested {items : ρ → List ι} {key : ι → κ} {f : ρ → ι → α} {xs : List ρ} {k : κ}
    {a : α} :
    get (xs.flatMap fun x => (items x).map fun i => (key i, f x i)) k = some a ↔
      ∃ x, LastWhere (fun x => ∃ i ∈ items x, key i = k) xs x ∧
        ∃ i, LastWhere (fun i => key i = k) (items x) i ∧ f x i = a := by
  rw [get_eq_some_iff, lastWhere_flatMap]
  refine exists_congr fun x => and_congr ?_ ?_
  · simp only [List.mem_map, exists_exists_and_eq_and]
  · rw [lastWhere_map]
    refine exists_congr fun i => and_congr_right fun hi => ?_
    rw [Prod.mk.injEq]
    exact and_iff_right hi.holds

end

end Dicts
