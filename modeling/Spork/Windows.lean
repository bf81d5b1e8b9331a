import Mathlib.Data.List.Basic

/-!
# Windows of a list

`slice l i j` is the part of `l` from position `i` up to position `j`.  Windows that meet are one
window, and a window of a list that only grows at its end stays what it is.
-/

set_option autoImplicit false

namespace Windows

variable {α : Type} {l m : List α} {i j k : Nat}

/-- The part of `l` from position `i` up to position `j`. -/
def slice (l : List α) (i j : Nat) : List α := (l.drop i).take (j - i)

@[simp] theorem slice_self (l : List α) (i : Nat) : slice l i i = [] := by simp [slice]

/-- Windows that meet are one window. -/
theorem slice_append_slice (hij : i ≤ j) (hjk : j ≤ k) :
    slice l i j ++ slice l j k = slice l i k := by
  have hdrop : l.drop j = (l.drop i).drop (j - i) := by rw [List.drop_drop]; congr 1; omega
  have hk : k - i = (j - i) + (k - j) := by omega
  rw [slice, slice, slice, hdrop, hk, List.take_add]

/-- A window stays what it is when the list grows. -/
theorem slice_extend (h : l <+: m) (hj : j ≤ l.length) : slice m i j = slice l i j := by
  obtain ⟨rest, rfl⟩ := h
  rcases Nat.le_total i j with hij | hji
  · rw [slice, slice, List.drop_append_of_le_length (Nat.le_trans hij hj),
      List.take_append_of_le_length]
    rw [List.length_drop]
    omega
  · simp [slice, Nat.sub_eq_zero_of_le hji]

theorem mem_slice {a : α} : a ∈ slice l i j ↔ ∃ n, i ≤ n ∧ n < j ∧ l[n]? = some a := by
  rw [slice, List.mem_iff_getElem?]
  constructor
  · rintro ⟨n, hn⟩
    rw [List.getElem?_take] at hn
    split at hn
    · rw [List.getElem?_drop] at hn
      exact ⟨i + n, by omega, by omega, hn⟩
    · cases hn
  · rintro ⟨n, hin, hnj, hn⟩
    refine ⟨n - i, ?_⟩
    rw [List.getElem?_take, if_pos (by omega), List.getElem?_drop, Nat.add_sub_cancel' hin]
    exact hn

theorem slice_sublist : (slice l i j).Sublist l :=
  (List.take_sublist _ _).trans (List.drop_sublist _ _)

theorem slice_subset : slice l i j ⊆ l := slice_sublist.subset

theorem length_slice (hij : i ≤ j) (hj : j ≤ l.length) : i + (slice l i j).length = j := by
  rw [slice, List.length_take, List.length_drop]
  omega

end Windows
