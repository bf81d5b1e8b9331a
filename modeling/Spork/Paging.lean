import Spork.Windows
import Mathlib.Data.List.ReduceOption

/-!
# Paging through a window

A window is read a page at a time, and some of its entries are gone by the time they are read.
`sweep` is what a reader sees who counts what he has seen against a limit, who asks for no more than
he may still see, and who takes a page with nothing on it for the end.

* Where nothing is missing, he sees everything up to the limit (`sweep_of_full`).
* With a limit for all of it, he sees everything that is left exactly if no page is wholly gone
  before the last entry that is not (`sweep_eq_iff`).
-/

set_option autoImplicit false

namespace Windows

variable {α : Type}

/-- The entries of the page at `position`, when `processed` entries have been seen. -/
def page (window : List (Option α)) (pageSize limit position processed : Nat) : List (Option α) :=
  (window.drop position).take (min pageSize (limit - processed))

theorem length_page (window : List (Option α)) (pageSize limit position processed : Nat) :
    (page window pageSize limit position processed).length
      = min (min pageSize (limit - processed)) (window.length - position) := by
  rw [page, List.length_take, List.length_drop]

theorem length_reduceOption_page_le (window : List (Option α))
    (pageSize limit position processed : Nat) :
    (page window pageSize limit position processed).reduceOption.length ≤ limit - processed := by
  refine Nat.le_trans (List.reduceOption_length_le _) ?_
  rw [length_page]
  omega

/-- A page, and what comes after it. -/
theorem drop_eq_page_append (window : List (Option α)) (pageSize limit position processed : Nat) :
    window.drop position = page window pageSize limit position processed ++
      window.drop (position + (page window pageSize limit position processed).length) := by
  rw [length_page, page, ← List.drop_drop]
  rcases Nat.le_total (min pageSize (limit - processed)) (window.length - position) with h | h
  · rw [Nat.min_eq_left h, List.take_append_drop]
  · have hall : (window.drop position).length ≤ window.length - position :=
      Nat.le_of_eq List.length_drop
    rw [Nat.min_eq_right h, List.take_of_length_le (Nat.le_trans hall h),
      List.drop_of_length_le hall, List.append_nil]

/-- What is seen from `position` on, when `processed` entries have been seen before. -/
def sweep (window : List (Option α)) (pageSize limit position processed : Nat) : List α :=
  if processed < limit ∧ 0 < pageSize ∧ position < window.length then
    let es := page window pageSize limit position processed
    if es.reduceOption = [] then []
    else es.reduceOption ++
      sweep window pageSize limit (position + es.length) (processed + es.reduceOption.length)
  else []
termination_by window.length - position
decreasing_by
  rw [length_page]
  omega

/-- At the limit nothing more is seen. -/
theorem sweep_of_limit {window : List (Option α)} {pageSize limit position processed : Nat}
    (h : limit ≤ processed) : sweep window pageSize limit position processed = [] := by
  rw [sweep, if_neg (fun h' => Nat.not_lt.mpr h h'.1)]

/-- Nor at the end of the window. -/
theorem sweep_of_end {window : List (Option α)} {pageSize limit position processed : Nat}
    (h : window.length ≤ position) : sweep window pageSize limit position processed = [] := by
  rw [sweep, if_neg (fun h' => Nat.not_lt.mpr h h'.2.2)]

/-- What is left to see: this page and the rest, or nothing. -/
theorem sweep_of_page {window : List (Option α)} {pageSize limit position processed : Nat}
    (hlimit : processed < limit) (hsize : 0 < pageSize) :
    sweep window pageSize limit position processed =
      if (page window pageSize limit position processed).reduceOption = [] then []
      else (page window pageSize limit position processed).reduceOption ++
        sweep window pageSize limit
          (position + (page window pageSize limit position processed).length)
          (processed + (page window pageSize limit position processed).reduceOption.length) := by
  by_cases hposition : position < window.length
  · rw [sweep, if_pos ⟨hlimit, hsize, hposition⟩]
  · have hpage : page window pageSize limit position processed = [] := by
      rw [← List.length_eq_zero_iff, length_page]
      omega
    rw [sweep_of_end (Nat.not_lt.mp hposition), hpage]
    rfl

theorem reduceOption_map_some (as : List α) : (as.map some).reduceOption = as := by
  simp [List.reduceOption]

/-- What is seen is seen in order, and nothing is passed over. -/
theorem sweep_initial (window : List (Option α)) (pageSize limit position processed : Nat) :
    sweep window pageSize limit position processed <+: (window.drop position).reduceOption := by
  fun_induction sweep window pageSize limit position processed with
  | case1 position processed hgo es hgone => exact List.nil_prefix
  | case2 position processed hgo es hthere ih =>
    rw [drop_eq_page_append window pageSize limit position processed, List.reduceOption_append]
    exact (List.prefix_append_right_inj _).mpr ih
  | case3 position processed hstop => exact List.nil_prefix

/-- Where nothing is missing, everything is seen up to the limit. -/
theorem sweep_of_full {as : List α} {pageSize limit : Nat} (hsize : 0 < pageSize)
    (position processed : Nat) : sweep (as.map some) pageSize limit position processed
      = (as.drop position).take (limit - processed) := by
  induction hn : as.length - position using Nat.strongRecOn generalizing position processed with
  | ind n ih =>
    by_cases hlimit : processed < limit
    · have hpage : page (as.map some) pageSize limit position processed
          = ((as.drop position).take (min pageSize (limit - processed))).map some := by
        rw [page, ← List.map_drop, ← List.map_take]
      have hlength : (page (as.map some) pageSize limit position processed).length
          = min (min pageSize (limit - processed)) (as.length - position) := by
        rw [length_page, List.length_map]
      rw [sweep_of_page hlimit hsize, hlength, hpage, reduceOption_map_some]
      split
      · rename_i hnil
        have hdrop : as.drop position = [] := by
          rw [List.take_eq_nil_iff] at hnil
          exact hnil.resolve_left (by omega)
        rw [hdrop, List.take_nil]
      · rename_i hne
        have hposition : position < as.length := by
          by_contra hge
          rw [List.drop_of_length_le (by omega), List.take_nil] at hne
          exact hne rfl
        rw [List.length_take, List.length_drop, ih _ (by omega) _ _ rfl]
        rcases Nat.le_total (min pageSize (limit - processed)) (as.length - position) with h | h
        · rw [Nat.min_eq_left h, ← List.drop_drop, ← List.take_add]
          congr 1
          omega
        · have hall : (as.drop position).length ≤ min pageSize (limit - processed) := by
            rw [List.length_drop]
            exact h
          have hrest : as.drop (position + (as.length - position)) = [] :=
            List.drop_of_length_le (by omega)
          rw [Nat.min_eq_right h, List.take_of_length_le hall,
            List.take_of_length_le (Nat.le_trans hall (Nat.min_le_right _ _)), hrest,
            List.take_nil, List.append_nil]
    · rw [sweep_of_limit (by omega), Nat.sub_eq_zero_of_le (by omega), List.take_zero]

/-- With a limit for all of it, a page is a slice of the window. -/
theorem page_eq_slice {window : List (Option α)} {pageSize limit position processed : Nat}
    (hlimit : window.length ≤ limit) (hle : processed ≤ position) :
    page window pageSize limit position processed =
      slice window position (position + pageSize) := by
  rw [page, slice, Nat.add_sub_cancel_left]
  rcases Nat.le_total pageSize (limit - processed) with h | h
  · rw [Nat.min_eq_left h]
  · have hall : (window.drop position).length ≤ limit - processed := by
      rw [List.length_drop]
      omega
    rw [Nat.min_eq_right h, List.take_of_length_le hall,
      List.take_of_length_le (Nat.le_trans hall h)]

/-- With a limit for all of it, everything that is left is seen exactly if no page is wholly gone
before the last entry that is not. -/
theorem sweep_eq_iff {window : List (Option α)} {pageSize limit : Nat} (hsize : 0 < pageSize)
    (hlimit : window.length ≤ limit) {position processed : Nat} (hle : processed ≤ position) :
    sweep window pageSize limit position processed = (window.drop position).reduceOption ↔
      ∀ i, position + i * pageSize < window.length →
        (slice window (position + i * pageSize) (position + i * pageSize + pageSize)).reduceOption
          = [] →
        (window.drop (position + i * pageSize)).reduceOption = [] := by
  induction hn : window.length - position using Nat.strongRecOn generalizing position processed with
  | ind n ih =>
    by_cases hposition : position < window.length
    · have hpage : page window pageSize limit position processed = _ := page_eq_slice hlimit hle
      have hlength := length_page window pageSize limit position processed
      have hrest := drop_eq_page_append window pageSize limit position processed
      rw [sweep_of_page (by omega) hsize]
      generalize page window pageSize limit position processed = es at hpage hlength hrest ⊢
      have hseen := List.reduceOption_length_le es
      by_cases hgone : es.reduceOption = []
      · rw [if_pos hgone]
        constructor
        · -- what comes later is part of what is left, which is nothing
          intro hleft i _ _
          rw [← List.drop_drop]
          refine List.sublist_nil.mp ?_
          rw [hleft]
          exact (List.drop_sublist _ _).filterMap id
        · intro hall
          have hfirst := hall 0 (by omega)
          rw [Nat.zero_mul, Nat.add_zero, ← hpage] at hfirst
          exact (hfirst hgone).symm
      · rw [if_neg hgone, hrest, List.reduceOption_append, List.append_cancel_left_eq,
          ih _ (by omega) (by omega) rfl]
        have hshift : ∀ i, position + (i + 1) * pageSize = position + pageSize + i * pageSize := by
          intro i
          rw [Nat.succ_mul]
          omega
        rcases Nat.lt_or_ge (position + es.length) window.length with hmore | hend
        · -- a full page: the pages behind it are the later pages
          have hfull : es.length = pageSize := by omega
          rw [hfull]
          constructor
          · intro hall i hi hslice
            cases i with
            | zero =>
              rw [Nat.zero_mul, Nat.add_zero, ← hpage] at hslice
              exact absurd hslice hgone
            | succ i =>
              rw [hshift] at hi hslice ⊢
              exact hall i hi hslice
          · intro hall i hi hslice
            rw [← hshift] at hi hslice ⊢
            exact hall (i + 1) hi hslice
        · -- the last page
          constructor
          · intro _ i hi hslice
            cases i with
            | zero =>
              rw [Nat.zero_mul, Nat.add_zero, ← hpage] at hslice
              exact absurd hslice hgone
            | succ i =>
              rw [hshift] at hi
              omega
          · intro _ i hi
            omega
    · rw [sweep_of_end (by omega), List.drop_of_length_le (by omega)]
      refine ⟨fun _ i hi => ?_, fun _ => rfl⟩
      omega

end Windows
