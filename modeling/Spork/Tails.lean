import Mathlib.Data.List.DropRight
import Mathlib.Data.List.Induction

/-!
# The end of a list

* What is said about every element and what comes before it is said of the last element, and of the
  list without it (`forall_split_snoc`).
* Two filters on one list show the same last `n` lines if they agree on an end of the list that
  holds `n` of them, or on all of it, and only then (`map_rtake_filter_eq_iff`).
-/

set_option autoImplicit false

namespace Tails

/-! ## The last element -/

section Snoc

variable {α : Type} {xs before after : List α} {x y : α}

/-- The last element is the one that is singled out, or comes later. -/
theorem snoc_eq_split (h : xs ++ [y] = before ++ x :: after) :
    (xs = before ∧ y = x ∧ after = []) ∨
      ∃ after', xs = before ++ x :: after' ∧ after = after' ++ [y] := by
  rcases List.eq_nil_or_concat' after with rfl | ⟨after', z, rfl⟩
  · obtain ⟨hxs, hy⟩ := List.append_inj' h rfl
    exact .inl ⟨hxs, List.head_eq_of_cons_eq hy, rfl⟩
  · rw [← List.cons_append, ← List.append_assoc] at h
    obtain ⟨hxs, hy⟩ := List.append_inj' h rfl
    exact .inr ⟨after', hxs, by rw [List.head_eq_of_cons_eq hy]⟩

variable {P : List α → α → Prop}

theorem forall_split_nil : ∀ before x after, [] = before ++ x :: after → P before x :=
  fun _ _ _ h => absurd h.symm (List.append_ne_nil_of_right_ne_nil _ (List.cons_ne_nil _ _))

/-- What holds of every element and what comes before it. -/
theorem forall_split_snoc : (∀ before x after, xs ++ [y] = before ++ x :: after → P before x) ↔
    (∀ before x after, xs = before ++ x :: after → P before x) ∧ P xs y := by
  constructor
  · intro h
    refine ⟨fun before x after he => h before x (after ++ [y]) ?_, h xs y [] rfl⟩
    rw [he, List.append_assoc, List.cons_append]
  · rintro ⟨hinit, hlast⟩ before x after he
    rcases snoc_eq_split he with ⟨rfl, rfl, -⟩ | ⟨after', he, -⟩
    · exact hlast
    · exact hinit before x after' he

end Snoc

/-! ## The last elements of a filtered list -/

variable {α β : Type} {line : α → β} {p q : α → Bool}

/-- Elements with one line are not told apart. -/
def Determines (line : α → β) (p : α → Bool) (xs : List α) : Prop :=
  ∀ a ∈ xs, ∀ b ∈ xs, line a = line b → p a = p b

/-- `xs[i:]` -/
def sliceFrom (i : Int) (xs : List α) : List α :=
  if i < 0 then xs.rtake (-i).toNat else xs.drop i.toNat

/-- `xs[-n:]` is the last `n` elements, and the whole list for zero. -/
theorem sliceFrom_neg (n : Nat) (xs : List α) :
    sliceFrom (-n) xs = if n = 0 then xs else xs.rtake n := by
  rw [sliceFrom, Int.neg_neg, Int.toNat_natCast]
  cases n with
  | zero => rfl
  | succ n => rw [if_pos (by omega), if_neg n.succ_ne_zero]

theorem map_filter_eq_iff {xs : List α} (hp : Determines line p xs) (hq : Determines line q xs) :
    (xs.filter p).map line = (xs.filter q).map line ↔ ∀ x ∈ xs, p x = q x := by
  constructor
  · intro h x hx
    have hkept : ∀ {r s : α → Bool}, Determines line s xs →
        (xs.filter r).map line = (xs.filter s).map line → r x = true → s x = true := by
      intro r s hs he hrx
      have hm : line x ∈ (xs.filter s).map line := by
        rw [← he]
        exact List.mem_map_of_mem (List.mem_filter.2 ⟨hx, hrx⟩)
      obtain ⟨y, hy, hline⟩ := List.mem_map.1 hm
      obtain ⟨hy, hsy⟩ := List.mem_filter.1 hy
      rw [← hs y hy x hx hline]
      exact hsy
    exact Bool.eq_iff_iff.2 ⟨hkept hq h, hkept hp h.symm⟩
  · intro h
    rw [List.filter_congr h]

theorem Determines.of_append {xs ys : List α} (h : Determines line p (xs ++ ys)) :
    Determines line p xs := fun a ha b hb =>
  h a (List.mem_append_left ys ha) b (List.mem_append_left ys hb)

/-- What one filter shows last the other one lets through too. -/
theorem Determines.last {xs : List α} {x : α} {n : Nat} (hq : Determines line q (xs ++ [x]))
    (h : ((xs.filter p ++ [x]).rtake (n + 1)).map line = ((xs.filter q).rtake (n + 1)).map line) :
    q x = true := by
  rw [List.rtake_concat_succ, List.map_append] at h
  have hm : line x ∈ ((xs.filter q).rtake (n + 1)).map line := by
    rw [← h]
    exact List.mem_append_right _ List.mem_cons_self
  obtain ⟨y, hy, hline⟩ := List.mem_map.1 hm
  obtain ⟨hy, hqy⟩ := List.mem_filter.1 (List.mem_of_mem_drop hy)
  rw [← hq y (List.mem_append_left _ hy) x (List.mem_append_right _ List.mem_cons_self) hline]
  exact hqy

/-- The filters agree on an end of the list that holds `n` of the elements, or on all of it. -/
def AgreeOnEnd (p q : α → Bool) (n : Nat) (xs : List α) : Prop :=
  ∃ before after, xs = before ++ after ∧ (∀ x ∈ after, p x = q x) ∧
    (before = [] ∨ n ≤ (after.filter p).length)

theorem agreeOnEnd_zero (xs : List α) : AgreeOnEnd p q 0 xs :=
  ⟨xs, [], (List.append_nil xs).symm, nofun, .inr (Nat.zero_le _)⟩

theorem agreeOnEnd_nil (n : Nat) : AgreeOnEnd p q n [] := ⟨[], [], rfl, nofun, .inl rfl⟩

/-- The last element counts if the filter lets it through. -/
theorem agreeOnEnd_concat {n : Nat} {xs : List α} {x : α} :
    AgreeOnEnd p q (n + 1) (xs ++ [x]) ↔
      p x = q x ∧ AgreeOnEnd p q (if p x = true then n else n + 1) xs := by
  have hcount : ∀ after : List α, n + 1 ≤ ((after ++ [x]).filter p).length ↔
      (if p x = true then n else n + 1) ≤ (after.filter p).length := by
    intro after
    rw [List.filter_append, List.length_append, List.filter_singleton]
    cases p x with
    | true => exact Nat.succ_le_succ_iff
    | false => exact Iff.rfl
  constructor
  · rintro ⟨before, after, he, hsame, hlong⟩
    rcases List.eq_nil_or_concat after with rfl | ⟨after, y, rfl⟩
    · rcases hlong with rfl | hlong
      · exact absurd he (List.append_ne_nil_of_right_ne_nil _ (List.cons_ne_nil _ _))
      · exact absurd hlong (Nat.not_succ_le_zero n)
    · rw [List.concat_eq_append] at he hsame hlong
      rw [← List.append_assoc] at he
      obtain ⟨rfl, hx⟩ := List.append_inj' he rfl
      obtain rfl := List.singleton_inj.1 hx
      obtain ⟨hsame, hx⟩ := List.forall_mem_append.1 hsame
      exact ⟨hx x List.mem_cons_self, before, after, rfl, hsame, hlong.imp_right (hcount after).1⟩
  · rintro ⟨hx, before, after, rfl, hsame, hlong⟩
    exact ⟨before, after ++ [x], List.append_assoc _ _ _,
      List.forall_mem_append.2 ⟨hsame, List.forall_mem_singleton.2 hx⟩,
      hlong.imp_right (hcount after).2⟩

/-- **Two filters show the same last lines exactly if they agree on an end of the list** that is
long enough. -/
theorem map_rtake_filter_eq_iff {xs : List α} (hp : Determines line p xs)
    (hq : Determines line q xs) (n : Nat) :
    ((xs.filter p).rtake n).map line = ((xs.filter q).rtake n).map line ↔
      ∃ before after, xs = before ++ after ∧ (∀ x ∈ after, p x = q x) ∧
        (before = [] ∨ n ≤ (after.filter p).length) := by
  show _ ↔ AgreeOnEnd p q n xs
  -- from the end of the list, where the last elements are
  induction xs using List.reverseRecOn generalizing n with
  | nil => exact iff_of_true rfl (agreeOnEnd_nil n)
  | append_singleton xs x ih =>
    cases n with
    | zero =>
      rw [List.rtake_zero, List.rtake_zero]
      exact iff_of_true rfl (agreeOnEnd_zero _)
    | succ n =>
      rw [agreeOnEnd_concat, ← ih hp.of_append hq.of_append, List.filter_append,
        List.filter_append, List.filter_singleton, List.filter_singleton]
      cases hpx : p x with
      | true =>
        cases hqx : q x with
        | true =>
          simp only [cond_true, List.rtake_concat_succ, List.map_append, List.append_left_inj,
            if_true, true_and]
        | false =>
          rw [cond_true, cond_false, List.append_nil]
          refine iff_of_false (fun h => ?_) nofun
          rw [hq.last h] at hqx
          cases hqx
      | false =>
        cases hqx : q x with
        | true =>
          rw [cond_true, cond_false, List.append_nil]
          refine iff_of_false (fun h => ?_) nofun
          rw [hp.last h.symm] at hpx
          cases hpx
        | false => simp only [cond_false, List.append_nil, Bool.false_eq_true, if_false, true_and]

end Tails
