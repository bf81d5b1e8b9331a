import Mathlib.Data.Finset.Card
import Mathlib.Data.Finset.Range

/-!
# Walks that may go in a circle

A walk goes from `a` to `next a` for as long as there is a next place.  Among finitely many places
it ends exactly if it never comes back to one (`ends_iff_noReturn`), and then it has ended after as
many steps as there are places (`NoReturn.walk_card`).
-/

set_option autoImplicit false

namespace Walks

variable {α : Type} {next : α → Option α} {a b : α}

/-- Where the walk from `a` is after `n` steps; `none` if it has ended. -/
def walk (next : α → Option α) (a : α) : Nat → Option α
  | 0 => some a
  | n + 1 => (next a).bind fun b => walk next b n

theorem walk_add (m n : Nat) :
    walk next a (m + n) = (walk next a m).bind fun b => walk next b n := by
  induction m generalizing a with
  | zero => rw [Nat.zero_add, walk, Option.bind_some]
  | succ m ih =>
    rw [Nat.succ_add, walk, walk, Option.bind_assoc]
    exact congrArg _ (funext fun b => ih)

/-- A walk that has ended does not go on. -/
theorem walk_none_of_le {m n : Nat} (hmn : m ≤ n) (h : walk next a m = none) :
    walk next a n = none := by
  obtain ⟨k, rfl⟩ := Nat.exists_eq_add_of_le hmn
  rw [walk_add, h, Option.bind_none]

/-- The walk never comes back to a place. -/
def NoReturn (next : α → Option α) (a : α) : Prop :=
  ∀ i j b, i < j → walk next a i = some b → walk next a j ≠ some b

/-- A walk that comes back goes round forever. -/
theorem NoReturn.of_ends {n : Nat} (h : walk next a n = none) : NoReturn next a := by
  intro i j b hij hi hj
  have hforever : ∀ m, walk next a m ≠ none := by
    intro m
    induction m using Nat.strongRecOn with
    | ind m ih =>
      intro hm
      rcases Nat.lt_or_ge m j with hmj | hjm
      · rw [walk_none_of_le hmj.le hm] at hj
        cases hj
      · -- from `j` on it goes where it went from `i` on
        obtain ⟨k, rfl⟩ := Nat.exists_eq_add_of_le hjm
        refine ih (i + k) (by omega) ?_
        rw [walk_add, hi]
        rwa [walk_add, hj] at hm
  exact hforever n h

section Finite

variable {places : Finset α} (ha : a ∈ places)
  (hclosed : ∀ b ∈ places, ∀ c, next b = some c → c ∈ places)

include hclosed in
theorem walk_mem (ha : a ∈ places) (n : Nat) : ∀ {b : α}, walk next a n = some b → b ∈ places := by
  induction n generalizing a with
  | zero =>
    intro b h
    cases h
    exact ha
  | succ n ih =>
    intro b h
    obtain ⟨c, hc, h⟩ := Option.bind_eq_some_iff.1 h
    exact ih (hclosed a ha c hc) h

include ha hclosed in
/-- Without coming back, it can only go to each place once. -/
theorem NoReturn.walk_card (h : NoReturn next a) : walk next a places.card = none := by
  by_contra hcard
  have hsome : ∀ i ∈ Finset.range (places.card + 1), ∃ b, walk next a i = some b := fun i hi =>
    Option.ne_none_iff_exists'.1 fun hnone =>
      hcard (walk_none_of_le (Nat.lt_succ_iff.1 (Finset.mem_range.1 hi)) hnone)
  have hmaps : ∀ i ∈ Finset.range (places.card + 1), (walk next a i).getD a ∈ places := by
    intro i hi
    obtain ⟨b, hb⟩ := hsome i hi
    rw [hb]
    exact walk_mem hclosed ha i hb
  obtain ⟨i, hi, j, hj, hne, heq⟩ := Finset.exists_ne_map_eq_of_card_lt_of_maps_to
    (by rw [Finset.card_range]; exact Nat.lt_succ_self _) hmaps
  obtain ⟨b, hb⟩ := hsome i hi
  obtain ⟨c, hc⟩ := hsome j hj
  rw [hb, hc, Option.getD_some, Option.getD_some] at heq
  subst heq
  rcases Nat.lt_or_gt_of_ne hne with hij | hji
  · exact h i j b hij hb hc
  · exact h j i b hji hc hb

include ha hclosed in
/-- **A walk among finitely many places ends exactly if it never comes back to one.** -/
theorem ends_iff_noReturn : (∃ n, walk next a n = none) ↔ NoReturn next a :=
  ⟨fun ⟨_, h⟩ => .of_ends h, fun h => ⟨_, h.walk_card ha hclosed⟩⟩

end Finite

end Walks
