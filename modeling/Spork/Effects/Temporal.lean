import Mathlib.Order.Basic
import Mathlib.Order.Nat
import Mathlib.Tactic.Common

/-!
# Behaviours

A behaviour is an infinite sequence of states; it may stutter.  `WeaklyFair A` says that a step of
`A` which is possible from some moment on for ever is taken.

* `Behaviour.invariant`: what holds at the start and is kept by every step holds always.
* `eventually_of_rank`: a goal is reached if a fair action can be taken until then and lowers a
  rank that no step raises.
* `exists_fair`: two processes that take turns are fair, so every run goes on as a fair behaviour.
-/

set_option autoImplicit false

namespace Effects

namespace Temporal

variable {σ : Type}

/-- A step of `A` that changes something. -/
def Proper (A : σ → σ → Prop) (s s' : σ) : Prop := A s s' ∧ s' ≠ s

/-- Such a step is possible. -/
def Enabled (A : σ → σ → Prop) (s : σ) : Prop := ∃ s', Proper A s s'

/-- `WF_vars(A)`: over and over, a step of `A` is not possible or is taken. -/
def WeaklyFair (A : σ → σ → Prop) (b : Nat → σ) : Prop :=
  ∀ n, ∃ m, n ≤ m ∧ (¬Enabled A (b m) ∨ Proper A (b m) (b (m + 1)))

/-- `Init ∧ □[Next]_vars` -/
structure Behaviour (init : σ → Prop) (next : σ → σ → Prop) (b : Nat → σ) : Prop where
  init : init (b 0)
  next : ∀ n, next (b n) (b (n + 1)) ∨ b (n + 1) = b n

/-- What the start has and every step keeps, every state has. -/
theorem Behaviour.invariant {init : σ → Prop} {next : σ → σ → Prop} {b : Nat → σ}
    (hb : Behaviour init next b) {I : σ → Prop} (hinit : ∀ s, init s → I s)
    (hstep : ∀ s s', I s → next s s' → I s') (n : Nat) : I (b n) := by
  induction n with
  | zero => exact hinit _ hb.init
  | succ n ih =>
    rcases hb.next n with hnext | hstutter
    · exact hstep _ _ ih hnext
    · rwa [hstutter]

/-- **The rule for goals that are reached.** -/
theorem eventually_of_rank {A : σ → σ → Prop} {b : Nat → σ} (hfair : WeaklyFair A b)
    {G : σ → Prop} (rank : σ → Nat) (start : Nat)
    (henabled : ∀ n, start ≤ n → ¬G (b n) → Enabled A (b n))
    (hdown : ∀ n, start ≤ n → ¬G (b n) → Proper A (b n) (b (n + 1)) →
      rank (b (n + 1)) < rank (b n))
    (hkeep : ∀ n, start ≤ n → ¬G (b n) → rank (b (n + 1)) ≤ rank (b n)) :
    ∃ n, start ≤ n ∧ G (b n) := by
  by_contra hnever
  have hno : ∀ n, start ≤ n → ¬G (b n) := fun n hn hG => hnever ⟨n, hn, hG⟩
  have hle : ∀ n m, start ≤ n → n ≤ m → rank (b m) ≤ rank (b n) := by
    intro n m hn hm
    induction m, hm using Nat.le_induction with
    | base => exact le_rfl
    | succ m hm ih => exact (hkeep m (hn.trans hm) (hno m (hn.trans hm))).trans ih
  -- the next step of `A` gets below the rank of any state
  have hbelow : ∀ n, start ≤ n → ∃ m, start ≤ m ∧ rank (b m) < rank (b n) := by
    intro n hn
    obtain ⟨m, hm, hstep | hstep⟩ := hfair n
    · exact absurd (henabled m (hn.trans hm) (hno m (hn.trans hm))) hstep
    · have hless := hdown m (hn.trans hm) (hno m (hn.trans hm)) hstep
      exact ⟨m + 1, (hn.trans hm).trans (Nat.le_succ m), hless.trans_le (hle n m hn hm)⟩
  have key : ∀ k n, start ≤ n → rank (b n) ≠ k := by
    intro k
    induction k using Nat.strong_induction_on with
    | h k ih =>
      rintro n hn rfl
      obtain ⟨m, hm, hless⟩ := hbelow n hn
      exact ih _ hless m hm rfl
  exact key _ start le_rfl rfl

/-! ## Fair behaviours -/

section Fair

variable {A B : σ → σ → Prop}

open Classical in
/-- A step of `A`, if one is possible. -/
noncomputable def turn (A : σ → σ → Prop) (s : σ) : σ := if h : Enabled A s then h.choose else s

theorem turn_proper {s : σ} (h : Enabled A s) : Proper A s (turn A s) := by
  rw [turn, dif_pos h]
  exact h.choose_spec

theorem turn_step (s : σ) : A s (turn A s) ∨ turn A s = s := by
  by_cases h : Enabled A s
  · exact .inl (turn_proper h).1
  · exact .inr (by rw [turn, dif_neg h])

/-- `A` and `B`, taking turns. -/
noncomputable def turns (A B : σ → σ → Prop) (s : σ) : Nat → σ
  | 0 => s
  | n + 1 => if n % 2 = 0 then turn A (turns A B s n) else turn B (turns A B s n)

theorem turns_fair {C : σ → σ → Prop} {s : σ} {r : Nat} (hr : r < 2)
    (hturn : ∀ n, n % 2 = r → turns A B s (n + 1) = turn C (turns A B s n)) :
    WeaklyFair C (turns A B s) := by
  intro n
  obtain ⟨m, hm, hmod⟩ : ∃ m, n ≤ m ∧ m % 2 = r := ⟨2 * n + r, by omega, by omega⟩
  refine ⟨m, hm, ?_⟩
  by_cases h : Enabled C (turns A B s m)
  · exact .inr (hturn m hmod ▸ turn_proper h)
  · exact .inl h

/-- A state in front of a fair behaviour. -/
theorem WeaklyFair.cons {b : Nat → σ} (h : WeaklyFair A b) (s : σ) :
    WeaklyFair A fun n => Nat.casesOn n s b := by
  intro n
  obtain ⟨m, hm, hstep⟩ := h n
  exact ⟨m + 1, hm.trans (Nat.le_succ m), hstep⟩

/-- **Every run goes on as a fair behaviour.** -/
theorem exists_fair {s s' : σ} (h : Relation.ReflTransGen (fun s s' => A s s' ∨ B s s') s s') :
    ∃ b : Nat → σ, Behaviour (· = s) (fun s s' => A s s' ∨ B s s') b ∧ WeaklyFair A b ∧
      WeaklyFair B b ∧ ∃ n, b n = s' := by
  induction h using Relation.ReflTransGen.head_induction_on with
  | refl =>
    have heven : ∀ n, n % 2 = 0 → turns A B s' (n + 1) = turn A (turns A B s' n) :=
      fun n hn => if_pos hn
    have hodd : ∀ n, n % 2 = 1 → turns A B s' (n + 1) = turn B (turns A B s' n) :=
      fun n hn => if_neg (by omega)
    refine ⟨turns A B s', ⟨rfl, fun n => ?_⟩, turns_fair Nat.zero_lt_two heven,
      turns_fair Nat.one_lt_two hodd, 0, rfl⟩
    rcases Nat.mod_two_eq_zero_or_one n with hn | hn
    · rw [heven n hn]
      exact (turn_step _).imp_left .inl
    · rw [hodd n hn]
      exact (turn_step _).imp_left .inr
  | @head s₁ s₂ hs _ ih =>
    obtain ⟨b, hb, hA, hB, n, hn⟩ := ih
    refine ⟨fun n => Nat.casesOn n s₁ b, ⟨rfl, fun n => ?_⟩, hA.cons s₁, hB.cons s₁, n + 1, hn⟩
    cases n with
    | zero =>
      have hfirst : b 0 = s₂ := hb.init
      exact .inl (show A s₁ (b 0) ∨ B s₁ (b 0) from hfirst ▸ hs)
    | succ n => exact hb.next n

end Fair

end Temporal

end Effects
