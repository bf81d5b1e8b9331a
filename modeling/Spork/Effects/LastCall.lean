import Spork.Effects.Footprint

/-!
# Calls that nothing comes after

`p.EndsAt C` says that a call in `C` is the last one that `p` makes.  So wherever a run is looked
at, either no such call has come back or the run is over (`EndsAt.reaches`).
-/

set_option autoImplicit false

namespace Effects

namespace Prog

variable {S : Sig} {α β : Type} {C : S.Op → Prop}

/-- A call in `C` is the last one. -/
def EndsAt (C : S.Op → Prop) : Prog S α → Prop
  | .done _ => True
  | .call op k => ∀ r, EndsAt C (k r) ∧ (C op → ∃ r', k r = .done r')

theorem EndsAt.andThen {f : S.Outcome α → Prog S β} (hf : ∀ r, (f r).EndsAt C) {p : Prog S α}
    (h : p.Only fun op => ¬C op) : (p.andThen f).EndsAt C := by
  induction p with
  | done r => exact hf r
  | call op k ih => exact fun r => ⟨ih r (h.2 r), fun hC => absurd hC h.1⟩

/-- **Before the end nothing has happened** that only the calls in `C` do. -/
theorem EndsAt.reaches {W : Type} {M : Machine S W} {w : W}
    (hM : ∀ op r w₁, ¬C op → M w op r w₁ → w₁ = w) {p p₁ : Prog S α} {w₁ : W} (h : p.EndsAt C)
    (hr : Machine.Reaches M p w p₁ w₁) : w₁ = w ∨ ∃ r, p₁ = .done r := by
  have key : ∀ c : Prog S α × W, Relation.ReflTransGen (Machine.Step M) (p, w) c →
      c.1.EndsAt C ∧ (c.2 = w ∨ ∃ r, c.1 = .done r) := by
    intro c hc
    induction hc with
    | refl => exact ⟨h, .inl rfl⟩
    | tail _ hs ih =>
      obtain ⟨hends, hw⟩ := ih
      cases hs with
      | @call op k w₂ w₃ r hcall =>
        refine ⟨(hends r).1, ?_⟩
        rcases hw with rfl | ⟨r', hr'⟩
        · by_cases hC : C op
          · exact .inr ((hends r).2 hC)
          · exact .inl (hM op r w₃ hC hcall)
        · cases hr'
  exact (key (p₁, w₁) hr).2

end Prog

end Effects
