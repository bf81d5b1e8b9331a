import Spork.Effects.Machine

/-!
# Implementing operations

A handler is a program for each operation of a signature, over another signature with the same
errors.  `p.implement h` is `p` with its calls made by `h`.

`Implements` is what makes a handler a faithful one, under a relation between the worlds: while it
is at work, either the call has not happened or it has, and when it comes back, it has.  Then
wherever a run of the implemented program is looked at, the program has a run that stands in a
related world (`Implements.reaches`); so what holds along the runs of a program holds along those of
its implementations.
-/

set_option autoImplicit false

namespace Effects

/-- Other operations, with the same errors. -/
@[reducible] def Sig.over (S : Sig) (O : Type) (R : O → Type) : Sig := ⟨O, R, S.Err⟩

variable {S : Sig} {O : Type} {R : O → Type} {α : Type}

/-- The program with its calls made by `h`. -/
def Prog.implement (h : (op : S.Op) → Prog (S.over O R) (S.Ret op)) :
    Prog S α → Prog (S.over O R) α
  | .done r => .done (S := S.over O R) r
  | .call op k => Prog.andThen (S := S.over O R) (h op) fun r => (k r).implement h

namespace Machine

variable {W V : Type} {M : Machine S W} {N : Machine (S.over O R) V} {J : W → V → Prop}
  {h : (op : S.Op) → Prog (S.over O R) (S.Ret op)}

/-- Each handler amounts to its call. -/
def Implements (M : Machine S W) (N : Machine (S.over O R) V) (J : W → V → Prop)
    (h : (op : S.Op) → Prog (S.over O R) (S.Ret op)) : Prop :=
  ∀ op w v, J w v → wp N (fun v' => J w v' ∨ ∃ r w', M w op r w' ∧ J w' v') (h op)
    (fun r v' => ∃ w', M w op r w' ∧ J w' v') v

theorem Implements.wp (hh : Implements M N J h) {p : Prog S α} {w : W} {v : V} (hJ : J w v) :
    wp N (fun v' => ∃ p' w', Reaches M p w p' w' ∧ J w' v') (p.implement h)
      (fun r v' => ∃ w', Reaches M p w (.done r) w' ∧ J w' v') v := by
  induction p generalizing w v with
  | done r => exact ⟨⟨_, w, .refl, hJ⟩, w, .refl, hJ⟩
  | call op k ih =>
    refine (wp_andThen _).2 (wp_mono ?_ ?_ (hh op w v hJ))
    · rintro v' (hJ' | ⟨r, w', hcall, hJ'⟩)
      · exact ⟨_, w, .refl, hJ'⟩
      · exact ⟨_, w', .single (.call hcall), hJ'⟩
    · rintro r v' - ⟨w', hcall, hJ'⟩
      refine wp_mono ?_ ?_ (ih r hJ')
      · rintro v₁ ⟨p', w₁, hr, hJ₁⟩
        exact ⟨p', w₁, .head (.call hcall) hr, hJ₁⟩
      · rintro r' v₁ - ⟨w₁, hr, hJ₁⟩
        exact ⟨w₁, .head (.call hcall) hr, hJ₁⟩

/-- **A run of the implementation is a run of the program**, and ends as that one does. -/
theorem Implements.reaches (hh : Implements M N J h) {p : Prog S α} {w : W} {v v' : V}
    {q : Prog (S.over O R) α} (hJ : J w v) (hr : Reaches N (p.implement h) v q v') :
    ∃ p' w', Reaches M p w p' w' ∧ J w' v' ∧
      ∀ r, q = .done (S := S.over O R) r → p' = .done r := by
  have hwp := wp_reaches (hh.wp hJ) hr
  cases q with
  | done r =>
    obtain ⟨-, w', hp, hJ'⟩ := hwp
    refine ⟨_, w', hp, hJ', fun r' hr' => ?_⟩
    cases hr'
    rfl
  | call op k =>
    obtain ⟨p', w', hp, hJ'⟩ := wp_inv hwp
    exact ⟨p', w', hp, hJ', fun r hr => by cases hr⟩

end Machine

end Effects
