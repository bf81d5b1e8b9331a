import Spork.Effects.Prog
import Mathlib.Logic.Relation

/-!
# Running programs

A `Machine` says what a call may do: from the world `w`, the call `op` may come back with `r` and
leave the world `w'`.  It is a relation, so "the collaborator answers whatever it likes", "the
store may fail" and "another process moved first" are all said by what the relation allows.

`Machine.Step` is one call of a program, `Machine.Reaches` any number of them.  A run is not
obliged to finish: every configuration on the way is reached, so a crash is simply a run that is
looked at early and never resumed.

`Machine.wp` is the weakest precondition of a program with respect to two things at once: an
invariant `I` that has to hold in *every* world on the way, which is what survives a crash, and a
postcondition on the outcome.  `wp_reaches` is its soundness, and the rest of the development
only ever uses `wp` through the rules below it.

Finally `Prog.eval` runs a program against a world that answers deterministically.
-/

set_option autoImplicit false

namespace Effects

/-- What the calls of a signature may do to a world of type `W`. -/
abbrev Machine (S : Sig) (W : Type) : Type :=
  W → (op : S.Op) → S.Outcome (S.Ret op) → W → Prop

namespace Machine

variable {S : Sig} {W : Type} {α β : Type} {M : Machine S W}

/-! ## Small steps -/

/-- One call of a program, in a world. -/
inductive Step (M : Machine S W) : Prog S α × W → Prog S α × W → Prop where
  | call {op : S.Op} {k : S.Outcome (S.Ret op) → Prog S α} {w w' : W} {r : S.Outcome (S.Ret op)}
      (h : M w op r w') : Step M (.call op k, w) (k r, w')

/-- Any number of calls. -/
def Reaches (M : Machine S W) (p : Prog S α) (w : W) (p' : Prog S α) (w' : W) : Prop :=
  Relation.ReflTransGen (Step M) (p, w) (p', w')

/-- The machine that does what `M` does, where a call is only made if `G` holds before it. -/
def guarded (M : Machine S W) (G : W → S.Op → Prop) : Machine S W :=
  fun w op r w' => G w op ∧ M w op r w'

/-- **How far a sequence has come**: it is in its first part, or behind it. -/
theorem Reaches.bind_cases {p : Prog S α} {f : α → Prog S β} {c : Prog S β} {w w' : W}
    (h : Reaches M (p >>= f) w c w') :
    (∃ q, Reaches M p w q w' ∧ c = q >>= f ∧ ∀ a, q ≠ .done (.ok a)) ∨
      ∃ a w₁, Reaches M p w (.done (.ok a)) w₁ ∧ Reaches M (f a) w₁ c w' := by
  have key : ∀ x, Relation.ReflTransGen (Step M) (p >>= f, w) x →
      (∃ q, Reaches M p w q x.2 ∧ x.1 = q >>= f ∧ ∀ a, q ≠ .done (.ok a)) ∨
        ∃ a w₁, Reaches M p w (.done (.ok a)) w₁ ∧ Reaches M (f a) w₁ x.1 x.2 := by
    have hstand : ∀ q w₁, Reaches M p w q w₁ →
        (∃ q', Reaches M p w q' w₁ ∧ q >>= f = q' >>= f ∧ ∀ a, q' ≠ .done (.ok a)) ∨
          ∃ a w₂, Reaches M p w (.done (.ok a)) w₂ ∧ Reaches M (f a) w₂ (q >>= f) w₁ := by
      intro q w₁ hq
      by_cases hdone : ∃ a, q = .done (.ok a)
      · obtain ⟨a, rfl⟩ := hdone
        exact .inr ⟨a, w₁, hq, .refl⟩
      · exact .inl ⟨q, hq, rfl, fun a ha => hdone ⟨a, ha⟩⟩
    intro x hx
    induction hx with
    | refl => exact hstand p w .refl
    | @tail y z _ hs ih =>
      rcases ih with ⟨q, hq, hy, hne⟩ | ⟨a, w₁, hp, hf⟩
      · obtain ⟨y, wy⟩ := y
        obtain rfl : y = q >>= f := hy
        cases q with
        | call op k =>
          cases hs with
          | @call op _ w₁ w₂ r hc => exact hstand (k r) w₂ (hq.tail (.call hc))
        | done r =>
          cases r with
          | ok a => exact absurd rfl (hne a)
          | error e => cases hs
      · exact .inr ⟨a, w₁, hp, hf.tail hs⟩
  exact key (c, w') h

/-! ## Weakest preconditions -/

/-- From `w`, every world on the way of `p` satisfies `I`, and if `p` finishes, its outcome and
the world it finishes in satisfy `Q`. -/
def wp (M : Machine S W) (I : W → Prop) : Prog S α → (S.Outcome α → W → Prop) → W → Prop
  | .done r, Q, w => I w ∧ Q r w
  | .call op k, Q, w => I w ∧ ∀ r w', M w op r w' → wp M I (k r) Q w'

variable {I : W → Prop} {Q : S.Outcome α → W → Prop} {w : W}

theorem wp_inv {p : Prog S α} (h : wp M I p Q w) : I w := by
  cases p with
  | done r => exact h.1
  | call op k => exact h.1

theorem wp_step {p p' : Prog S α} {w' : W} (h : wp M I p Q w) (hs : Step M (p, w) (p', w')) :
    wp M I p' Q w' := by
  cases hs with
  | call hc => exact h.2 _ _ hc

/-- **Soundness.**  Whatever a run reaches still satisfies the weakest precondition. -/
theorem wp_reaches {p p' : Prog S α} {w' : W} (h : wp M I p Q w) (hr : Reaches M p w p' w') :
    wp M I p' Q w' := by
  have key : ∀ c : Prog S α × W, Relation.ReflTransGen (Step M) (p, w) c → wp M I c.1 Q c.2 := by
    intro c hc
    induction hc with
    | refl => exact h
    | tail _ hs ih => exact wp_step ih hs
  exact key (p', w') hr

theorem wp_mono {I' : W → Prop} {Q' : S.Outcome α → W → Prop} (hI : ∀ w, I w → I' w)
    (hQ : ∀ r w, I w → Q r w → Q' r w) :
    ∀ {p : Prog S α} {w : W}, wp M I p Q w → wp M I' p Q' w
  | .done _, _, h => ⟨hI _ h.1, hQ _ _ h.1 h.2⟩
  | .call _ _, _, h => ⟨hI _ h.1, fun _ _ hc => wp_mono hI hQ (h.2 _ _ hc)⟩

/-! ### The rules -/

section Rules

variable {R : S.Outcome β → W → Prop}

theorem wp_call {op : S.Op} {k : S.Outcome (S.Ret op) → Prog S α} :
    wp M I (.call op k) Q w ↔ I w ∧ ∀ r w', M w op r w' → wp M I (k r) Q w' := Iff.rfl

/-- Sequencing: what follows has to be safe from whatever the first half leaves. -/
theorem wp_andThen (f : S.Outcome α → Prog S β) :
    ∀ {p : Prog S α} {w : W},
      wp M I (p.andThen f) R w ↔ wp M I p (fun r w' => wp M I (f r) R w') w
  | .done r, w => ⟨fun h => ⟨wp_inv (p := f r) h, h⟩, fun h => h.2⟩
  | .call op k, w => by
    rw [Prog.andThen, wp_call, wp_call]
    exact and_congr Iff.rfl (forall_congr' fun r => forall_congr' fun w' =>
      imp_congr Iff.rfl (wp_andThen f))

theorem wp_bind {p : Prog S α} {f : α → Prog S β} :
    wp M I (p >>= f) R w ↔ wp M I p (fun r w' => wp M I (Prog.onValue f r) R w') w :=
  wp_andThen _

theorem wp_tryCatch {p : Prog S α} {h : S.Err → Prog S α} :
    wp M I (p.tryCatch h) Q w ↔ wp M I p (fun r w' => wp M I (Prog.onError h r) Q w') w :=
  wp_andThen _

/-- One call followed by the rest: both ways of coming back have to be safe. -/
theorem wp_perform_bind {op : S.Op} {f : S.Ret op → Prog S β} (hI : I w)
    (hok : ∀ a w', M w op (.ok a) w' → wp M I (f a) R w')
    (herr : ∀ e w', M w op (.error e) w' → I w' ∧ R (.error e) w') :
    wp M I (Prog.perform op >>= f) R w := by
  refine ⟨hI, fun r w' hc => ?_⟩
  cases r with
  | ok a => exact hok a w' hc
  | error e => exact herr e w' hc

/-- One call at the very end. -/
theorem wp_perform {op : S.Op} {T : S.Outcome (S.Ret op) → W → Prop} (hI : I w)
    (h : ∀ r w', M w op r w' → I w' ∧ T r w') : wp M I (Prog.perform op) T w :=
  ⟨hI, fun r w' hc => h r w' hc⟩

end Rules

end Machine

/-! ## Deterministic worlds -/

/-- Run `p` to its end in a world that answers every call in one way. -/
def Prog.eval {S : Sig} {W α : Type} (answer : W → (op : S.Op) → S.Outcome (S.Ret op) × W) :
    Prog S α → W → S.Outcome α × W
  | .done r, w => (r, w)
  | .call op k, w => (k (answer w op).1).eval answer (answer w op).2

section Eval

variable {S : Sig} {W α β : Type} {answer : W → (op : S.Op) → S.Outcome (S.Ret op) × W}

theorem Prog.eval_andThen (p : Prog S α) (f : S.Outcome α → Prog S β) (w : W) :
    (p.andThen f).eval answer w = (f (p.eval answer w).1).eval answer (p.eval answer w).2 := by
  induction p generalizing w with
  | done r => rfl
  | call op k ih => exact ih _ _

theorem Prog.eval_bind_ok {p : Prog S α} {f : α → Prog S β} {a : α} {w w₁ : W}
    (h : p.eval answer w = (.ok a, w₁)) : (p >>= f).eval answer w = (f a).eval answer w₁ := by
  rw [Prog.bind_def, eval_andThen, h]
  rfl

theorem Prog.eval_bind_error {p : Prog S α} {f : α → Prog S β} {e : S.Err} {w w₁ : W}
    (h : p.eval answer w = (.error e, w₁)) : (p >>= f).eval answer w = (.error e, w₁) := by
  rw [Prog.bind_def, eval_andThen, h]
  rfl

end Eval

/-- An evaluation is a run of every machine that allows the answers it was given. -/
theorem Prog.eval_reaches {S : Sig} {W α : Type} {M : Machine S W}
    {answer : W → (op : S.Op) → S.Outcome (S.Ret op) × W}
    (h : ∀ w op, M w op (answer w op).1 (answer w op).2) :
    ∀ (p : Prog S α) (w : W),
      M.Reaches p w (.done (p.eval answer w).1) (p.eval answer w).2
  | .done _, _ => .refl
  | .call op k, w => .head (.call (h w op)) (eval_reaches h (k _) _)

end Effects
