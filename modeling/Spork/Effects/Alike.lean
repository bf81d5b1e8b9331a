import Spork.Effects.Machine

/-!
# Two runs side by side

Two programs look alike if, call by call, they make calls that look alike, and go on looking alike
whenever the answers do.  Then their runs look alike at every point, as long as they are answered
alike (`Alike.inStep`), and each run of the one is accompanied by such a run of the other
(`Alike.accompany`): what cannot be seen in calls and answers has no influence on anything that can.
-/

set_option autoImplicit false

namespace Effects

/-- Which calls look alike, and which of their answers. -/
structure Likeness (S : Sig) where
  op : S.Op → S.Op → Prop
  ret : (o o' : S.Op) → S.Outcome (S.Ret o) → S.Outcome (S.Ret o') → Prop

/-- The same error, or values that are related. -/
inductive Sig.Same (S : Sig) {α β : Type} (V : α → β → Prop) :
    S.Outcome α → S.Outcome β → Prop where
  | ok {a : α} {b : β} (h : V a b) : S.Same V (.ok a) (.ok b)
  | error (e : S.Err) : S.Same V (.error e) (.error e)

namespace Prog

variable {S : Sig} {α β γ δ : Type} {L : Likeness S}

/-- Two programs look alike, and their outcomes are related by `Q`. -/
def Alike (L : Likeness S) (Q : S.Outcome α → S.Outcome β → Prop) : Prog S α → Prog S β → Prop
  | .done r, .done r' => Q r r'
  | .call o k, .call o' k' => L.op o o' ∧ ∀ r r', L.ret o o' r r' → Alike L Q (k r) (k' r')
  | .done _, .call _ _ => False
  | .call _ _, .done _ => False

variable {Q : S.Outcome α → S.Outcome β → Prop} {R : S.Outcome γ → S.Outcome δ → Prop}
  {V : α → β → Prop} {U : γ → δ → Prop}

theorem Alike.andThen {f : S.Outcome α → Prog S γ} {f' : S.Outcome β → Prog S δ}
    (hf : ∀ r r', Q r r' → Alike L R (f r) (f' r')) {p : Prog S α} {p' : Prog S β}
    (h : Alike L Q p p') : Alike L R (p.andThen f) (p'.andThen f') := by
  induction p generalizing p' with
  | done r =>
    cases p' with
    | done r' => exact hf r r' h
    | call o' k' => exact h.elim
  | call o k ih =>
    cases p' with
    | done r' => exact h.elim
    | call o' k' => exact ⟨h.1, fun r r' hr => ih r (h.2 r r' hr)⟩

theorem Alike.bind {p : Prog S α} {p' : Prog S β} (h : Alike L (S.Same V) p p')
    {f : α → Prog S γ} {f' : β → Prog S δ}
    (hf : ∀ a b, V a b → Alike L (S.Same U) (f a) (f' b)) :
    Alike L (S.Same U) (p >>= f) (p' >>= f') := by
  refine h.andThen fun r r' hr => ?_
  cases hr with
  | ok hV => exact hf _ _ hV
  | error e => exact .error e

theorem Alike.tryCatch {p : Prog S α} {p' : Prog S β} (h : Alike L (S.Same V) p p')
    {f : S.Err → Prog S α} {f' : S.Err → Prog S β}
    (hf : ∀ e, Alike L (S.Same V) (f e) (f' e)) :
    Alike L (S.Same V) (p.tryCatch f) (p'.tryCatch f') := by
  refine h.andThen fun r r' hr => ?_
  cases hr with
  | ok hV => exact .ok hV
  | error e => exact hf e

theorem alike_pure {a : α} {b : β} (h : V a b) :
    Alike L (S.Same V) (pure a : Prog S α) (pure b : Prog S β) := .ok h

theorem alike_raise (e : S.Err) :
    Alike L (S.Same V) (raise e : Prog S α) (raise e : Prog S β) := .error e

theorem alike_perform {o o' : S.Op} {T : S.Ret o → S.Ret o' → Prop} (ho : L.op o o')
    (hret : ∀ r r', L.ret o o' r r' → S.Same T r r') :
    Alike L (S.Same T) (perform o) (perform o') := ⟨ho, hret⟩

/-- One call of each program, with answers that look alike. -/
inductive BothStep {W : Type} (L : Likeness S) (M M' : Machine S W) :
    (Prog S α × W) × Prog S β × W → (Prog S α × W) × Prog S β × W → Prop where
  | call {o o' : S.Op} {k : S.Outcome (S.Ret o) → Prog S α} {k' : S.Outcome (S.Ret o') → Prog S β}
      {w w' w₁ w₁' : W} {r : S.Outcome (S.Ret o)} {r' : S.Outcome (S.Ret o')}
      (h : M w o r w₁) (h' : M' w' o' r' w₁') (hret : L.ret o o' r r') :
      BothStep L M M' ((.call o k, w), .call o' k', w') ((k r, w₁), k' r', w₁')

/-- Two runs side by side, each call of the one answered like that of the other. -/
def InStep {W : Type} (L : Likeness S) (M M' : Machine S W)
    (c d : (Prog S α × W) × Prog S β × W) : Prop :=
  Relation.ReflTransGen (BothStep L M M') c d

/-- **What looks alike goes on looking alike** as long as the answers do. -/
theorem Alike.inStep {W : Type} {M M' : Machine S W} {c d : (Prog S α × W) × Prog S β × W}
    (h : Alike L Q c.1.1 c.2.1) (hs : InStep L M M' c d) : Alike L Q d.1.1 d.2.1 := by
  induction hs with
  | refl => exact h
  | tail _ hs ih =>
    cases hs with
    | call hc hc' hret => exact ih.2 _ _ hret

/-- **What looks alike can be run side by side**, if like calls can have like answers. -/
theorem Alike.accompany {W : Type} {M M' : Machine S W} {J : W → W → Prop}
    (hstep : ∀ o o' w w' r w₁, L.op o o' → J w w' → M w o r w₁ →
      ∃ r' w₁', M' w' o' r' w₁' ∧ L.ret o o' r r' ∧ J w₁ w₁')
    {p : Prog S α} {p' : Prog S β} (h : Alike L Q p p') {w w' : W} (hJ : J w w') {p₁ : Prog S α}
    {w₁ : W} (hr : Machine.Reaches M p w p₁ w₁) :
    ∃ p₁' w₁', InStep L M M' ((p, w), p', w') ((p₁, w₁), p₁', w₁') ∧ J w₁ w₁' := by
  have key : ∀ c : Prog S α × W, Relation.ReflTransGen (Machine.Step M) (p, w) c →
      ∃ p₁' w₁', InStep L M M' ((p, w), p', w') (c, p₁', w₁') ∧ J c.2 w₁' := by
    intro c hc
    induction hc with
    | refl => exact ⟨p', w', .refl, hJ⟩
    | tail _ hs ih =>
      obtain ⟨p₂', w₂', hrun, hJ₂⟩ := ih
      have halike := Alike.inStep h hrun
      cases hs with
      | @call o k _ _ r hcall =>
        cases p₂' with
        | done r' => exact halike.elim
        | call o' k' =>
          obtain ⟨r', w₃', hcall', hret, hJ₃⟩ := hstep o o' _ _ r _ halike.1 hJ₂ hcall
          exact ⟨k' r', w₃', hrun.tail (.call hcall hcall' hret), hJ₃⟩
  exact key (p₁, w₁) hr

/-- A program that has ended looks like one that has ended. -/
theorem Alike.of_done {r : S.Outcome α} {p' : Prog S β} (h : Alike L Q (.done r) p') :
    ∃ r', p' = .done r' ∧ Q r r' := by
  cases p' with
  | done r' => exact ⟨r', rfl, h⟩
  | call o' k' => exact h.elim

end Prog

end Effects
