import Spork.Effects.Machine

/-!
# Retrying

A program that raises is run again from the world it left, until it returns (`Prog.Retried`).  What
it comes to then depends on where its runs are interrupted.

A `Turn` is one run as a retrier sees it: it ends, it fails before it has done anything, or it is
*exposed*, which means that it does one half of its work, may be interrupted, and does the other
half if it is not.  `Turn.Outcome` is everything that a retried sequence of turns may have done when
it is over.  The one question asked here is when the interruptions do not show, and
`Turn.harmless_iff` answers it: the first exposed turn must owe exactly what every turn that a retry
can get to would do.
-/

set_option autoImplicit false

namespace Effects

/-- `p`, run again and again until it returns, in a world that answers every call in one way. -/
inductive Prog.Retried {S : Sig} {W α : Type}
    (answer : W → (op : S.Op) → S.Outcome (S.Ret op) × W) (p : Prog S α) : W → W → Prop where
  | returns {w : W} (h : (p.eval answer w).1.isOk = true) :
      Prog.Retried answer p w (p.eval answer w).2
  | again {w w' : W} (h : (p.eval answer w).1.isOk = false)
      (hs : Prog.Retried answer p (p.eval answer w).2 w') : Prog.Retried answer p w w'

/-- One run, as a retrier sees it. -/
inductive Turn (σ μ : Type) where
  /-- It returns, having done `l`. -/
  | ends (l : List μ)
  /-- It raises before it has done anything. -/
  | fails (next : σ)
  /-- It does `a` and then, unless it is interrupted there, `b`. -/
  | exposed (a b : List μ) (next : σ)

namespace Turn

variable {σ μ : Type}

/-- What a turn does if nothing interrupts it. -/
def uninterrupted : Turn σ μ → Option (List μ)
  | .ends l => some l
  | .fails _ => none
  | .exposed a b _ => some (a ++ b)

/-- A turn that fails is followed by another one. -/
def Fails (turn : σ → Turn σ μ) (s t : σ) : Prop := turn s = .fails t

/-- A turn that fails, or may be interrupted, is followed by another one. -/
def Retries (turn : σ → Turn σ μ) (s t : σ) : Prop :=
  turn s = .fails t ∨ ∃ a b, turn s = .exposed a b t

/-- What the turns from `s` on may have done when they are over.  They are only interrupted if
`may` says so. -/
inductive Outcome (turn : σ → Turn σ μ) (may : Prop) : σ → List μ → Prop where
  | ends {s : σ} {l : List μ} (h : turn s = .ends l) : Outcome turn may s l
  | fails {s t : σ} {l : List μ} (h : turn s = .fails t) (ho : Outcome turn may t l) :
      Outcome turn may s l
  | through {s t : σ} {a b : List μ} (h : turn s = .exposed a b t) : Outcome turn may s (a ++ b)
  | interrupted {s t : σ} {a b l : List μ} (h : turn s = .exposed a b t) (hmay : may)
      (ho : Outcome turn may t l) : Outcome turn may s (a ++ l)

/-- Interruptions do not show: what the first exposed turn owes is what every turn does that a
retry can get to. -/
def Harmless (turn : σ → Turn σ μ) (s : σ) : Prop :=
  ∀ p q a b, Relation.ReflTransGen (Fails turn) s p → turn p = .exposed a b q →
    ∀ t l, Relation.ReflTransGen (Retries turn) q t → (turn t).uninterrupted = some l → l = b

section Harmless

variable {turn : σ → Turn σ μ} {may : Prop} {s t : σ} {a b l : List μ}

theorem Outcome.of_uninterrupted (h : (turn s).uninterrupted = some l) : Outcome turn may s l := by
  cases ht : turn s with
  | ends l' =>
    rw [ht] at h
    cases h
    exact .ends ht
  | fails t =>
    rw [ht] at h
    cases h
  | exposed a b t =>
    rw [ht] at h
    cases h
    exact .through ht

theorem Outcome.of_fails (h : Relation.ReflTransGen (Fails turn) s t) (ho : Outcome turn may t l) :
    Outcome turn may s l := by
  induction h using Relation.ReflTransGen.head_induction_on with
  | refl => exact ho
  | head hs _ ih => exact .fails hs ih

/-- Whatever the turns in between have done, it is the first half of their work. -/
theorem Outcome.of_retries {P : μ → Prop}
    (hP : ∀ s a b t, turn s = .exposed a b t → (∀ x ∈ a, P x) ∧ ∀ x ∈ b, ¬P x)
    (h : Relation.ReflTransGen (Retries turn) s t) (ho : Outcome turn True t l) :
    ∃ k, (∀ x ∈ k, P x) ∧ Outcome turn True s (k ++ l) := by
  induction h using Relation.ReflTransGen.head_induction_on with
  | refl => exact ⟨[], by simp, ho⟩
  | head hs _ ih =>
    obtain ⟨k, hk, ho⟩ := ih
    rcases hs with hs | ⟨a, b, hs⟩
    · exact ⟨k, hk, .fails hs ho⟩
    · refine ⟨a ++ k, fun x hx => ?_, ?_⟩
      · rcases List.mem_append.1 hx with hx | hx
        · exact (hP _ a b _ hs).1 x hx
        · exact hk x hx
      · rw [List.append_assoc]
        exact .interrupted hs trivial ho

/-- First halves and second halves do not mix. -/
theorem eq_nil_of_append {P : μ → Prop} {k : List μ} (hk : ∀ x ∈ k, P x) (hb : ∀ x ∈ b, ¬P x)
    (h : k ++ l = b) : k = [] := by
  cases k with
  | nil => rfl
  | cons x k => exact absurd (hk x (by simp)) (hb x (by rw [← h]; simp))

/-- What every turn within reach does is all that the turns from here on can do. -/
theorem Outcome.eq_of_reach {P : μ → Prop}
    (hP : ∀ s a b t, turn s = .exposed a b t → (∀ x ∈ a, P x) ∧ ∀ x ∈ b, ¬P x)
    (hb : ∀ x ∈ b, ¬P x) (ho : Outcome turn may s l)
    (h : ∀ t l, Relation.ReflTransGen (Retries turn) s t → (turn t).uninterrupted = some l →
      l = b) : l = b := by
  induction ho with
  | ends hs => exact h _ _ .refl (by rw [hs]; rfl)
  | fails hs _ ih => exact ih fun t l ht => h t l (.head (.inl hs) ht)
  | through hs => exact h _ _ .refl (by rw [hs]; rfl)
  | @interrupted s t a b' l hs _ _ ih =>
    have hl : l = b := ih fun t l ht => h t l (.head (.inr ⟨a, b', hs⟩) ht)
    have hab : a ++ b' = b := h _ _ .refl (by rw [hs]; rfl)
    rw [eq_nil_of_append (hP s a b' t hs).1 hb hab, hl, List.nil_append]

/-- **When interruptions do not show.** -/
theorem harmless_iff {P : μ → Prop}
    (hP : ∀ s a b t, turn s = .exposed a b t → (∀ x ∈ a, P x) ∧ ∀ x ∈ b, ¬P x) (s : σ) :
    (∀ l l', Outcome turn False s l → Outcome turn True s l' → l = l') ↔ Harmless turn s := by
  constructor
  · intro h p q a b hp hexposed t l ht hl
    obtain ⟨k, hk, ho⟩ := Outcome.of_retries hP ht (.of_uninterrupted hl)
    have heq : a ++ b = a ++ (k ++ l) := h _ _ (.of_fails hp (.through hexposed))
      (.of_fails hp (.interrupted hexposed trivial ho))
    have hkl : k ++ l = b := (List.append_cancel_left heq).symm
    rw [eq_nil_of_append hk (hP p a b q hexposed).2 hkl, List.nil_append] at hkl
    exact hkl
  · intro h l l' ho ho'
    induction ho with
    | ends hs =>
      cases ho' with
      | ends hs' => rw [hs] at hs'; cases hs'; rfl
      | fails hs' | through hs' | interrupted hs' => rw [hs] at hs'; cases hs'
    | fails hs _ ih =>
      cases ho' with
      | fails hs' ho' =>
        rw [hs] at hs'
        cases hs'
        exact ih (fun p q a b hp => h p q a b (.head hs hp)) ho'
      | ends hs' | through hs' | interrupted hs' => rw [hs] at hs'; cases hs'
    | @through s t a b hs =>
      cases ho' with
      | through hs' => rw [hs] at hs'; cases hs'; rfl
      | interrupted hs' _ ho' =>
        rw [hs] at hs'
        cases hs'
        rw [ho'.eq_of_reach hP (hP s a b t hs).2 (h s t a b .refl hs)]
      | ends hs' | fails hs' => rw [hs] at hs'; cases hs'
    | interrupted _ hmay => exact hmay.elim

end Harmless

end Turn

end Effects
