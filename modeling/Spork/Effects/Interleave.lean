import Spork.Effects.Loop
import Mathlib.Logic.Function.Basic

/-!
# Processes that share a world

Several loops over one world, one call at a time in any order.  What a process may do depends on who
it is (`M i`), which is also how a restriction on the schedule is said: a machine that refuses a
call of `i` in some worlds leaves out the runs in which the call happens there.

The rule `Interleave.reaches_inv` is rely-guarantee in its smallest form.  Each process has a *view*
of the world that only its own calls change, and its body is verified on that view alone, against a
machine `N i` that does not know about the others.  What holds of the world as a whole is then
checked call by call, and there the views of all processes may be looked at.
-/

set_option autoImplicit false

namespace Effects

namespace Interleave

variable {S : Sig} {ι W : Type} {σ β : ι → Type}

/-- What every process has left of its current round, and the world. -/
abbrev Config (S : Sig) (ι W : Type) (σ β : ι → Type) : Type :=
  ((i : ι) → Prog S (Next (σ i) (β i))) × W

/-- One call of one process, or the start of its next round. -/
inductive Step [DecidableEq ι] (M : ι → Machine S W)
    (body : (i : ι) → σ i → Prog S (Next (σ i) (β i))) :
    Config S ι W σ β → Config S ι W σ β → Prop where
  | call {ps : (i : ι) → Prog S (Next (σ i) (β i))} {w w' : W} {i : ι} {op : S.Op}
      {k : S.Outcome (S.Ret op) → Prog S (Next (σ i) (β i))} {r : S.Outcome (S.Ret op)}
      (hp : ps i = .call op k) (h : M i w op r w') :
      Step M body (ps, w) (Function.update ps i (k r), w')
  | again {ps : (i : ι) → Prog S (Next (σ i) (β i))} {w : W} {i : ι} {s : σ i}
      (hp : ps i = .done (.ok (.again s))) :
      Step M body (ps, w) (Function.update ps i (body i s), w)

/-- Any number of steps, in any order. -/
def Reaches [DecidableEq ι] (M : ι → Machine S W)
    (body : (i : ι) → σ i → Prog S (Next (σ i) (β i))) (c c' : Config S ι W σ β) : Prop :=
  Relation.ReflTransGen (Step M body) c c'

section Rule

variable [DecidableEq ι] {M : ι → Machine S W} {body : (i : ι) → σ i → Prog S (Next (σ i) (β i))}
  {V : ι → Type}

/-- **The interleaving rule.**  A call of `i` is a call of `N i` on the view of `i` and leaves every
other view alone; each body is safe on its view.  Then every view stays safe under any schedule, and
so does whatever safe calls keep of the world. -/
theorem reaches_inv (view : (i : ι) → W → V i) (N : (i : ι) → Machine S (V i))
    (I : (i : ι) → V i → Prop) (J : (i : ι) → σ i → V i → Prop) (G : W → Prop)
    (hview : ∀ {i w op r w'}, M i w op r w' → N i (view i w) op r (view i w'))
    (hother : ∀ {i j w op r w'}, M i w op r w' → j ≠ i → view j w' = view j w)
    (hbody : ∀ i s v, J i s v → (N i).wp (I i) (body i s) (Loop.Continues (J i)) v)
    (hworld : ∀ {i w op r w'}, G w → I i (view i w') → M i w op r w' → G w')
    {ps : (i : ι) → Prog S (Next (σ i) (β i))} {w : W}
    (hps : ∀ i, (N i).wp (I i) (ps i) (Loop.Continues (J i)) (view i w)) (hw : G w)
    {c : Config S ι W σ β} (h : Reaches M body (ps, w) c) : G c.2 := by
  have key : G c.2 ∧ ∀ i, (N i).wp (I i) (c.1 i) (Loop.Continues (J i)) (view i c.2) := by
    induction h with
    | refl => exact ⟨hw, hps⟩
    | tail _ hs ih =>
      obtain ⟨hG, hwp⟩ := ih
      cases hs with
      | @call ps₁ w₁ w₂ i op k r hp hM =>
        have hi : (N i).wp (I i) (k r) (Loop.Continues (J i)) (view i w₂) := by
          have hcall : (N i).wp (I i) (ps₁ i) (Loop.Continues (J i)) (view i w₁) := hwp i
          rw [hp] at hcall
          exact hcall.2 _ _ (hview hM)
        refine ⟨hworld hG (Machine.wp_inv hi) hM, fun j => ?_⟩
        by_cases hj : j = i
        · subst hj
          dsimp only
          rw [Function.update_self]
          exact hi
        · dsimp only
          rw [Function.update_of_ne hj, hother hM hj]
          exact hwp j
      | @again ps₁ w₁ i s hp =>
        refine ⟨hG, fun j => ?_⟩
        by_cases hj : j = i
        · subst hj
          have hdone : (N j).wp (I j) (ps₁ j) (Loop.Continues (J j)) (view j w₁) := hwp j
          rw [hp] at hdone
          dsimp only
          rw [Function.update_self]
          exact hbody j s _ (hdone.2 s rfl)
        · dsimp only
          rw [Function.update_of_ne hj]
          exact hwp j
  exact key.1

end Rule

/-! ## Schedules

A run in which the world answers every call in one way is fixed by who moves when. -/

section Schedules

variable [DecidableEq ι] {M : ι → Machine S W}

/-- The next step of process `i`, if it has one; a process whose call is not allowed waits. -/
def move (guard : ι → W → S.Op → Bool) (answer : ι → W → (op : S.Op) → S.Outcome (S.Ret op) × W)
    (body : (i : ι) → σ i → Prog S (Next (σ i) (β i))) (c : Config S ι W σ β) (i : ι) :
    Config S ι W σ β :=
  match c.1 i with
  | .call op k =>
    if guard i c.2 op then (Function.update c.1 i (k (answer i c.2 op).1), (answer i c.2 op).2)
    else c
  | .done (.ok (.again s)) => (Function.update c.1 i (body i s), c.2)
  | .done _ => c

/-- The run of a schedule. -/
def follow (guard : ι → W → S.Op → Bool)
    (answer : ι → W → (op : S.Op) → S.Outcome (S.Ret op) × W)
    (body : (i : ι) → σ i → Prog S (Next (σ i) (β i))) :
    List ι → Config S ι W σ β → Config S ι W σ β
  | [], c => c
  | i :: is, c => follow guard answer body is (move guard answer body c i)

theorem follow_reaches (guard : ι → W → S.Op → Bool)
    (answer : ι → W → (op : S.Op) → S.Outcome (S.Ret op) × W)
    (body : (i : ι) → σ i → Prog S (Next (σ i) (β i)))
    (h : ∀ i w op, guard i w op = true → M i w op (answer i w op).1 (answer i w op).2) :
    ∀ (is : List ι) (c : Config S ι W σ β), Reaches M body c (follow guard answer body is c)
  | [], _ => .refl
  | i :: is, c => by
    refine Relation.ReflTransGen.trans ?_ (follow_reaches guard answer body h is _)
    rw [move]
    split
    · rename_i op k hp
      split
      · exact .single (.call hp (h i c.2 op ‹_›))
      · exact .refl
    · exact .single (.again ‹_›)
    · exact .refl

end Schedules

end Interleave

end Effects
