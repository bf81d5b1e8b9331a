import Spork.Effects.Footprint

/-!
# Programs that run for ever

A `Prog` is a finite tree, so a loop that need not end is not one.  It is a *body*: a program for
each value of the loop's own state, whose outcome says whether to go round again.  `Loop.Step` is
one call of the current round or the start of the next one.

`Loop.Lives` adds what a service manager does: at any moment the process may be gone, and a new one
starts from the first round in whatever world the old one left, of which `boot` says what does not
survive.

The loop rule `Loop.reaches_inv` needs the invariant `J` at the head of a round only; the crash
invariant `I` is what the body's weakest precondition carries in between, and `Loop.Lives.inv` is
where the two meet: after a crash, `I` has to be enough to establish `J` again.  `Loop.reaches_wp`
is the rule for what a loop leaves with, and `Loop.terminates` the one for a loop with a rank.
-/

set_option autoImplicit false

namespace Effects

/-- What a round of a loop ends with. -/
inductive Next (σ β : Type) : Type where
  /-- Go round again, with this state. -/
  | again (s : σ)
  /-- Leave the loop. -/
  | leave (b : β)

namespace Loop

variable {S : Sig} {W σ β : Type}

/-- A configuration: the rest of the current round, and the world. -/
abbrev Config (S : Sig) (W σ β : Type) : Type := Prog S (Next σ β) × W

/-- One call of the current round, or the start of the next one. -/
inductive Step (M : Machine S W) (body : σ → Prog S (Next σ β)) :
    Config S W σ β → Config S W σ β → Prop where
  | call {c c' : Config S W σ β} (h : Machine.Step M c c') : Step M body c c'
  | again {s : σ} {w : W} : Step M body (.done (.ok (.again s)), w) (body s, w)

/-- Any number of steps. -/
def Reaches (M : Machine S W) (body : σ → Prog S (Next σ β)) (c c' : Config S W σ β) : Prop :=
  Relation.ReflTransGen (Step M body) c c'

/-- A run of a round is a run of the loop. -/
theorem reaches_of_machine {M : Machine S W} {body : σ → Prog S (Next σ β)}
    {p p' : Prog S (Next σ β)} {w w' : W} (h : M.Reaches p w p' w') :
    Reaches M body (p, w) (p', w') := by
  have hle : Machine.Step M ≤ Step M body := fun _ _ h => .call h
  exact Relation.ReflTransGen.mono hle _ _ h

/-- A process that is started in state `s₀` and restarted any number of times; `boot` is what
starting does to the world. -/
inductive Lives (M : Machine S W) (body : σ → Prog S (Next σ β)) (s₀ : σ) (boot : W → W) (w : W) :
    Config S W σ β → Prop where
  | start {c : Config S W σ β} (h : Reaches M body (body s₀, boot w) c) : Lives M body s₀ boot w c
  | restart {c c' : Config S W σ β} (h : Lives M body s₀ boot w c)
      (h' : Reaches M body (body s₀, boot c.2) c') : Lives M body s₀ boot w c'

section Rules

variable {M : Machine S W} {body : σ → Prog S (Next σ β)} {I : W → Prop} {J : σ → W → Prop}

/-- What a round has to end with for the next one to be safe. -/
def Continues (J : σ → W → Prop) (r : S.Outcome (Next σ β)) (w : W) : Prop :=
  ∀ s, r = .ok (.again s) → J s w

/-- **The loop rule.**  If every round keeps `I` on its way and re-establishes `J` at its end, then
`I` holds in every world that the loop reaches. -/
theorem reaches_inv (hbody : ∀ s w, J s w → M.wp I (body s) (Continues J) w) {s : σ} {w : W}
    (hw : J s w) {c : Config S W σ β} (h : Reaches M body (body s, w) c) : I c.2 := by
  have key : M.wp I c.1 (Continues J) c.2 := by
    induction h with
    | refl => exact hbody s w hw
    | tail _ hs ih =>
      cases hs with
      | call h => exact Machine.wp_step ih h
      | again => exact hbody _ _ (ih.2 _ rfl)
  exact Machine.wp_inv key

/-- **The loop rule, with a postcondition.**  A first program may come before the first round. -/
theorem reaches_wp {Q : S.Outcome (Next σ β) → W → Prop}
    (hbody : ∀ s w, J s w → M.wp I (body s) Q w) (hagain : ∀ s w, Q (.ok (.again s)) w → J s w)
    {p : Prog S (Next σ β)} {w : W} (hp : M.wp I p Q w) {c : Config S W σ β}
    (h : Reaches M body (p, w) c) : M.wp I c.1 Q c.2 := by
  induction h with
  | refl => exact hp
  | tail _ hs ih =>
    cases hs with
    | call h => exact Machine.wp_step ih h
    | again => exact hbody _ _ (hagain _ _ ih.2)

/-- **A loop with a rank terminates.**  If every round that goes round again lowers the rank, no run
is infinite. -/
theorem terminates (rank : σ → Nat)
    (hbody : ∀ s w, J s w → M.wp I (body s)
      (fun r w' => ∀ s', r = .ok (.again s') → J s' w' ∧ rank s' < rank s) w) :
    ∀ (n : Nat) (p : Prog S (Next σ β)) (w : W),
      M.wp I p (fun r w' => ∀ s', r = .ok (.again s') → J s' w' ∧ rank s' < n) w →
      Acc (fun c' c : Config S W σ β => Step M body c c') (p, w) := by
  intro n
  induction n using Nat.strongRecOn with
  | ind n ihn =>
    intro p
    induction p with
    | done r =>
      refine fun w hp => .intro _ fun c' hs => ?_
      cases hs with
      | call h => cases h
      | @again s =>
        obtain ⟨hs, hrank⟩ := hp.2 s rfl
        exact ihn (rank s) hrank (body s) w (hbody s w hs)
    | call op k ihk =>
      refine fun w hp => .intro _ fun c' hs => ?_
      cases hs with
      | call h =>
        cases h with
        | call h => exact ihk _ _ (hp.2 _ _ h)

/-- The loop rule across restarts. -/
theorem Lives.inv {s₀ : σ} {boot : W → W}
    (hbody : ∀ s w, J s w → M.wp I (body s) (Continues J) w) (hboot : ∀ w, I w → J s₀ (boot w))
    {w : W} (hw : I w) {c : Config S W σ β} (h : Lives M body s₀ boot w c) : I c.2 := by
  induction h with
  | start h => exact reaches_inv hbody (hboot _ hw) h
  | restart _ h' ih => exact reaches_inv hbody (hboot _ ih) h'

end Rules

end Loop

end Effects
