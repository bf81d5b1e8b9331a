import Spork.Verification.ControlPlaneDrain

/-!
# The drain protocol without its atomic step

`verification/tla/ControlPlaneDrainNonAtomic.tla`: the queue is taken in one step and emptied in
another.  What is enqueued in between is gone, and no fairness brings it back
(`any_event_can_be_lost`).
-/

set_option autoImplicit false

namespace Spork

namespace ControlPlaneDrainNonAtomic

open Effects Temporal
open ControlPlaneDrain (State IPC start AllEventsEventuallyWritten)

variable {E : Type}

/-- `Loop`. -/
inductive Loop : State E → State E → Prop where
  | loopStep {s : State E} (hpc : s.loop = .loopStep) :
      Loop s { s with draining := s.pending, loop := .reset }
  | reset {s : State E} (hpc : s.loop = .reset) :
      Loop s { s with pending := [], loop := .drainWrite }
  | drainWrite {s : State E} {e : E} {rest : List E} (hpc : s.loop = .drainWrite)
      (he : s.draining = e :: rest) :
      Loop s { s with writtenLog := s.writtenLog ++ [e], draining := rest }
  | drained {s : State E} (hpc : s.loop = .drainWrite) (hnone : s.draining = []) :
      Loop s { s with loop := .loopStep }

/-- `Next`. -/
def Next (s s' : State E) : Prop := IPC s s' ∨ Loop s s'

/-- `Spec`. -/
structure Spec (EVENTS : Set E) (b : Nat → State E) : Prop where
  behaviour : Behaviour (· = start EVENTS) Next b
  ipc : WeaklyFair IPC b
  loop : WeaklyFair Loop b

/-- The event is nowhere. -/
structure Lost (e : E) (s : State E) : Prop where
  pending : e ∉ s.pending
  draining : e ∉ s.draining
  writtenLog : e ∉ s.writtenLog
  toEnqueue : e ∉ s.toEnqueue

/-- An event that is lost stays lost. -/
theorem Lost.step {e : E} {s s' : State E} (h : Lost e s) (hs : Next s s') : Lost e s' := by
  rcases hs with hs | hs
  · cases hs with
    | @enqueue x hpc hx =>
      have hne : e ≠ x := by
        rintro rfl
        exact h.toEnqueue hx
      refine ⟨?_, h.draining, h.writtenLog, fun he => h.toEnqueue he.1⟩
      rw [List.mem_append, List.mem_singleton, not_or]
      exact ⟨h.pending, hne⟩
    | finish => exact ⟨h.pending, h.draining, h.writtenLog, h.toEnqueue⟩
  · cases hs with
    | loopStep => exact ⟨h.pending, h.pending, h.writtenLog, h.toEnqueue⟩
    | reset => exact ⟨List.not_mem_nil, h.draining, h.writtenLog, h.toEnqueue⟩
    | @drainWrite x rest hpc hx =>
      have hdraining := h.draining
      rw [hx, List.mem_cons, not_or] at hdraining
      refine ⟨h.pending, hdraining.2, ?_, h.toEnqueue⟩
      rw [List.mem_append, List.mem_singleton, not_or]
      exact ⟨h.writtenLog, hdraining.1⟩
    | drained => exact ⟨h.pending, h.draining, h.writtenLog, h.toEnqueue⟩

/-- What is written stays written. -/
theorem written_step {e : E} {s s' : State E} (h : e ∈ s.writtenLog) (hs : Next s s') :
    e ∈ s'.writtenLog := by
  rcases hs with hs | hs
  · cases hs with
    | enqueue | finish => exact h
  · cases hs with
    | loopStep | reset | drained => exact h
    | drainWrite => exact List.mem_append_left _ h

/-- Taking the queue, an event that comes in between, and emptying the queue. -/
theorem exists_lost {EVENTS : Set E} {e : E} (he : e ∈ EVENTS) :
    ∃ s, Relation.ReflTransGen (fun s s' => IPC s s' ∨ Loop s s') (start EVENTS) s ∧ Lost e s := by
  have htake : Loop (start EVENTS) { start EVENTS with draining := [], loop := .reset } :=
    .loopStep rfl
  have henqueue : IPC { start EVENTS with draining := [], loop := .reset }
      { start EVENTS with
        pending := [] ++ [e], draining := [], toEnqueue := EVENTS \ {e}, loop := .reset } :=
    .enqueue rfl he
  have hreset : Loop
      { start EVENTS with
        pending := [] ++ [e], draining := [], toEnqueue := EVENTS \ {e}, loop := .reset }
      { start EVENTS with
        pending := [], draining := [], toEnqueue := EVENTS \ {e}, loop := .drainWrite } :=
    .reset rfl
  refine ⟨_, .head (.inr htake) (.head (.inl henqueue) (.single (.inr hreset))),
    List.not_mem_nil, List.not_mem_nil, List.not_mem_nil, fun h => h.2 rfl⟩

/-- **Without the atomic step, any event can be lost**: there is a fair behaviour in which it is
never written. -/
theorem any_event_can_be_lost {EVENTS : Set E} {e : E} (he : e ∈ EVENTS) :
    ∃ b, Spec EVENTS b ∧ (∀ n, e ∉ (b n).writtenLog) ∧ ¬AllEventsEventuallyWritten EVENTS b := by
  obtain ⟨s, hreaches, hlost⟩ := exists_lost he
  obtain ⟨b, hb, hipc, hloop, start, hstart⟩ := exists_fair hreaches
  have hlater : ∀ n, start ≤ n → Lost e (b n) := by
    intro n hn
    induction n, hn using Nat.le_induction with
    | base => rwa [hstart]
    | succ n hn ih =>
      rcases hb.next n with hs | hs
      · exact ih.step hs
      · rwa [hs]
  have hkeeps : ∀ n m, n ≤ m → e ∈ (b n).writtenLog → e ∈ (b m).writtenLog := by
    intro n m hm hwritten
    induction m, hm using Nat.le_induction with
    | base => exact hwritten
    | succ m hm ih =>
      rcases hb.next m with hs | hs
      · exact written_step ih hs
      · rwa [hs]
  have hnever : ∀ n, e ∉ (b n).writtenLog := fun n hwritten =>
    (hlater (max n start) (le_max_right n start)).writtenLog
      (hkeeps n _ (le_max_left n start) hwritten)
  refine ⟨b, ⟨hb, hipc, hloop⟩, hnever, ?_⟩
  rintro ⟨n, hall⟩
  rw [← hall] at he
  exact hnever n he

/-- The only event there is can be lost. -/
theorem any_event_can_be_lost_one :
    ∃ b, Spec ({()} : Set Unit) b ∧ ∀ n, () ∉ (b n).writtenLog := by
  obtain ⟨b, hspec, hnever, -⟩ := any_event_can_be_lost (Set.mem_singleton ())
  exact ⟨b, hspec, hnever⟩

end ControlPlaneDrainNonAtomic

end Spork
