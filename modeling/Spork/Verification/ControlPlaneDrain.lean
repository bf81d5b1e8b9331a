import Spork.Effects.Temporal
import Mathlib.Data.Set.Card

/-!
# The drain protocol

`verification/tla/ControlPlaneDrain.tla`: one process enqueues the events of `EVENTS`, in any order;
the other one takes the whole queue in one step and then writes what it has taken, one by one.

The model checker needs a finite set of events.  `NoDuplicateWrites` is proved for every set, and
`AllEventsEventuallyWritten` for every finite one (`drain_writes_every_event_once`).
-/

set_option autoImplicit false

namespace Spork

namespace ControlPlaneDrain

open Effects Temporal

variable {E : Type}

/-- `pc["ipc"]` -/
inductive IpcLabel where
  | enqueue
  | done
  deriving DecidableEq

/-- `pc["loop"]`; only the variant that is not atomic has a label `Reset`. -/
inductive LoopLabel where
  | loopStep
  | reset
  | drainWrite
  deriving DecidableEq

/-- The variables. -/
structure State (E : Type) where
  pending : List E
  draining : List E
  writtenLog : List E
  toEnqueue : Set E
  ipc : IpcLabel
  loop : LoopLabel

/-- `Init`. -/
def start (EVENTS : Set E) : State E := ⟨[], [], [], EVENTS, .enqueue, .loopStep⟩

/-- `IPC`. -/
inductive IPC : State E → State E → Prop where
  | enqueue {s : State E} {e : E} (hpc : s.ipc = .enqueue) (he : e ∈ s.toEnqueue) :
      IPC s { s with pending := s.pending ++ [e], toEnqueue := s.toEnqueue \ {e} }
  | finish {s : State E} (hpc : s.ipc = .enqueue) (hnone : s.toEnqueue = ∅) :
      IPC s { s with ipc := .done }

/-- `Loop`. -/
inductive Loop : State E → State E → Prop where
  | loopStep {s : State E} (hpc : s.loop = .loopStep) :
      Loop s { s with draining := s.pending, pending := [], loop := .drainWrite }
  | drainWrite {s : State E} {e : E} {rest : List E} (hpc : s.loop = .drainWrite)
      (he : s.draining = e :: rest) :
      Loop s { s with writtenLog := s.writtenLog ++ [e], draining := rest }
  | drained {s : State E} (hpc : s.loop = .drainWrite) (hnone : s.draining = []) :
      Loop s { s with loop := .loopStep }

/-- `Next`. -/
def Next (s s' : State E) : Prop := IPC s s' ∨ Loop s s'

/-- `Spec`. -/
structure Spec (EVENTS : Set E) (b : Nat → State E) : Prop where
  behaviour : Behaviour (· = start EVENTS) Next b
  ipc : WeaklyFair IPC b
  loop : WeaklyFair Loop b

/-- `NoDuplicateWrites`. -/
def NoDuplicateWrites (s : State E) : Prop := s.writtenLog.Nodup

/-- `AllEventsEventuallyWritten`. -/
def AllEventsEventuallyWritten (EVENTS : Set E) (b : Nat → State E) : Prop :=
  ∃ n, {e | e ∈ (b n).writtenLog} = EVENTS

/-! ## The invariant -/

/-- Where the events that have been enqueued are. -/
def State.events (s : State E) : List E := s.writtenLog ++ s.draining ++ s.pending

/-- Every event is in one place. -/
structure Inv (EVENTS : Set E) (s : State E) : Prop where
  nodup : s.events.Nodup
  mem : ∀ e, e ∈ EVENTS ↔ e ∈ s.events ∨ e ∈ s.toEnqueue
  fresh : ∀ e ∈ s.toEnqueue, e ∉ s.events
  done : s.ipc = .done → s.toEnqueue = ∅
  loop : s.loop ≠ .reset
  drained : s.loop = .loopStep → s.draining = []

theorem inv_start (EVENTS : Set E) : Inv EVENTS (start EVENTS) where
  nodup := List.nodup_nil
  mem e := by simp [start, State.events]
  fresh e _ := by simp [start, State.events]
  done := nofun
  loop := nofun
  drained _ := rfl

theorem Inv.ipc {EVENTS : Set E} {s s' : State E} (h : Inv EVENTS s) (hs : IPC s s') :
    Inv EVENTS s' := by
  cases hs with
  | @enqueue e hpc he =>
    have hevents : ∀ x, x ∈ s.events ++ [e] ↔ x ∈ s.events ∨ x = e := by simp
    have hsame : State.events { s with pending := s.pending ++ [e], toEnqueue := s.toEnqueue \ {e} }
        = s.events ++ [e] := (List.append_assoc _ _ _).symm
    refine ⟨?_, fun x => ?_, fun x hx => ?_, fun hdone => ?_, h.loop, h.drained⟩
    · rw [hsame, List.nodup_append]
      refine ⟨h.nodup, List.nodup_singleton e, ?_⟩
      rintro x hx y hy rfl
      rw [List.mem_singleton] at hy
      subst hy
      exact h.fresh x he hx
    · rw [hsame, hevents, h.mem]
      by_cases hx : x = e
      · subst hx
        simp [he]
      · simp [hx]
    · rw [hsame, hevents]
      rintro (hmem | rfl)
      · exact h.fresh x hx.1 hmem
      · exact hx.2 rfl
    · rw [hpc] at hdone
      cases hdone
  | finish hpc hnone => exact ⟨h.nodup, h.mem, h.fresh, fun _ => hnone, h.loop, h.drained⟩

/-- No step of the loop changes what has been enqueued. -/
theorem Loop.events {EVENTS : Set E} {s s' : State E} (h : Inv EVENTS s) (hs : Loop s s') :
    s'.events = s.events := by
  cases hs with
  | loopStep hpc => simp [State.events, h.drained hpc]
  | drainWrite hpc he => simp [State.events, he]
  | drained hpc hnone => rfl

theorem Loop.toEnqueue {s s' : State E} (hs : Loop s s') : s'.toEnqueue = s.toEnqueue := by
  cases hs <;> rfl

theorem Loop.ipc {s s' : State E} (hs : Loop s s') : s'.ipc = s.ipc := by
  cases hs <;> rfl

theorem Inv.step {EVENTS : Set E} {s s' : State E} (h : Inv EVENTS s) (hs : Next s s') :
    Inv EVENTS s' := by
  rcases hs with hs | hs
  · exact h.ipc hs
  · refine ⟨?_, ?_, ?_, ?_, ?_, ?_⟩
    · rw [hs.events h]
      exact h.nodup
    · rw [hs.events h, hs.toEnqueue]
      exact h.mem
    · rw [hs.events h, hs.toEnqueue]
      exact h.fresh
    · rw [hs.ipc, hs.toEnqueue]
      exact h.done
    · cases hs with
      | loopStep => exact nofun
      | drainWrite => exact h.loop
      | drained => exact nofun
    · cases hs with
      | loopStep => exact nofun
      | drainWrite hpc he =>
        intro hstep
        cases hpc.symm.trans hstep
      | drained hpc hnone => exact fun _ => hnone

theorem Spec.inv {EVENTS : Set E} {b : Nat → State E} (h : Spec EVENTS b) (n : Nat) :
    Inv EVENTS (b n) :=
  h.behaviour.invariant (fun _ hs => hs ▸ inv_start EVENTS) (fun _ _ => Inv.step) n

theorem Inv.noDuplicateWrites {EVENTS : Set E} {s : State E} (h : Inv EVENTS s) :
    NoDuplicateWrites s := h.nodup.of_append_left.of_append_left

/-! ## Every event is written -/

section Liveness

variable {EVENTS : Set E} {b : Nat → State E}

/-- There is always something for the loop to do. -/
theorem enabled_loop {s : State E} (h : Inv EVENTS s) : Enabled Loop s := by
  cases hpc : s.loop with
  | reset => exact absurd hpc h.loop
  | loopStep =>
    refine ⟨_, .loopStep hpc, fun he => ?_⟩
    have hloop := congrArg State.loop he
    rw [hpc] at hloop
    cases hloop
  | drainWrite =>
    cases hd : s.draining with
    | nil =>
      refine ⟨_, .drained hpc hd, fun he => ?_⟩
      have hloop := congrArg State.loop he
      rw [hpc] at hloop
      cases hloop
    | cons e rest =>
      refine ⟨_, .drainWrite hpc hd, fun he => ?_⟩
      have hlength := congrArg (fun t : State E => t.draining.length) he
      simp [hd] at hlength

/-- While there is something to enqueue, it can be. -/
theorem enabled_ipc {s : State E} (h : Inv EVENTS s) (hsome : s.toEnqueue ≠ ∅) :
    Enabled IPC s := by
  have hpc : s.ipc = .enqueue := by
    cases hpc : s.ipc with
    | enqueue => rfl
    | done => exact absurd (h.done hpc) hsome
  obtain ⟨e, he⟩ := Set.nonempty_iff_ne_empty.2 hsome
  refine ⟨_, .enqueue hpc he, fun hsame => ?_⟩
  have hlength := congrArg (fun t : State E => t.pending.length) hsame
  simp at hlength

theorem toEnqueue_subset {s s' : State E} (hs : Next s s' ∨ s' = s) :
    s'.toEnqueue ⊆ s.toEnqueue := by
  rcases hs with (hs | hs) | rfl
  · cases hs with
    | enqueue => exact Set.sdiff_subset
    | finish => exact le_rfl
  · exact hs.toEnqueue.subset
  · exact le_rfl

/-- **Everything is enqueued.** -/
theorem Spec.enqueues (h : Spec EVENTS b) (hfinite : EVENTS.Finite) :
    ∃ n, (b n).toEnqueue = ∅ := by
  have hsub : ∀ n, (b n).toEnqueue ⊆ EVENTS := fun n e he => ((h.inv n).mem e).2 (.inr he)
  have hfin : ∀ n, (b n).toEnqueue.Finite := fun n => hfinite.subset (hsub n)
  have hdown : ∀ s' n, (b n).toEnqueue ≠ ∅ → Proper IPC (b n) s' →
      s'.toEnqueue.ncard < (b n).toEnqueue.ncard := by
    intro s' n hsome hstep
    cases hstep.1 with
    | enqueue hpc he => exact Set.ncard_sdiff_singleton_lt_of_mem he (hfin n)
    | finish hpc hnone => exact absurd hnone hsome
  obtain ⟨n, -, hn⟩ := eventually_of_rank h.ipc (G := fun s => s.toEnqueue = ∅)
    (fun s => s.toEnqueue.ncard) 0 (fun n _ hsome => enabled_ipc (h.inv n) hsome)
    (fun n _ => hdown _ n)
    fun n _ _ => Set.ncard_le_ncard (toEnqueue_subset (h.behaviour.next n)) (hfin n)
  exact ⟨n, hn⟩

/-- How much the loop has left to do. -/
def work (s : State E) : Nat :=
  4 * s.pending.length + 2 * s.draining.length + if s.loop = .drainWrite then 1 else 0

theorem work_loop {s s' : State E} (h : Inv EVENTS s) (hsome : ¬(s.draining = [] ∧ s.pending = []))
    (hs : Loop s s') : work s' < work s := by
  cases hs with
  | loopStep hpc =>
    have hd := h.drained hpc
    have hp : s.pending.length ≠ 0 := fun hp => hsome ⟨hd, List.length_eq_zero_iff.1 hp⟩
    simp [work, hpc, hd]
    omega
  | drainWrite hpc he => simp [work, hpc, he]
  | drained hpc hnone => simp [work, hpc, hnone]

/-- Nothing more is enqueued. -/
theorem Spec.idle (h : Spec EVENTS b) {start : Nat} (hstart : (b start).toEnqueue = ∅) (n : Nat)
    (hn : start ≤ n) : (b n).toEnqueue = ∅ := by
  induction n, hn using Nat.le_induction with
  | base => exact hstart
  | succ n hn ih => exact Set.subset_empty_iff.1 (ih ▸ toEnqueue_subset (h.behaviour.next n))

/-- **Everything that has been enqueued is written.** -/
theorem Spec.drains (h : Spec EVENTS b) {start : Nat} (hstart : (b start).toEnqueue = ∅) :
    ∃ n, start ≤ n ∧ (b n).draining = [] ∧ (b n).pending = [] := by
  refine eventually_of_rank h.loop (G := fun s => s.draining = [] ∧ s.pending = []) work
    start (fun n _ _ => enabled_loop (h.inv n))
    (fun n _ hsome hstep => work_loop (h.inv n) hsome hstep.1)
    fun n hn hsome => ?_
  rcases h.behaviour.next n with (hs | hs) | hs
  · have hempty := h.idle hstart n hn
    generalize b (n + 1) = s' at hs
    cases hs with
    | enqueue hpc he =>
      rw [hempty] at he
      exact he.elim
    | finish => exact le_rfl
  · exact (work_loop (h.inv n) hsome hs).le
  · rw [hs]

/-- **The drain protocol writes every event once.**  In every behaviour no event is ever written
twice; and if there are finitely many events, there comes a time when all have been written. -/
theorem drain_writes_every_event_once (h : Spec EVENTS b) :
    (∀ n, NoDuplicateWrites (b n)) ∧ (EVENTS.Finite → AllEventsEventuallyWritten EVENTS b) := by
  refine ⟨fun n => (h.inv n).noDuplicateWrites, fun hfinite => ?_⟩
  obtain ⟨start, hstart⟩ := h.enqueues hfinite
  obtain ⟨n, hn, hd, hp⟩ := h.drains hstart
  refine ⟨n, Set.ext fun e => ?_⟩
  rw [(h.inv n).mem e, h.idle hstart n hn, State.events, hd, hp]
  simp

/-- Two events, in a fair behaviour. -/
theorem drain_writes_every_event_once_two :
    ∃ b, Spec ({false, true} : Set Bool) b ∧ (∀ n, NoDuplicateWrites (b n)) ∧
      AllEventsEventuallyWritten {false, true} b := by
  obtain ⟨b, hb, hipc, hloop, -⟩ := exists_fair (A := IPC) (B := Loop)
    (Relation.ReflTransGen.refl (a := start ({false, true} : Set Bool)))
  have hspec : Spec {false, true} b := ⟨hb, hipc, hloop⟩
  obtain ⟨honce, hall⟩ := drain_writes_every_event_once hspec
  exact ⟨b, hspec, honce, hall (Set.toFinite _)⟩

end Liveness

end ControlPlaneDrain

end Spork
