import Spork.Verification.ControlPlaneDrain
import Spork.Guarantees.ControlPlane

/-!
# The message loop drains by the protocol

`Daemon.drain` reads a state of `verification/tla/ControlPlaneDrain.tla` off a daemon: what has been
written since the start, what is being drained, and the queue.  The events are told apart by their
places in the order they were enqueued in.

`loop_refines_drain`: whatever a daemon does, its state of the protocol only ever makes steps of the
protocol.
-/

set_option autoImplicit false

namespace Spork

open Effects ControlPlaneDrain Relation

/-- The state of the protocol in which, of the events `enqueued`, the first `written` have been
written and the next `undrained` are being drained. -/
def drainState {α : Type} (written undrained : Nat) (enqueued : List α) : State (α × Nat) where
  pending := enqueued.zipIdx.drop (written + undrained)
  draining := (enqueued.zipIdx.drop written).take undrained
  writtenLog := enqueued.zipIdx.take written
  toEnqueue := {x | x ∉ enqueued.zipIdx}
  ipc := .enqueue
  loop := if undrained = 0 then .loopStep else .drainWrite

/-- The state of the protocol of a daemon whose store started with `rows`. -/
def Daemon.drain (rows : List PendingAuditEvent) (d : Daemon) : State (PendingAuditEvent × Nat) :=
  drainState (d.world.db.controlPlaneRows.length - rows.length) d.world.undrained.length d.enqueued

/-! ## The steps of the protocol -/

section Steps

variable {α : Type} {written undrained : Nat} {enqueued : List α}

/-- A handler enqueues. -/
theorem drainState_enqueue (h : written + undrained ≤ enqueued.length) (event : α) :
    Next (drainState written undrained enqueued)
      (drainState written undrained (enqueued ++ [event])) := by
  have hzip : (enqueued ++ [event]).zipIdx = enqueued.zipIdx ++ [(event, enqueued.length)] := by
    rw [List.zipIdx_append, Nat.zero_add]
    rfl
  have hfresh : (event, enqueued.length) ∉ enqueued.zipIdx := by
    intro hmem
    have := (List.mem_zipIdx hmem).2.1
    simp at this
  have hlength : written + undrained ≤ enqueued.zipIdx.length := by rwa [List.length_zipIdx]
  have hlength' : undrained ≤ (enqueued.zipIdx.drop written).length := by
    rw [List.length_drop]
    omega
  have hstate : drainState written undrained (enqueued ++ [event])
      = { drainState written undrained enqueued with
          pending := (drainState written undrained enqueued).pending ++ [(event, enqueued.length)]
          toEnqueue := (drainState written undrained enqueued).toEnqueue \
            {(event, enqueued.length)} } := by
    have htoEnqueue : {x | x ∉ enqueued.zipIdx ++ [(event, enqueued.length)]}
        = {x | x ∉ enqueued.zipIdx} \ {(event, enqueued.length)} := by
      ext x
      simp
    simp only [drainState, hzip, htoEnqueue]
    rw [List.drop_append_of_le_length hlength, List.drop_append_of_le_length (by omega),
      List.take_append_of_le_length hlength', List.take_append_of_le_length (by omega)]
  rw [hstate]
  exact .inl (.enqueue rfl hfresh)

/-- The loop takes the queue. -/
theorem drainState_take (h : written ≤ enqueued.length) :
    ReflTransGen Next (drainState written 0 enqueued)
      (drainState written (enqueued.length - written) enqueued) := by
  rcases Nat.eq_or_lt_of_le h with hall | hsome
  · rw [hall, Nat.sub_self]
  · have hstate : drainState written (enqueued.length - written) enqueued
        = { drainState written 0 enqueued with
            draining := (drainState written 0 enqueued).pending
            pending := []
            loop := .drainWrite } := by
      have hne : enqueued.length - written ≠ 0 := by omega
      simp only [drainState, if_neg hne, Nat.add_zero, Nat.add_sub_cancel' h]
      rw [List.take_of_length_le (by simp), List.drop_of_length_le (by simp)]
    rw [hstate]
    exact .single (.inr (.loopStep rfl))

/-- The loop writes an event, and begins another round if it was the last one. -/
theorem drainState_write (h : written + undrained < enqueued.length) :
    ReflTransGen Next (drainState written (undrained + 1) enqueued)
      (drainState (written + 1) undrained enqueued) := by
  have hlt : written < enqueued.zipIdx.length := by
    rw [List.length_zipIdx]
    omega
  have hdrop : enqueued.zipIdx.drop written
      = enqueued.zipIdx[written] :: enqueued.zipIdx.drop (written + 1) :=
    List.drop_eq_getElem_cons hlt
  have hwrite : Next (drainState written (undrained + 1) enqueued)
      { drainState (written + 1) undrained enqueued with loop := .drainWrite } := by
    have hdraining : (drainState written (undrained + 1) enqueued).draining
        = enqueued.zipIdx[written] :: (enqueued.zipIdx.drop (written + 1)).take undrained := by
      rw [drainState, hdrop, List.take_succ_cons]
    have hstate : { drainState (written + 1) undrained enqueued with loop := .drainWrite }
        = { drainState written (undrained + 1) enqueued with
            writtenLog := (drainState written (undrained + 1) enqueued).writtenLog ++
              [enqueued.zipIdx[written]]
            draining := (enqueued.zipIdx.drop (written + 1)).take undrained } := by
      simp only [drainState, List.take_append_getElem hlt, if_neg (Nat.succ_ne_zero undrained)]
      congr 2
      omega
    rw [hstate]
    exact .inr (.drainWrite rfl hdraining)
  refine .head hwrite ?_
  cases undrained with
  | zero => exact .single (.inr (.drained rfl rfl))
  | succ n => exact .refl

end Steps

/-! ## The steps of the daemon -/

section Daemon

variable {A : Allowed} {config : LoopConfig} {rows : List PendingAuditEvent} {d d' : Daemon}

/-- How many rows have been written since the start. -/
def Daemon.written (rows : List PendingAuditEvent) (d : Daemon) : Nat :=
  d.world.db.controlPlaneRows.length - rows.length

theorem QueueExact.writtenRows (h : QueueExact rows d) : ∃ written,
    d.world.db.controlPlaneRows = rows ++ written ∧ d.written rows = written.length ∧
      written ++ d.world.undrained ++ d.pending = d.enqueued := by
  obtain ⟨written, hrows, hevents⟩ := h.events
  refine ⟨written, hrows, ?_, hevents⟩
  rw [Daemon.written, hrows, List.length_append, Nat.add_sub_cancel_left]

theorem QueueExact.length (h : QueueExact rows d) :
    d.written rows + d.world.undrained.length + d.pending.length = d.enqueued.length := by
  obtain ⟨written, -, hlength, hevents⟩ := h.writtenRows
  rw [hlength, ← hevents, List.length_append, List.length_append]

/-- **A daemon's state of the protocol says what has been written, is being drained and is
queued.** -/
theorem QueueExact.drain (h : QueueExact rows d) :
    d.world.db.controlPlaneRows = rows ++ (d.drain rows).writtenLog.map Prod.fst ∧
      (d.drain rows).draining.map Prod.fst = d.world.undrained ∧
      (d.drain rows).pending.map Prod.fst = d.pending := by
  obtain ⟨written, hrows, hlength, hevents⟩ := h.writtenRows
  have hdrain : d.drain rows = drainState written.length d.world.undrained.length d.enqueued := by
    rw [← hlength]
    rfl
  rw [hdrain]
  simp only [drainState, List.map_take, List.map_drop, ← hevents, hrows, List.append_assoc]
  simp

theorem Daemon.drain_handle (h : QueueExact rows d) (handler : Handler) :
    ReflTransGen Next (d.drain rows) ((d.handle handler).drain rows) := by
  have hlength := h.length
  rw [drain, drain, world_handle, enqueued_handle]
  cases hevent : handler.event with
  | none => simpa using .refl
  | some event => exact .single (drainState_enqueue (by rw [← written]; omega) event)

/-- A call that takes nothing and writes nothing. -/
theorem Daemon.drain_aloof {op : Op} {r : Except Exn op.Ret} (hM : d.Responds A op r d')
    (hwritten : d'.world.db.controlPlaneRows = d.world.db.controlPlaneRows)
    (hundrained : d'.world.undrained = d.world.undrained) : d'.drain rows = d.drain rows := by
  rw [drain, drain, hwritten, hundrained, hM.enqueued]

theorem Daemon.drain_call {op : Op} {r : Except Exn op.Ret} (hM : d.Responds A op r d')
    (h : QueueExact rows d) (h' : QueueExact rows d') :
    ReflTransGen Next (d.drain rows) (d'.drain rows) := by
  have hlength := h.length
  have hlength' := h'.length
  have hrows := hM.world.controlPlaneRows
  have hundrained := hM.world.undrained
  have henqueued := hM.enqueued
  by_cases htakes : op.takes = true
  · -- the queue was taken: nothing was left of the last list
    cases op with
    | takePendingEvents =>
      have hshared : r = .ok d.pending ∧ d'.shared = { d.shared with
        daemonState := { d.shared.daemonState with pendingControlPlaneEvents := [] } } := hM.shared
      obtain ⟨rfl, hshared⟩ := hshared
      have hpending : d'.pending = [] := by rw [Daemon.pending, hshared]
      have htaken : d'.world.undrained = d.pending := hundrained
      have hwritten : d'.written rows = d.written rows := by
        rw [written, written, hrows]
        simp [Op.drains]
      rw [hpending, htaken, hwritten, henqueued, List.length_nil] at hlength'
      have hnone : d.world.undrained.length = 0 := by omega
      have hall : d.pending.length = d.enqueued.length - d.written rows := by omega
      have hstart : d.drain rows = drainState (d.written rows) 0 d.enqueued := by
        rw [drain, hnone]
        rfl
      have hend : d'.drain rows
          = drainState (d.written rows) (d.enqueued.length - d.written rows) d.enqueued := by
        rw [drain, htaken, hall, henqueued, ← hwritten]
        rfl
      rw [hstart, hend]
      exact drainState_take (by omega)
    | _ => cases htakes
  · have hpending : d'.pending = d.pending := hM.pending (by simpa using htakes)
    by_cases hdrains : r.isOk = true ∧ op.drains.isSome = true
    · -- a row was written: it was the next one of the list
      obtain ⟨hok, hsome⟩ := hdrains
      obtain ⟨event, hevent⟩ := Option.isSome_iff_exists.1 hsome
      rw [if_pos hok, hevent] at hrows
      have hwritten : d'.written rows = d.written rows + 1 := by
        obtain ⟨w, hw, hlen, -⟩ := h.writtenRows
        rw [hlen, written, hrows, hw]
        simp
      rw [hpending, hwritten, henqueued] at hlength'
      have hundrainedLength : d.world.undrained.length = d'.world.undrained.length + 1 := by omega
      have hstart : d.drain rows
          = drainState (d.written rows) (d'.world.undrained.length + 1) d.enqueued := by
        rw [drain, hundrainedLength]
        rfl
      have hend : d'.drain rows
          = drainState (d.written rows + 1) d'.world.undrained.length d.enqueued := by
        rw [drain, henqueued, ← hwritten]
        rfl
      rw [hstart, hend]
      exact drainState_write (by omega)
    · have hnone : (if r.isOk then op.drains.toList else []) = [] := by
        rw [ite_eq_right_iff]
        intro hok
        rw [Option.toList_eq_nil_iff, ← Option.not_isSome_iff_eq_none]
        exact fun hsome => hdrains ⟨hok, hsome⟩
      have hundrained' : d'.world.undrained = d.world.undrained := by
        rw [hundrained]
        cases op with
        | takePendingEvents => exact absurd rfl htakes
        | writeAuditEntry ts id event detail =>
          cases r with
          | error e => rfl
          | ok a =>
            have hrow : (controlPlaneRow id event detail).isSome ≠ true :=
              fun hsome => hdrains ⟨rfl, hsome⟩
            exact if_neg hrow
        | _ => rfl
      rw [hnone, List.append_nil] at hrows
      rw [drain_aloof hM hrows hundrained']

/-- **The message loop refines the drain protocol.**  A daemon starts in the initial state of the
protocol; wherever it has got to, its state of the protocol says what has been written, is being
drained and is queued; and whatever it does next is some steps of the protocol, or none. -/
theorem loop_refines_drain (hdeps : config.deps.Wired) {db : StateDB} {startedAt : String}
    {rules : List Rule} :
    (Daemon.start ⟨db, []⟩ (.fresh startedAt rules)).drain db.controlPlaneRows = start Set.univ ∧
    ∀ c : DaemonPoint,
      LoopRun A config anyHandler (.start ⟨db, []⟩ (.fresh startedAt rules)) c →
      (c.world.world.db.controlPlaneRows = db.controlPlaneRows ++
          (c.world.drain db.controlPlaneRows).writtenLog.map Prod.fst ∧
        (c.world.drain db.controlPlaneRows).draining.map Prod.fst = c.world.world.undrained ∧
        (c.world.drain db.controlPlaneRows).pending.map Prod.fst = c.world.pending) ∧
      ∀ c', Task.Step (daemonMachine A) Op.awaits (handlers anyHandler) (messageLoop config) c c' →
        ReflTransGen Next (c.world.drain db.controlPlaneRows)
          (c'.world.drain db.controlPlaneRows) := by
  constructor
  · rw [Daemon.drain, start, Daemon.start]
    simp [drainState, World.undrained]
  · intro c hrun
    have h := (hrun.queueExact hdeps).1
    refine ⟨h.drain, fun c' hs => ?_⟩
    have h' := (LoopRun.queueExact hdeps (hrun.tail hs)).1
    cases hs with
    | call hM => exact Daemon.drain_call hM h h'
    | again => exact .refl
    | handle _ hhandler =>
      obtain ⟨handler, -, rfl⟩ := hhandler
      exact Daemon.drain_handle h handler

end Daemon

/-- The pauses and the resume of a quiet day are events of the protocol. -/
theorem loop_refines_drain_quiet : ∃ c : DaemonPoint,
    c.world.enqueued = [.daemonPaused, .daemonResumed, .daemonPaused] ∧
    (c.world.drain []).draining.map Prod.fst = c.world.world.undrained ∧
    (c.world.drain []).pending.map Prod.fst = c.world.pending :=
  ⟨pausedAgain, rfl, ((loop_refines_drain oneCall.wired).2 _
    (Env.schedule_run Env.quiet_lawful _ _ _ fun _ _ _ => trivial)).1.2⟩

end Spork
