import Spork.Daemon.Loop
import Spork.Effects.Task

/-!
# What the daemon's tasks share

`daemon/state.py` and `_build_ipc_handlers` of `daemon/loop.py`: the memory that the message loop
shares with the IPC server and the signal handler, and what those two do to it.

Everything runs on one event loop, so a handler runs to its end whenever it runs, and it only runs
while the message loop is suspended.  The message loop reads and changes the shared memory without
being suspended (`Op.onShared`); every other call of it goes to a worker thread or sleeps, and is
waited for (`Op.awaits`).
-/

set_option autoImplicit false

namespace Spork

open Effects

/-- `DaemonState`. -/
structure DaemonState where
  paused : Bool := false
  startedAt : String := ""
  budgetExhaustedAlertDate : Option String := none
  pendingControlPlaneEvents : List PendingAuditEvent := []

/-- `DaemonState`, `RulesState` and `stop_event`. -/
structure SharedMemory where
  daemonState : DaemonState := {}
  rules : List Rule := []
  stopEvent : Bool := false

/-! ## The handlers -/

/-- The data of a response that is not an error. -/
inductive IpcData where
  | status (paused : Bool) (startedAt : String)
  | paused (paused : Bool)
  | ruleCount (ruleCount : Nat)
  deriving DecidableEq, Repr

/-- `PendingAuditEvent(event="daemon_paused", detail_json=None)`. -/
def PendingAuditEvent.daemonPaused : PendingAuditEvent := ⟨"daemon_paused", none⟩

/-- `PendingAuditEvent(event="daemon_resumed", detail_json=None)`. -/
def PendingAuditEvent.daemonResumed : PendingAuditEvent := ⟨"daemon_resumed", none⟩

namespace SharedMemory

/-- `daemon_state.pending_control_plane_events.append(event)`. -/
def enqueue (s : SharedMemory) (event : PendingAuditEvent) : SharedMemory :=
  { s with daemonState := { s.daemonState with
      pendingControlPlaneEvents := s.daemonState.pendingControlPlaneEvents ++ [event] } }

/-- `daemon_state.paused = paused`. -/
def setPaused (s : SharedMemory) (paused : Bool) : SharedMemory :=
  { s with daemonState := { s.daemonState with paused := paused } }

/-- `_status`. -/
def status (s : SharedMemory) : IpcData × SharedMemory :=
  (.status s.daemonState.paused s.daemonState.startedAt, s)

/-- `_pause`. -/
def pause (s : SharedMemory) : IpcData × SharedMemory :=
  (.paused true, (s.setPaused true).enqueue .daemonPaused)

/-- `_resume`. -/
def resume (s : SharedMemory) : IpcData × SharedMemory :=
  (.paused false, (s.setPaused false).enqueue .daemonResumed)

/-- `_reload`, given what `load_rules` returns or raises. -/
def reload (s : SharedMemory) (loaded : Except Exn (List Rule)) :
    Except Exn (IpcData × SharedMemory) := do
  let newRules ← loaded
  pure (.ruleCount newRules.length, { s with rules := newRules })

end SharedMemory

/-- `IpcResponse`. -/
inductive IpcResponse where
  | ok (data : IpcData)
  | error (error : String)
  deriving DecidableEq, Repr

/-- A request as the server dispatches it. -/
inductive IpcRequest where
  | status
  | pause
  | resume
  /-- With what `load_rules` makes of the rules file at that moment. -/
  | reload (loaded : Except Exn (List Rule))
  | unknown (command : String)

/-- `IpcServer._dispatch`: an exception of a handler becomes an error response. -/
def SharedMemory.dispatch (s : SharedMemory) : IpcRequest → IpcResponse × SharedMemory
  | .status => (.ok s.status.1, s.status.2)
  | .pause => (.ok s.pause.1, s.pause.2)
  | .resume => (.ok s.resume.1, s.resume.2)
  | .reload loaded =>
    match s.reload loaded with
    | .ok (data, s') => (.ok data, s')
    | .error e => (.error e.message, s)
  | .unknown command => (.error ("unknown command: " ++ pyRepr command), s)

/-- What may run while the message loop is suspended. -/
inductive Handler where
  | request (r : IpcRequest)
  /-- The signal handler: `stop_event.set()`. -/
  | stop

/-- Run a handler. -/
def Handler.run : Handler → SharedMemory → SharedMemory
  | .request r, s => (s.dispatch r).2
  | .stop, s => { s with stopEvent := true }

/-- The event a handler appends to the queue, if it appends one. -/
def Handler.event : Handler → Option PendingAuditEvent
  | .request .pause => some .daemonPaused
  | .request .resume => some .daemonResumed
  | _ => none

/-! ## The message loop's own access -/

/-- What a call does that only touches the shared memory; `none` for every other call.  Taking the
pending events leaves an empty list behind, in one step. -/
def Op.onShared : (op : Op) → Option (SharedMemory → op.Ret × SharedMemory)
  | .stopIsSet => some fun s => (s.stopEvent, s)
  | .isPaused => some fun s => (s.daemonState.paused, s)
  | .takePendingEvents => some fun s =>
    (s.daemonState.pendingControlPlaneEvents,
      { s with daemonState := { s.daemonState with pendingControlPlaneEvents := [] } })
  | .currentRules => some fun s => (s.rules, s)
  | .budgetAlertDate => some fun s => (s.daemonState.budgetExhaustedAlertDate, s)
  | .setBudgetAlertDate date => some fun s =>
    ((), { s with daemonState := { s.daemonState with budgetExhaustedAlertDate := some date } })
  | _ => none

/-- The calls that the message loop waits for. -/
def Op.awaits (op : Op) : Bool := op.onShared.isNone

/-- The daemon's process: the world outside, the shared memory, and on the side every event that a
handler has ever appended to the queue, in order. -/
structure Daemon where
  world : World
  shared : SharedMemory
  enqueued : List PendingAuditEvent

/-- A handler runs. -/
def Daemon.handle (d : Daemon) (h : Handler) : Daemon where
  world := d.world
  shared := h.run d.shared
  enqueued := d.enqueued ++ h.event.toList

/-- How a call of the message loop may come back. -/
structure Daemon.Responds (A : Allowed) (d : Daemon) (op : Op) (r : Except Exn op.Ret)
    (d' : Daemon) : Prop where
  world : Spork.Responds A d.world op r d'.world
  shared : match op.onShared with
    | some g => r = .ok (g d.shared).1 ∧ d'.shared = (g d.shared).2
    | none => d'.shared = d.shared
  enqueued : d'.enqueued = d.enqueued

/-- The machine of the daemon's process. -/
def daemonMachine (A : Allowed) : Machine sig Daemon := fun d op r d' => d.Responds A op r d'

/-- What is left of the current round of the message loop, and the process. -/
abbrev DaemonPoint : Type := Task.Config sig Daemon Unit Unit

/-- The handlers that may run in a configuration: those that `may` admits there. -/
def handlers (may : DaemonPoint → Handler → Prop) (c : DaemonPoint) (d : Daemon) : Prop :=
  ∃ h, may c h ∧ d = c.world.handle h

/-- The runs of `_run_message_loop` among handlers, from its start in `d`. -/
def LoopRun (A : Allowed) (config : LoopConfig) (may : DaemonPoint → Handler → Prop) (d : Daemon)
    (c : DaemonPoint) : Prop :=
  Task.Reaches (daemonMachine A) Op.awaits (handlers may) (messageLoop config)
    ⟨messageLoop config (), d, false⟩ c

/-- Every handler, anywhere. -/
def anyHandler (_ : DaemonPoint) (_ : Handler) : Prop := True

/-- A daemon whose message loop is about to start. -/
def Daemon.start (w : World) (s : SharedMemory) : Daemon := ⟨w, s, []⟩

/-! ### One call -/

section Responds

variable {A : Allowed} {d d' : Daemon} {op : Op} {r : Except Exn op.Ret}

theorem Daemon.Responds.isPaused {r : Except Exn Bool} (h : d.Responds A .isPaused r d') :
    r = .ok d.shared.daemonState.paused ∧ d'.shared = d.shared := h.shared

theorem Daemon.Responds.stopIsSet {r : Except Exn Bool} (h : d.Responds A .stopIsSet r d') :
    r = .ok d.shared.stopEvent ∧ d'.shared = d.shared := h.shared

/-- Only a handler pauses or resumes. -/
theorem Daemon.Responds.paused (h : d.Responds A op r d') :
    d'.shared.daemonState.paused = d.shared.daemonState.paused := by
  have hshared := h.shared
  cases op <;> first | rw [hshared] | rw [hshared.2]

/-- Only a handler stops. -/
theorem Daemon.Responds.stopEvent (h : d.Responds A op r d') :
    d'.shared.stopEvent = d.shared.stopEvent := by
  have hshared := h.shared
  cases op <;> first | rw [hshared] | rw [hshared.2]

/-- Only a handler replaces the rules. -/
theorem Daemon.Responds.rules (h : d.Responds A op r d') : d'.shared.rules = d.shared.rules := by
  have hshared := h.shared
  cases op <;> first | rw [hshared] | rw [hshared.2]

theorem Daemon.Responds.currentRules {r : Except Exn (List Rule)}
    (h : d.Responds A .currentRules r d') : r = .ok d.shared.rules := h.shared.1

/-- Whether a call empties the queue. -/
def Op.takes : Op → Bool
  | .takePendingEvents => true
  | _ => false

/-- Only the drain takes events out of the queue. -/
theorem Daemon.Responds.pending (h : d.Responds A op r d') (hop : op.takes = false) :
    d'.shared.daemonState.pendingControlPlaneEvents
      = d.shared.daemonState.pendingControlPlaneEvents := by
  have hshared := h.shared
  cases op with
  | takePendingEvents => cases hop
  | _ => first | rw [hshared] | rw [hshared.2]

end Responds

/-! ### What handlers do -/

section Handlers

variable (d : Daemon) (h : Handler)

@[simp] theorem Daemon.world_handle : (d.handle h).world = d.world := rfl

@[simp] theorem Daemon.enqueued_handle :
    (d.handle h).enqueued = d.enqueued ++ h.event.toList := rfl

/-- **Everything a handler can do to the queue**: append its event. -/
@[simp] theorem Daemon.pending_handle :
    (d.handle h).shared.daemonState.pendingControlPlaneEvents
      = d.shared.daemonState.pendingControlPlaneEvents ++ h.event.toList := by
  cases h with
  | stop => exact (List.append_nil _).symm
  | request r =>
    cases r with
    | pause | resume => rfl
    | status | unknown => exact (List.append_nil _).symm
    | reload loaded => cases loaded <;> exact (List.append_nil _).symm

/-- Whether the daemon is paused follows the events. -/
theorem Daemon.paused_handle :
    (d.handle h).shared.daemonState.paused
      = match h.event with
        | some event => decide (event = .daemonPaused)
        | none => d.shared.daemonState.paused := by
  cases h with
  | stop => rfl
  | request r =>
    cases r with
    | pause | resume | status | unknown => rfl
    | reload loaded => cases loaded <;> rfl

end Handlers

/-! ### Runs in which every answer is given -/

/-- One call in a process whose collaborators answer as `env`. -/
def Env.onDaemon (env : Env) (d : Daemon) (op : Op) : Except Exn op.Ret × Daemon :=
  match op.onShared with
  | some g =>
    (.ok (g d.shared).1,
      ⟨d.world.record op (.ok (g d.shared).1) d.world.db, (g d.shared).2, d.enqueued⟩)
  | none => ((env.answer d.world op).1, ⟨(env.answer d.world op).2, d.shared, d.enqueued⟩)

theorem Env.onDaemon_responds {env : Env} (hlaw : env.Lawful) (d : Daemon) (op : Op) :
    d.Responds anything op (env.onDaemon d op).1 (env.onDaemon d op).2 := by
  unfold onDaemon
  cases hop : op.onShared with
  | none => exact ⟨env.responds hlaw trivial, by rw [hop], rfl⟩
  | some g =>
    refine ⟨.answers trivial ?_, by rw [hop]; exact ⟨rfl, rfl⟩, rfl⟩
    cases op <;> first | exact (gives_external rfl).2 rfl | cases hop

/-- The run of a schedule, for a loop that is just starting. -/
def Env.schedule (env : Env) (config : LoopConfig) (d : Daemon) (ms : List (Task.Move Handler)) :
    DaemonPoint :=
  Task.follow Op.awaits env.onDaemon (fun h d => d.handle h) (messageLoop config)
    ⟨messageLoop config (), d, false⟩ ms

theorem Env.schedule_run {env : Env} (hlaw : env.Lawful) (config : LoopConfig) (d : Daemon)
    (ms : List (Task.Move Handler)) {may : DaemonPoint → Handler → Prop}
    (hmay : ∀ h, .handle h ∈ ms → ∀ c, may c h) :
    LoopRun anything config may d (env.schedule config d ms) :=
  Task.follow_reaches (env.onDaemon_responds hlaw) ms (fun h hh c => ⟨h, hmay h hh c, rfl⟩) _

end Spork
