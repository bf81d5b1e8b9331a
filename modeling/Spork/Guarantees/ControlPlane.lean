import Spork.Daemon.Shared
import Spork.Guarantees.Handling

/-!
# The queue of control-plane events

A pause or resume may not touch the store, so its handler appends an event to a queue in memory, and
the message loop drains the queue at the top of every round: it takes the whole list in one step and
then writes the events one by one, while handlers go on appending to the list that it left behind.

* Whatever runs when, the rows in the log, the rest of the list that is being drained and the queue
  are together exactly the events so far, in order (`control_plane_queue_exact`).  Nothing but the
  drain touches any of the three (`Op.Aloof`), and the drain only takes when it has nothing left.
* A round is the only place where the queue is emptied, and a loop that has been told to stop begins
  no further round.  So what is still in the queue when the loop is stopped, or is appended later,
  is never written (`pause_lost_at_stop`), and everything else is
  (`control_plane_events_written_iff`).
-/

set_option autoImplicit false

namespace Spork

open Effects Machine

/-! ## The three parts -/

/-- The queued event that an audit row records, if the row is a drained one. -/
def controlPlaneRow (jmapId event : String) (detailJson : Option String) :
    Option PendingAuditEvent :=
  if jmapId = "" ∧ (event = "daemon_paused" ∨ event = "daemon_resumed") then
    some ⟨event, detailJson⟩
  else none

/-- The rows of drained events. -/
def StateDB.controlPlaneRows (db : StateDB) : List PendingAuditEvent :=
  db.auditLog.entries.filterMap fun e => controlPlaneRow e.jmapId e.event e.detailJson

/-- The queued event that a call writes to the log, if it is such a call. -/
def Op.drains : Op → Option PendingAuditEvent
  | .writeAuditEntry _ jmapId event detail => controlPlaneRow jmapId event detail
  | _ => none

/-- What an event of the trace does to the list that is being drained: the list is replaced by the
next one that is taken, and loses its head with every row that is written. -/
def undrainedAfter (rest : List PendingAuditEvent) : Event → List PendingAuditEvent
  | ⟨.takePendingEvents, .ok events⟩ => events
  | ⟨.writeAuditEntry _ jmapId event detail, .ok _⟩ =>
    if (controlPlaneRow jmapId event detail).isSome then rest.tail else rest
  | _ => rest

/-- The rest of the list that was taken last, without the rows written since. -/
def World.undrained (w : World) : List PendingAuditEvent := w.trace.foldl undrainedAfter []

/-- `pending_control_plane_events`. -/
abbrev Daemon.pending (d : Daemon) : List PendingAuditEvent :=
  d.shared.daemonState.pendingControlPlaneEvents

/-- The loop has been told to stop. -/
abbrev Daemon.Stopping (d : Daemon) : Prop := d.shared.stopEvent = true

/-- A handler does not take a stop back. -/
theorem Daemon.Stopping.handle {d : Daemon} (hd : d.Stopping) (h : Handler) :
    (d.handle h).Stopping := by
  cases h with
  | stop => rfl
  | request r =>
    cases r with
    | reload loaded => cases loaded <;> exact hd
    | _ => exact hd

/-- The shared memory of a daemon that starts unpaused, with nothing queued. -/
def SharedMemory.fresh (startedAt : String) (rules : List Rule) : SharedMemory where
  daemonState := { startedAt := startedAt }
  rules := rules

/-! ## Calls that have nothing to do with it -/

/-- The call neither empties the queue nor writes a drained event. -/
def Op.Aloof (op : Op) : Prop := op.takes = false ∧ op.drains = none

theorem Op.Supporting.aloof {op : Op} (h : op.Supporting) : op.Aloof := by
  cases op <;> first | exact h.elim | exact ⟨rfl, rfl⟩

theorem Op.AsksModel.aloof {op : Op} (h : op.AsksModel) : op.Aloof := by
  cases op <;> first | exact h.elim | exact ⟨rfl, rfl⟩

/-- A row of any other event. -/
theorem Op.aloof_audit {ts id event : String} {detail : Option String}
    (h : event ≠ "daemon_paused" ∧ event ≠ "daemon_resumed") :
    (Op.writeAuditEntry ts id event detail).Aloof := by
  refine ⟨rfl, ?_⟩
  rw [Op.drains, controlPlaneRow, if_neg]
  rintro ⟨_, he | he⟩
  · exact h.1 he
  · exact h.2 he

section Aloof

variable {message : NormalizedMessage}

/-- The program has nothing to do with the queue. -/
abbrev KeepsAloof {α : Type} (p : Proc α) : Prop := p.Only Op.Aloof

theorem aloof_call {op : Op} (h : op.Aloof) : KeepsAloof (call op) := Prog.only_perform.2 h

theorem aloof_supporting {α : Type} {p : Proc α} (h : p.Only Op.Supporting) : KeepsAloof p :=
  h.mono fun _ hop => hop.aloof

theorem execute_aloof {executor : ActionExecutor} (h : executor.applier.Wired) (action : Action) :
    KeepsAloof (executor.execute message action) :=
  ActionExecutor.execute_only fun _ => (h.only message action).mono fun _ hop => hop ▸ ⟨rfl, rfl⟩

theorem auditThenMark_aloof {ts event : String} {detail : Option String} {row : ProcessedRow}
    (h : event ≠ "daemon_paused" ∧ event ≠ "daemon_resumed") :
    KeepsAloof (Tier1.auditThenMark message ts event detail row) :=
  (aloof_call (Op.aloof_audit h)).bind fun _ => aloof_call ⟨rfl, rfl⟩

theorem Tier1.runBranch_aloof {deps : Tier1Deps} (hdeps : deps.Wired) (ts : String)
    (verdict : RuleVerdict) : KeepsAloof (runBranch deps message ts verdict) := by
  rw [runBranch]
  split
  · exact (aloof_supporting (alertIfImmediate_only hdeps.alert message verdict)).bind
      fun _ => aloof_call (Op.aloof_audit (by decide))
  · split
    · trivial
    · rename_i components hc
      exact (aloof_supporting (archiveReceipt_only (hdeps.receiptArchive components hc) message
        (some ts))).bind fun _ => auditThenMark_aloof (by decide)
  · exact (execute_aloof hdeps.applier verdict.action).bind fun _ => auditThenMark_aloof (by decide)

theorem processMessage_aloof {deps : Tier1Deps} (hdeps : deps.Wired) (rules : List Rule) :
    KeepsAloof (processMessage deps false message rules) := by
  rw [processMessage_eq, processMessage', if_neg Bool.false_ne_true]
  refine (aloof_call ⟨rfl, rfl⟩).bind fun seen => .ite trivial ?_
  refine (aloof_call ⟨rfl, rfl⟩).bind fun ts => (aloof_call ⟨rfl, rfl⟩).bind fun _ => ?_
  refine (aloof_supporting (evaluate_only (fun c hc => hdeps.classify c hc message) rules
    deps.defaultUnmatchedAction)).bind fun verdict => ?_
  exact (Tier1.runBranch_aloof hdeps ts verdict).bind fun _ => trivial

theorem Tier2.settle_aloof {deps : EscalateDeps} (hdeps : deps.Wired) (ts : String)
    (verdict : Verdict) (band : ConfidenceBand) :
    KeepsAloof (settle deps.tier2 message ts verdict band) := by
  have hact : ∀ c : Bool, ∀ t b u, KeepsAloof (do
      deps.tier2.executor.execute message verdict.suggestedAction
      if c then deps.tier2.ops.alert t b u else pure ()) := fun c t b u =>
    (execute_aloof hdeps.applier verdict.suggestedAction).bind fun _ =>
      .ite (aloof_supporting (hdeps.alert t b u)) trivial
  have hperform : KeepsAloof (perform deps.tier2 message verdict band) := by
    cases band with
    | alertOnly => exact aloof_supporting (hdeps.alert _ _ _)
    | autoact => exact hact _ _ _ _
    | autoactAlert => exact hact _ _ _ _
  have hdraft : KeepsAloof (draft deps.tier2 message verdict) := by
    rw [draft]
    split
    · trivial
    · exact (hdeps.createDraft message _).mono fun _ hop => hop ▸ ⟨rfl, rfl⟩
  have hevent : bandEvent band ≠ "daemon_paused" ∧ bandEvent band ≠ "daemon_resumed" := by
    cases band <;> decide
  refine hperform.bind fun _ => hdraft.bind fun _ => ?_
  refine (aloof_call (Op.aloof_audit hevent)).bind fun _ => ?_
  exact (aloof_call ⟨rfl, rfl⟩).bind fun json => aloof_call ⟨rfl, rfl⟩

theorem processTier2Message_aloof {deps : EscalateDeps} (hdeps : deps.Wired) (input : Tier2Input) :
    KeepsAloof (processTier2Message deps.tier2 input) := by
  rw [processTier2Message_eq]
  refine (aloof_call ⟨rfl, rfl⟩).bind fun ts => (aloof_call ⟨rfl, rfl⟩).bind fun _ => ?_
  refine (aloof_call ⟨rfl, rfl⟩).bind fun usage => .ite ?_ ?_
  · have hask : KeepsAloof (Tier2.askModel deps.tier2 input ts) := by
      refine (Tier2.askModel_only hdeps input ts).mono fun op hop => ?_
      cases hop with
      | supporting h => exact h.aloof
      | asksModel h => exact h.aloof
      | record => exact ⟨rfl, rfl⟩
    refine hask.bind fun verdict => Prog.Only.bind trivial fun accepted => ?_
    exact (Tier2.settle_aloof hdeps ts accepted.1 accepted.2).bind fun _ => trivial
  · refine Prog.Only.bind ?_ fun _ => trivial
    exact (aloof_supporting (hdeps.alert _ _ _)).bind fun _ => auditThenMark_aloof (by decide)

theorem escalateMessageOrQuarantine_aloof {deps : EscalateDeps} (hdeps : deps.Wired) :
    KeepsAloof (escalateMessageOrQuarantine deps message) := by
  have hquarantine : ∀ e, KeepsAloof (quarantine deps.tier2.ops message e) := by
    intro e
    refine (aloof_call ⟨rfl, rfl⟩).bind fun ts => ?_
    refine (aloof_call (Op.aloof_audit (by decide))).bind fun _ => ?_
    refine (aloof_call ⟨rfl, rfl⟩).bind fun _ => (aloof_call ⟨rfl, rfl⟩).bind fun _ => ?_
    exact (aloof_supporting (hdeps.alert _ _ _)).bind fun _ => trivial
  refine Prog.Only.tryCatch (Prog.Only.bind ?_ fun _ => trivial) fun e =>
    .ite (hquarantine e) trivial
  refine (aloof_supporting (hdeps.getThreadContext message)).bind fun context => ?_
  refine (aloof_supporting hdeps.listMailboxes).bind fun mailboxes => ?_
  exact processTier2Message_aloof hdeps (tier2Input message context mailboxes)

theorem checkDailyBudgetAlert_aloof {tiering : TieringConfig} {ops : PipelineObserver}
    (hops : ∀ t b u, (ops.alert t b u).Only Op.Supporting) :
    KeepsAloof (checkDailyBudgetAlert tiering ops) := by
  refine (aloof_call ⟨rfl, rfl⟩).bind fun ts => (aloof_call ⟨rfl, rfl⟩).bind fun alerted => ?_
  refine .ite trivial ((aloof_call ⟨rfl, rfl⟩).bind fun usage => .ite trivial ?_)
  refine (aloof_call ⟨rfl, rfl⟩).bind fun _ => (aloof_call ⟨rfl, rfl⟩).bind fun _ => ?_
  exact aloof_supporting (hops _ _ _)

variable {config : LoopConfig}

theorem processOne_aloof (hdeps : config.deps.Wired) (rules : List Rule)
    (message : NormalizedMessage) : KeepsAloof (processOne config rules message) := by
  refine (processMessage_aloof hdeps.tier1 rules).bind fun verdict => .ite ?_ trivial
  exact (escalateMessageOrQuarantine_aloof hdeps.escalation).bind fun _ =>
    checkDailyBudgetAlert_aloof hdeps.tier1.alert

theorem processBatch_aloof (hdeps : config.deps.Wired) (rules : List Rule) :
    ∀ messages : List NormalizedMessage, KeepsAloof (processBatch config rules messages)
  | [] => trivial
  | message :: messages => by
    refine (aloof_call ⟨rfl, rfl⟩).bind fun stop => .ite trivial ?_
    exact (processOne_aloof hdeps rules message).bind fun _ =>
      processBatch_aloof hdeps rules messages

theorem acknowledge_aloof (config : LoopConfig) (checkpoint : Option String) :
    KeepsAloof (acknowledge config checkpoint) := by
  unfold acknowledge
  split
  · exact aloof_call ⟨rfl, rfl⟩
  · trivial

theorem nextBatch_aloof (config : LoopConfig) : KeepsAloof (nextBatch config) :=
  .ite (aloof_call ⟨rfl, rfl⟩) ((aloof_call ⟨rfl, rfl⟩).bind fun _ => trivial)

/-- **Behind the drain, a round leaves the queue and its rows alone.** -/
theorem pollRound_aloof (hdeps : config.deps.Wired) : KeepsAloof (pollRound config) := by
  refine (nextBatch_aloof config).bind fun batch => ?_
  refine (aloof_call ⟨rfl, rfl⟩).bind fun rules => .ite ?_ ?_
  · exact (acknowledge_aloof config _).bind fun _ => (aloof_call ⟨rfl, rfl⟩).bind fun _ => trivial
  · refine (processBatch_aloof hdeps rules _).bind fun whole => .ite ?_ trivial
    exact (acknowledge_aloof config _).bind fun _ => trivial

end Aloof

/-! ## The invariant -/

/-- The rows since the start, the rest of the list that is being drained and the queue are the
events so far; and the last of them says whether the daemon is paused. -/
structure QueueExact (rows : List PendingAuditEvent) (d : Daemon) : Prop where
  events : ∃ written, d.world.db.controlPlaneRows = rows ++ written ∧
    written ++ d.world.undrained ++ d.pending = d.enqueued
  paused : d.enqueued ≠ [] →
    (d.shared.daemonState.paused = true ↔ d.enqueued.getLast? = some .daemonPaused)
  drained : ∀ event ∈ d.enqueued, controlPlaneRow "" event.event event.detailJson = some event

/-- The same, with `rest` still to be drained. -/
def Draining (rows rest : List PendingAuditEvent) (d : Daemon) : Prop :=
  QueueExact rows d ∧ d.world.undrained = rest

/-- What a handler appends is drained to a row of its own. -/
theorem Handler.event_drained {h : Handler} {event : PendingAuditEvent} (hevent : event ∈ h.event) :
    controlPlaneRow "" event.event event.detailJson = some event := by
  cases h with
  | stop => cases hevent
  | request r => cases r <;> cases hevent <;> decide

section Calls

variable {A : Allowed} {rows rest : List PendingAuditEvent} {d d' : Daemon}

/-- A handler appends to the queue what it adds to the events. -/
theorem Draining.handle (h : Handler) (hd : Draining rows rest d) :
    Draining rows rest (d.handle h) := by
  obtain ⟨⟨⟨written, hrows, hevents⟩, hpaused, hdrained⟩, hrest⟩ := hd
  refine ⟨⟨⟨written, hrows, ?_⟩, ?_, fun event he => ?_⟩, hrest⟩
  · rw [Daemon.pending, Daemon.pending_handle, Daemon.world_handle, Daemon.enqueued_handle,
      ← hevents]
    simp only [List.append_assoc]
  · rw [Daemon.paused_handle, Daemon.enqueued_handle]
    cases hevent : h.event with
    | none => simpa using hpaused
    | some event => simp
  · rcases List.mem_append.1 he with he | he
    · exact hdrained event he
    · rw [Option.mem_toList] at he
      exact h.event_drained he

theorem Responds.controlPlaneRows {w w' : World} {op : Op} {r : Except Exn op.Ret}
    (h : Responds A w op r w') : w'.db.controlPlaneRows
      = w.db.controlPlaneRows ++ if r.isOk then op.drains.toList else [] := by
  rcases h.inv with ⟨a, db', rfl, hgives, rfl⟩ | ⟨e, rfl, _, rfl⟩
  · rw [World.db_record, hgives.commit]
    cases op with
    | writeAuditEntry ts id event detail =>
      show List.filterMap _ (w.db.auditLog.entries ++ [_]) = _
      rw [List.filterMap_append]
      refine congrArg _ ?_
      cases hrow : controlPlaneRow id event detail <;>
        simp [Op.drains, hrow, Except.isOk, Except.toBool]
    | recordLlmCall date i o =>
      obtain ⟨usage, hdb⟩ := Op.commit_recordLlmCall w.db date i o
      rw [hdb]
      exact (List.append_nil _).symm
    | _ => exact (List.append_nil _).symm
  · exact (List.append_nil _).symm

theorem Responds.undrained {w w' : World} {op : Op} {r : Except Exn op.Ret}
    (h : Responds A w op r w') : w'.undrained = undrainedAfter w.undrained ⟨op, r⟩ := by
  rw [World.undrained, h.trace, List.foldl_append]
  rfl

/-- What no call changes of the invariant. -/
theorem QueueExact.call {op : Op} {r : Except Exn op.Ret} (hM : daemonMachine A d op r d')
    (hd : QueueExact rows d) (hevents : ∃ written, d'.world.db.controlPlaneRows = rows ++ written ∧
      written ++ d'.world.undrained ++ d'.pending = d.enqueued) : QueueExact rows d' where
  events := by rwa [hM.enqueued]
  paused := by
    rw [hM.enqueued, hM.paused]
    exact hd.paused
  drained := by
    rw [hM.enqueued]
    exact hd.drained

/-- A call that has nothing to do with the queue. -/
theorem Draining.aloof {op : Op} {r : Except Exn op.Ret} (hop : op.Aloof)
    (hM : daemonMachine A d op r d') (hd : Draining rows rest d) : Draining rows rest d' := by
  obtain ⟨hexact, hrest⟩ := hd
  obtain ⟨written, hrows, hevents⟩ := hexact.events
  have hundrained : d'.world.undrained = d.world.undrained := by
    rw [hM.world.undrained]
    cases op with
    | takePendingEvents => cases hop.1
    | writeAuditEntry ts id event detail =>
      have hrow : controlPlaneRow id event detail = none := hop.2
      cases r <;> simp [undrainedAfter, hrow]
    | _ => rfl
  refine ⟨hexact.call hM ⟨written, ?_, ?_⟩, hundrained.trans hrest⟩
  · rw [hM.world.controlPlaneRows, hop.2, hrows]
    cases r <;> simp
  · rw [hundrained, Daemon.pending, hM.pending hop.1, hevents]

/-- The next event of the list is written, or the store refuses. -/
theorem Draining.write {ts : String} {event : PendingAuditEvent} {r : Except Exn Unit}
    (hM : daemonMachine A d (.writeAuditEntry ts "" event.event event.detailJson) r d')
    (hd : Draining rows (event :: rest) d) :
    QueueExact rows d' ∧ (r.isOk = true → Draining rows rest d') := by
  obtain ⟨hexact, hrest⟩ := hd
  obtain ⟨written, hrows, hevents⟩ := hexact.events
  have hrow : controlPlaneRow "" event.event event.detailJson = some event := by
    refine hexact.drained event ?_
    rw [← hevents, hrest]
    simp
  have hundrained := hM.world.undrained
  have hwritten := hM.world.controlPlaneRows
  have hpending : d'.pending = d.pending := hM.pending rfl
  rw [hrest] at hundrained hevents
  rw [hrows, Op.drains, hrow] at hwritten
  cases r with
  | ok a =>
    have hundrained' : d'.world.undrained = rest := by simpa [undrainedAfter, hrow] using hundrained
    have hexact' : QueueExact rows d' := by
      refine hexact.call hM ⟨written ++ [event], ?_, ?_⟩
      · rw [hwritten, List.append_assoc]
        rfl
      · rw [hundrained', hpending, ← hevents]
        simp
    exact ⟨hexact', fun _ => ⟨hexact', hundrained'⟩⟩
  | error e =>
    refine ⟨hexact.call hM ⟨written, hwritten.trans (List.append_nil _), ?_⟩, fun h => by cases h⟩
    rw [hundrained, hpending]
    exact hevents

/-- The queue is taken, when nothing is left of the last list. -/
theorem Draining.take {r : Except Exn (List PendingAuditEvent)}
    (hM : daemonMachine A d .takePendingEvents r d') (hd : Draining rows [] d) :
    ∃ events, r = .ok events ∧ Draining rows events d' := by
  obtain ⟨hexact, hrest⟩ := hd
  obtain ⟨written, hrows, hevents⟩ := hexact.events
  have hshared : r = .ok d.pending ∧ d'.shared = { d.shared with
      daemonState := { d.shared.daemonState with pendingControlPlaneEvents := [] } } := hM.shared
  obtain ⟨rfl, hshared⟩ := hshared
  have hundrained : d'.world.undrained = d.pending := hM.world.undrained
  have hpending : d'.pending = [] := by rw [Daemon.pending, hshared]
  refine ⟨d.pending, rfl, hexact.call hM ⟨written, ?_, ?_⟩, hundrained⟩
  · rw [hM.world.controlPlaneRows, hrows]
    exact List.append_nil _
  · rw [hundrained, hpending, ← hevents, hrest]
    simp

end Calls

/-! ## A round -/

section Round

variable {A : Allowed} {config : LoopConfig} {K : Daemon → Daemon → Prop}
  {rows rest : List PendingAuditEvent}

/-- The machine on which a round is verified. -/
abbrev roundMachine (A : Allowed) (K : Daemon → Daemon → Prop) : Machine sig Daemon :=
  Task.interrupted (daemonMachine A) Op.awaits K

/-- What handlers may do is some of what handlers do. -/
def OnlyHandlers (K : Daemon → Daemon → Prop) : Prop :=
  ∀ d d', K d d' → ∃ h : Handler, d' = d.handle h

theorem OnlyHandlers.draining (hK : OnlyHandlers K) (d d' : Daemon) (h : K d d')
    (hd : Draining rows rest d) : Draining rows rest d' := by
  obtain ⟨handler, rfl⟩ := hK d d' h
  exact hd.handle handler

theorem OnlyHandlers.exact (hK : OnlyHandlers K) (d d' : Daemon) (h : K d d')
    (hd : QueueExact rows d) : QueueExact rows d' :=
  (hK.draining d d' h ⟨hd, rfl⟩).1

theorem keeps_draining (hK : OnlyHandlers K) {α : Type} {p : Proc α} (hp : KeepsAloof p) :
    (roundMachine A K).Keeps (Draining rows rest) p :=
  keeps_of_only (fun _ _ _ _ hop hd hM => Task.interrupted_post hK.draining hK.draining
    (fun _ _ hM hd => hd.aloof hop hM) hM hd) hp

/-- **The drain**: whatever handlers append in the meantime, the list that was taken ends up in the
log, row by row. -/
theorem drainEvents_exact (hK : OnlyHandlers K) :
    ∀ (events : List PendingAuditEvent) {d : Daemon}, Draining rows events d →
      (roundMachine A K).wp (QueueExact rows) (drainEvents events)
        (fun r d' => QueueExact rows d' ∧ (r.isOk = true → Draining rows [] d')) d
  | [], _, hd => ⟨hd.1, hd.1, fun _ => hd⟩
  | event :: events, d, hd => by
    refine (keeps_draining hK (aloof_call ⟨rfl, rfl⟩)).wp_bind (fun _ h => h.1) hd
      (fun ts d₁ hd₁ => ?_)
      fun _ _ h => ⟨h.1, fun h => by cases h⟩
    refine Machine.wp_perform_bind hd₁.1 (fun _ d₂ hM => ?_) fun e d₂ hM => ?_
    · refine drainEvents_exact hK events ?_
      exact Task.interrupted_post hK.draining hK.draining
        (fun _ _ hM hd => (hd.write hM).2 rfl) hM hd₁
    · have hd₂ : QueueExact rows d₂ := Task.interrupted_post hK.draining hK.exact
        (fun _ _ hM hd => (hd.write hM).1) hM hd₁
      exact ⟨hd₂, hd₂, fun h => by cases h⟩

/-- What a round ends with: nothing left to drain, and it only leaves the loop when told to. -/
def RoundEnds (rows : List PendingAuditEvent) (r : Except Exn (Next Unit Unit)) (d : Daemon) :
    Prop :=
  QueueExact rows d ∧ (r.isOk = true → d.world.undrained = []) ∧ (r = .ok (.leave ()) → d.Stopping)

/-- A call on the shared memory is answered at once, before anybody else runs. -/
theorem wp_shared {β : Type} {I : Daemon → Prop} {op : Op}
    {g : SharedMemory → op.Ret × SharedMemory}
    (hop : op.onShared = some g) {f : op.Ret → Proc β} {Q : Except Exn β → Daemon → Prop}
    {d : Daemon}
    (hI : I d) (hf : ∀ d', d.Responds A op (.ok (g d.shared).1) d' →
      (roundMachine A K).wp I (f (g d.shared).1) Q d') :
    (roundMachine A K).wp I (call op >>= f) Q d := by
  refine ⟨hI, fun r d' h => ?_⟩
  have hM : d.Responds A op r d' := by
    unfold roundMachine Task.interrupted at h
    rwa [if_neg (by simp [Op.awaits, hop])] at h
  have hshared := hM.shared
  rw [hop] at hshared
  obtain ⟨rfl, _⟩ := hshared
  exact hf d' hM

/-- A loop that is told to stop is stopping. -/
theorem Daemon.Responds.stopping {d d' : Daemon} {r : Except Exn Bool}
    (h : d.Responds A .stopIsSet r d') (hstop : d.shared.stopEvent = true) : d'.Stopping := by
  rw [Daemon.Stopping, h.stopEvent, hstop]

/-- The loop over a batch is only left early when it is told to stop. -/
theorem processBatch_stops (hK : OnlyHandlers K) (hdeps : config.deps.Wired) (rules : List Rule) :
    ∀ (messages : List NormalizedMessage) {d : Daemon}, Draining rows [] d →
      (roundMachine A K).wp (Draining rows []) (processBatch config rules messages)
        (fun r d' => r = .ok false → d'.Stopping) d
  | [], _, hd => ⟨hd, fun h => by cases h⟩
  | message :: messages, d, hd => by
    refine wp_shared rfl hd fun d₁ hM => ?_
    have hd₁ : Draining rows [] d₁ := hd.aloof ⟨rfl, rfl⟩ hM
    split
    · rename_i hstop
      exact ⟨hd₁, fun _ => hM.stopping hstop⟩
    · exact (keeps_draining hK (processOne_aloof hdeps rules message)).wp_bind (fun _ h => h) hd₁
        (fun _ d₂ hd₂ => processBatch_stops hK hdeps rules messages hd₂) fun _ _ _ h => by cases h

theorem roundEnds_again {d : Daemon} (hd : Draining rows [] d) :
    RoundEnds rows (.ok (.again ())) d := ⟨hd.1, fun _ => hd.2, fun h => by cases h⟩

theorem roundEnds_raise {e : Exn} {d : Daemon} (hd : QueueExact rows d) :
    RoundEnds rows (.error e) d := ⟨hd, (fun h => by cases h), fun h => by cases h⟩

/-- What follows a program that has nothing to do with the queue. -/
theorem KeepsAloof.wp_bind (hK : OnlyHandlers K) {α : Type} {p : Proc α} (hp : KeepsAloof p)
    {f : α → Proc (Next Unit Unit)} {d : Daemon} (hd : Draining rows [] d)
    (hf : ∀ a d', Draining rows [] d' →
      (roundMachine A K).wp (QueueExact rows) (f a) (RoundEnds rows) d') :
    (roundMachine A K).wp (QueueExact rows) (p >>= f) (RoundEnds rows) d :=
  (keeps_draining hK hp).wp_bind (fun _ h => h.1) hd hf fun _ _ h => roundEnds_raise h.1

/-- The part of a round behind the drain. -/
theorem pollRound_exact (hK : OnlyHandlers K) (hdeps : config.deps.Wired) {d : Daemon}
    (hd : Draining rows [] d) :
    (roundMachine A K).wp (QueueExact rows) (pollRound config) (RoundEnds rows) d := by
  refine KeepsAloof.wp_bind hK (nextBatch_aloof config) hd fun batch d₁ hd₁ => ?_
  refine KeepsAloof.wp_bind hK (aloof_call ⟨rfl, rfl⟩) hd₁ fun current d₂ hd₂ => ?_
  split
  · refine KeepsAloof.wp_bind hK (acknowledge_aloof config _) hd₂ fun _ d₃ hd₃ => ?_
    exact KeepsAloof.wp_bind hK (aloof_call ⟨rfl, rfl⟩) hd₃ fun _ d₄ hd₄ =>
      ⟨hd₄.1, roundEnds_again hd₄⟩
  · have hkeeps : (roundMachine A K).Keeps (Draining rows []) (processBatch config current _) :=
      keeps_draining hK (processBatch_aloof hdeps current batch.messages)
    have hbatch := wp_and (hkeeps d₂ hd₂)
      (processBatch_stops hK hdeps current batch.messages hd₂)
    refine Machine.wp_bind.2 (wp_mono (fun _ h => h.1.1) (fun r d₃ hd₃ hr => ?_) hbatch)
    cases r with
    | error e => exact ⟨hd₃.1.1, roundEnds_raise hd₃.1.1⟩
    | ok whole =>
      cases whole with
      | false => exact ⟨hd₃.1.1, hd₃.1.1, fun _ => hd₃.1.2, fun _ => hr.2 rfl⟩
      | true =>
        exact KeepsAloof.wp_bind hK (acknowledge_aloof config _) hd₃.1 fun _ d₄ hd₄ =>
          ⟨hd₄.1, roundEnds_again hd₄⟩

/-- **A round keeps the invariant**, whatever handlers run during it. -/
theorem messageLoop_exact (hK : OnlyHandlers K) (hdeps : config.deps.Wired) (s : Unit) (d : Daemon)
    (hd : Draining rows [] d) :
    (roundMachine A K).wp (QueueExact rows) (messageLoop config s) (RoundEnds rows) d := by
  refine wp_shared rfl hd.1 fun d₁ hM => ?_
  have hd₁ : Draining rows [] d₁ := hd.aloof ⟨rfl, rfl⟩ hM
  split
  · rename_i hstop
    exact ⟨hd₁.1, hd₁.1, fun _ => hd₁.2, fun _ => hM.stopping hstop⟩
  · refine wp_shared rfl hd₁.1 fun d₂ hM => ?_
    obtain ⟨events, hevents, hd₂⟩ := hd₁.take hM
    cases hevents
    refine Machine.wp_bind.2 (wp_mono (fun _ h => h) (fun r d₃ _ hr => ?_)
      (drainEvents_exact hK _ hd₂))
    cases r with
    | error e => exact ⟨hr.1, roundEnds_raise hr.1⟩
    | ok u =>
      refine wp_shared rfl hr.1 fun d₄ hM => ?_
      have hd₄ : Draining rows [] d₄ := (hr.2 rfl).aloof ⟨rfl, rfl⟩ hM
      split
      · exact KeepsAloof.wp_bind hK (aloof_call ⟨rfl, rfl⟩) hd₄ fun _ d₅ hd₅ =>
          ⟨hd₅.1, roundEnds_again hd₅⟩
      · exact pollRound_exact hK hdeps hd₄

end Round

/-! ## No event is lost, repeated or moved -/

theorem draining_start (db : StateDB) (startedAt : String) (rules : List Rule) :
    Draining db.controlPlaneRows [] (.start ⟨db, []⟩ (.fresh startedAt rules)) :=
  ⟨⟨⟨[], (List.append_nil _).symm, rfl⟩, fun h => absurd rfl h, fun _ h => by cases h⟩, rfl⟩

/-- What every run keeps, and what it comes to. -/
theorem LoopRun.queueExact {A : Allowed} {config : LoopConfig} (hdeps : config.deps.Wired)
    {db : StateDB} {startedAt : String} {rules : List Rule} {c : DaemonPoint}
    (hrun : LoopRun A config anyHandler (.start ⟨db, []⟩ (.fresh startedAt rules)) c) :
    QueueExact db.controlPlaneRows c.world ∧
      ∀ r, c.rest = .done r → RoundEnds db.controlPlaneRows r c.world := by
  have hK : OnlyHandlers fun d d' => ∃ h : Handler, d' = d.handle h := fun _ _ h => h
  exact Task.reaches_wp (J := fun _ => Draining db.controlPlaneRows [])
    (fun c d h => h.imp fun _ h => h.2) hK.exact (messageLoop_exact hK hdeps)
    (fun s d h => ⟨h.1, h.2.1 rfl⟩) (draining_start db startedAt rules) hrun

/-- **The queue is exact.**  Wherever a run has got to, the rows written since the start, the rest
of the list that is being drained and the queue are exactly the events so far, in order; and the
daemon is paused just when the last of them says so. -/
theorem control_plane_queue_exact {A : Allowed} {config : LoopConfig} (hdeps : config.deps.Wired)
    {db : StateDB} {startedAt : String} {rules : List Rule} {c : DaemonPoint}
    (hrun : LoopRun A config anyHandler (.start ⟨db, []⟩ (.fresh startedAt rules)) c) :
    (∃ written, c.world.world.db.controlPlaneRows = db.controlPlaneRows ++ written ∧
      written ++ c.world.world.undrained ++ c.world.pending = c.world.enqueued) ∧
    (c.world.enqueued ≠ [] → (c.world.shared.daemonState.paused = true ↔
      c.world.enqueued.getLast? = some .daemonPaused)) := by
  obtain ⟨hqueue, -⟩ := hrun.queueExact hdeps
  exact ⟨hqueue.events, hqueue.paused⟩

/-! ## What is lost when the loop is told to stop -/

/-- The loop is only told to stop when nothing is queued, and nothing is queued after that. -/
def StopsWithNothingQueued (c : DaemonPoint) (h : Handler) : Prop :=
  (h = .stop → c.world.pending = []) ∧ (h.event.isSome = true → c.world.shared.stopEvent = false)

/-- Events are queued that the loop will not come back for. -/
def Daemon.Loses (d : Daemon) : Prop := d.Stopping ∧ d.pending ≠ []

section Stop

variable {A : Allowed} {config : LoopConfig} {c c' : DaemonPoint}

/-- A handler that runs at another moment leaves events that are lost. -/
theorem Daemon.loses_handle {d : Daemon} {h : Handler}
    (hnot : ¬((h = .stop → d.pending = []) ∧
      (h.event.isSome = true → d.shared.stopEvent = false))) :
    (d.handle h).Loses := by
  rw [not_and_or, Classical.not_imp, Classical.not_imp] at hnot
  rcases hnot with ⟨rfl, hpending⟩ | ⟨hevent, hstop⟩
  · exact ⟨rfl, by simpa [Daemon.pending, Handler.event] using hpending⟩
  · have hstopping : d.Stopping := by simpa using hstop
    refine ⟨hstopping.handle h, ?_⟩
    obtain ⟨event, hevent⟩ := Option.isSome_iff_exists.1 hevent
    simp [Daemon.pending, hevent]

/-- The program does not come back for the queue. -/
abbrev TakesNoMore {α : Type} (p : Proc α) : Prop := p.Only fun op : Op => op.takes = false

/-- Where a round may be: at its start, about to take the queue, or behind that.  Between asking
whether to stop and taking the queue no handler can run. -/
inductive RoundPoint (config : LoopConfig) (c : DaemonPoint) : Prop where
  | start (h : c.rest = messageLoop config ())
  | taking {k : Except Exn (List PendingAuditEvent) → Proc (Next Unit Unit)}
      (hrest : c.rest = .call .takePendingEvents k) (hclosed : c.isOpen Op.awaits = false)
      (hstop : c.world.shared.stopEvent = false) (h : ∀ r, TakesNoMore (k r))
  | behind (h : TakesNoMore c.rest)

theorem drainEvents_takesNoMore : ∀ events : List PendingAuditEvent,
    TakesNoMore (drainEvents events)
  | [] => trivial
  | _ :: events =>
    Prog.Only.bind (Prog.only_perform.2 rfl) fun _ =>
      Prog.Only.bind (Prog.only_perform.2 rfl) fun _ => drainEvents_takesNoMore events

/-- What a round does once it has taken the queue. -/
theorem behindTake_takesNoMore (hdeps : config.deps.Wired) (events : List PendingAuditEvent) :
    TakesNoMore (do
      drainEvents events
      if ← call .isPaused then do
        call .sleep
        pure (Next.again ())
      else pollRound config : Proc (Next Unit Unit)) := by
  refine (drainEvents_takesNoMore events).bind fun _ => ?_
  refine Prog.Only.bind (Prog.only_perform.2 rfl) fun paused => .ite ?_ ?_
  · exact Prog.Only.bind (Prog.only_perform.2 rfl) fun _ => trivial
  · exact (pollRound_aloof hdeps).mono fun _ hop => hop.1

theorem RoundPoint.call (hdeps : config.deps.Wired) {op : Op}
    {k : Except Exn op.Ret → Proc (Next Unit Unit)} {d d' : Daemon} {b : Bool}
    {r : Except Exn op.Ret}
    (hM : daemonMachine A d op r d') (h : RoundPoint config ⟨.call op k, d, b⟩) :
    RoundPoint config ⟨k r, d', op.awaits⟩ := by
  cases h with
  | start h =>
    cases h
    obtain ⟨rfl, hshared⟩ := hM.stopIsSet
    cases hstop : d.shared.stopEvent with
    | true => exact .behind trivial
    | false =>
      refine .taking rfl rfl (by rw [hshared, hstop]) fun r => ?_
      cases r with
      | ok events => exact behindTake_takesNoMore hdeps events
      | error e => trivial
  | taking hrest _ _ h =>
    cases hrest
    exact .behind (h r)
  | behind h => exact .behind (h.2 r)

theorem RoundPoint.step (hdeps : config.deps.Wired) (h : RoundPoint config c)
    (hs : Task.Step (daemonMachine A) Op.awaits (handlers anyHandler) (messageLoop config) c c') :
    RoundPoint config c' := by
  cases hs with
  | call hM => exact h.call hdeps hM
  | again => exact .start rfl
  | handle hopen _ =>
    cases h with
    | start h => exact .start h
    | taking _ hclosed => exact absurd hopen (by simp [hclosed])
    | behind h => exact .behind h

/-- **What is lost stays lost.** -/
theorem Daemon.Loses.step (hpoint : RoundPoint config c) (h : c.world.Loses)
    (hs : Task.Step (daemonMachine A) Op.awaits (handlers anyHandler) (messageLoop config) c c') :
    c'.world.Loses := by
  cases hs with
  | @call op k d d' b r hM =>
    have htakes : op.takes = false := by
      cases hpoint with
      | start h => cases h; rfl
      | taking _ _ hstop => exact absurd (h.1.symm.trans hstop) (by decide)
      | behind h => exact h.1
    exact ⟨by rw [Daemon.Stopping, hM.stopEvent]; exact h.1,
      by rw [Daemon.pending, hM.pending htakes]; exact h.2⟩
  | again => exact h
  | handle _ hrun =>
    obtain ⟨handler, _, rfl⟩ := hrun
    refine ⟨h.1.handle handler, ?_⟩
    rw [Daemon.pending, Daemon.pending_handle]
    exact fun hnil => h.2 (List.append_eq_nil_iff.1 hnil).1

/-- Every run either has its handlers where they do no harm, or loses events. -/
theorem LoopRun.timely_or_loses (hdeps : config.deps.Wired) {d : Daemon}
    (hrun : LoopRun A config anyHandler d c) : RoundPoint config c ∧
      (LoopRun A config StopsWithNothingQueued d c ∨ c.world.Loses) := by
  induction hrun with
  | refl => exact ⟨.start rfl, .inl .refl⟩
  | @tail c₁ c₂ _ hs ih =>
    obtain ⟨hpoint, htimely | hloses⟩ := ih
    · refine ⟨hpoint.step hdeps hs, ?_⟩
      cases hs with
      | call hM => exact .inl (htimely.tail (.call hM))
      | again => exact .inl (htimely.tail .again)
      | handle hopen hrun =>
        obtain ⟨handler, _, rfl⟩ := hrun
        by_cases hmay : StopsWithNothingQueued c₁ handler
        · exact .inl (htimely.tail (.handle hopen ⟨handler, hmay, rfl⟩))
        · exact .inr (Daemon.loses_handle hmay)
    · exact ⟨hpoint.step hdeps hs, .inr (hloses.step hpoint hs)⟩

/-- Where handlers do no harm, nothing is queued once the loop is told to stop. -/
theorem LoopRun.nothing_queued {d : Daemon} (hd : d.shared.stopEvent = false)
    (hrun : LoopRun A config StopsWithNothingQueued d c) :
    c.world.Stopping → c.world.pending = [] := by
  induction hrun with
  | refl => exact fun h => absurd (h.symm.trans hd) (by decide)
  | @tail c₁ c₂ _ hs ih =>
    intro hstop
    cases hs with
    | @call op k d₁ d₂ b r hM =>
      rw [Daemon.Stopping, hM.stopEvent] at hstop
      cases htakes : op.takes with
      | false =>
        rw [Daemon.pending, hM.pending htakes]
        exact ih hstop
      | true =>
        cases op <;> cases htakes
        rw [Daemon.pending, hM.shared.2]
    | again => exact ih hstop
    | handle _ hrun =>
      obtain ⟨handler, hmay, rfl⟩ := hrun
      rw [Daemon.pending, Daemon.pending_handle]
      cases hevent : handler.event with
      | some event =>
        have hnot := hmay.2 (by rw [hevent]; rfl)
        cases handler with
        | stop => cases hevent
        | request r =>
          cases r <;> cases hevent <;> exact absurd (hnot.symm.trans hstop) (by decide)
      | none =>
        rw [Option.toList_none, List.append_nil]
        by_cases hhandler : handler = .stop
        · exact hmay.1 hhandler
        · cases handler with
          | stop => exact absurd rfl hhandler
          | request r =>
            cases r with
            | reload loaded => cases loaded <;> exact ih hstop
            | _ => exact ih hstop

end Stop

/-- **When the loop has returned, every event is in the log just when it was told to stop with
nothing queued and nothing was queued after that.** -/
theorem control_plane_events_written_iff {A : Allowed} {config : LoopConfig}
    (hdeps : config.deps.Wired) {db : StateDB} {startedAt : String} {rules : List Rule}
    {c : DaemonPoint}
    (hrun : LoopRun A config anyHandler (.start ⟨db, []⟩ (.fresh startedAt rules)) c)
    (hexit : c.rest = .done (.ok (.leave ()))) :
    c.world.world.db.controlPlaneRows = db.controlPlaneRows ++ c.world.enqueued ↔
      LoopRun A config StopsWithNothingQueued (.start ⟨db, []⟩ (.fresh startedAt rules)) c := by
  obtain ⟨hqueue, hundrained, hstop⟩ := (hrun.queueExact hdeps).2 _ hexit
  obtain ⟨written, hrows, hevents⟩ := hqueue.events
  rw [hundrained rfl, List.append_nil] at hevents
  rw [hrows, List.append_cancel_left_eq]
  constructor
  · intro hwritten
    rcases (hrun.timely_or_loses hdeps).2 with htimely | hloses
    · exact htimely
    · rw [hwritten, List.append_right_eq_self] at hevents
      exact absurd hevents hloses.2
  · intro htimely
    rw [htimely.nothing_queued rfl (hstop rfl), List.append_nil] at hevents
    exact hevents

/-! ### A pause and a stop -/

/-- The quiet day's loop, with handlers that run while it waits for the source, and what follows. -/
def whilePolling (hs : List Handler) (ms : List (Task.Move Handler)) : DaemonPoint :=
  Env.quiet.schedule { deps := oneCall.deps } (.start ⟨.empty, []⟩ (.fresh "" []))
    ([.go, .go, .go] ++ hs.map .handle ++ ms)

/-- Paused, reloaded and resumed during a poll, and paused again when the next round has written one
of the two events. -/
def pausedAgain : DaemonPoint :=
  whilePolling [.request .pause, .request (.reload (.ok [])), .request .resume]
    (.replicate 8 .go ++ [.handle (.request .pause)])

/-- One event is written, one is still to be written in this round, and one is queued. -/
theorem control_plane_queue_exact_quiet :
    (∃ written, pausedAgain.world.world.db.controlPlaneRows = [] ++ written ∧
      written ++ pausedAgain.world.world.undrained ++ pausedAgain.world.pending
        = [.daemonPaused, .daemonResumed, .daemonPaused]) ∧
    pausedAgain.world.world.undrained = [.daemonResumed] ∧
    pausedAgain.world.pending = [.daemonPaused] :=
  ⟨(control_plane_queue_exact oneCall.wired
    (Env.schedule_run Env.quiet_lawful _ _ _ fun _ _ _ => trivial)).1, rfl, rfl⟩

/-- Paused during a poll, and stopped while the next round sleeps. -/
def stoppedWhilePaused : DaemonPoint :=
  whilePolling [.request .pause] (.replicate 9 .go ++ [.handle .stop, .go, .go, .go])

/-- The pause is written before the stop. -/
theorem control_plane_events_written_quiet :
    stoppedWhilePaused.world.world.db.controlPlaneRows = [.daemonPaused] ∧
      LoopRun anything { deps := oneCall.deps } StopsWithNothingQueued
        (.start ⟨.empty, []⟩ (.fresh "" [])) stoppedWhilePaused :=
  ⟨rfl, (control_plane_events_written_iff oneCall.wired
    (Env.schedule_run Env.quiet_lawful _ _ _ fun _ _ _ => trivial) rfl).1 rfl⟩

/-- **A pause that is answered during the last poll is never written.** -/
theorem pause_lost_at_stop :
    ∃ c, LoopRun anything { deps := oneCall.deps } anyHandler
      (.start ⟨.empty, []⟩ (.fresh "" [])) c ∧
      c.rest = .done (.ok (.leave ())) ∧ c.world.enqueued = [.daemonPaused] ∧
      c.world.world.db.controlPlaneRows = [] :=
  ⟨whilePolling [.request .pause, .stop] (.replicate 5 .go),
    Env.schedule_run Env.quiet_lawful _ _ _ fun _ _ _ => trivial, rfl, rfl, rfl⟩

end Spork
