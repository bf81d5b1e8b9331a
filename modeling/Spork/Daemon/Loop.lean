import Spork.Runtime
import Spork.Effects.Loop

/-!
# The daemon's message loop

`daemon/loop.py`: `_run_message_loop`, one round at a time.  What the coroutine shares with the IPC
handlers and the signal handler (`stop_event`, `daemon_state`, `rules_state`) is read by calls,
so another task may have changed it at any point; and a round that raises takes the loop down.

Whether the source is a `CheckpointedSource` is decided once by its type, so it is part of the
configuration here.
-/

set_option autoImplicit false

namespace Spork

open Effects

/-- The arguments of `_run_message_loop` that never change. -/
structure LoopConfig where
  deps : MessageDeps
  checkpointed : Bool := true
  cursorAccountId : Option String := none
  observe : Bool := false

/-- `_check_daily_budget_alert`: one alert for each day on which the budget runs out. -/
def checkDailyBudgetAlert (tiering : TieringConfig) (ops : PipelineObserver) : Proc Unit := do
  let ts ← call .now
  let today := dateOf ts
  let alerted ← call .budgetAlertDate
  if alerted = some today then pure ()
  else do
    let usage ← call (.getLlmUsage today)
    if hasBudgetRemaining usage tiering.dailyCallBudget then pure ()
    else do
      call (.setBudgetAlertDate today)
      let _ ← call .newCorrelationId
      ops.alert "Daily LLM budget exhausted"
        ("sporkd has used " ++ toString usage.calls ++ "/" ++ toString tiering.dailyCallBudget ++
          " Tier 2 calls today; further escalations are being skipped until the budget resets.")
        .critical

/-- The body of the loop over a batch. -/
def processOne (config : LoopConfig) (rules : List Rule) (message : NormalizedMessage) :
    Proc Unit := do
  let verdict ← processMessage config.deps.tier1 false message rules
  if !config.observe && escalates verdict then do
    let _ ← escalateMessageOrQuarantine config.deps.escalation message
    checkDailyBudgetAlert config.deps.escalation.tier2.tiering config.deps.tier1.ops
  else pure ()

/-- `process_message` begins with its idempotency gate, and nothing else in the loop calls it. -/
def Op.startsMessage : Op → Bool
  | .hasProcessed _ => true
  | _ => false

/-- The loop over a batch: whether it came to its end, and not to a stop. -/
def processBatch (config : LoopConfig) (rules : List Rule) : List NormalizedMessage → Proc Bool
  | [] => pure true
  | message :: messages => do
    if ← call .stopIsSet then pure false
    else do
      processOne config rules message
      processBatch config rules messages

/-- Write the control-plane events queued so far. -/
def drainEvents : List PendingAuditEvent → Proc Unit
  | [] => pure ()
  | event :: events => do
    let ts ← call .now
    call (.writeAuditEntry ts "" event.event event.detailJson)
    drainEvents events

/-- Ask the source: messages, and what may be acknowledged once they are done. -/
def nextBatch (config : LoopConfig) : Proc MessageBatch :=
  if config.checkpointed then call .pollBatch
  else do
    let messages ← call .poll
    pure ⟨messages, none⟩

/-- Acknowledge a checkpoint. -/
def acknowledge (config : LoopConfig) (checkpoint : Option String) : Proc Unit :=
  match checkpoint, config.cursorAccountId with
  | some state, some accountId => call (.setCursor accountId state)
  | _, _ => pure ()

theorem acknowledge_some {config : LoopConfig} {accountId : String}
    (h : config.cursorAccountId = some accountId) (state : String) :
    acknowledge config (some state) = call (.setCursor accountId state) := by
  unfold acknowledge
  rw [h]

/-- Nothing new: acknowledge, and sleep on it. -/
def idleRound (config : LoopConfig) (checkpoint : Option String) : Proc (Next Unit Unit) := do
  acknowledge config checkpoint
  call .sleep
  pure (.again ())

/-- Process a batch, and acknowledge it behind its last message. -/
def busyRound (config : LoopConfig) (rules : List Rule) (batch : MessageBatch) :
    Proc (Next Unit Unit) := do
  if ← processBatch config rules batch.messages then do
    acknowledge config batch.checkpoint
    pure (.again ())
  else pure (.leave ())

/-- Fetch and process, when the daemon is not paused. -/
def pollRound (config : LoopConfig) : Proc (Next Unit Unit) := do
  let batch ← nextBatch config
  let rules ← call .currentRules
  if batch.messages = [] then idleRound config batch.checkpoint
  else busyRound config rules batch

/-- One round of `_run_message_loop`. -/
def messageLoop (config : LoopConfig) (_ : Unit) : Proc (Next Unit Unit) := do
  if ← call .stopIsSet then pure (.leave ())
  else do
    let pending ← call .takePendingEvents
    drainEvents pending
    if ← call .isPaused then do
      call .sleep
      pure (.again ())
    else pollRound config

/-- Without `observe`, a message of a batch is handled like any other. -/
theorem processOne_eq (config : LoopConfig) (hobserve : config.observe = false)
    (rules : List Rule) (message : NormalizedMessage) :
    processOne config rules message = (do
      let result ← handleMessage config.deps rules message
      if result.2.isSome then
        checkDailyBudgetAlert config.deps.escalation.tier2.tiering config.deps.tier1.ops
      else pure ()) := by
  rw [processOne, handleMessage, bind_assoc]
  refine bind_congr fun verdict => ?_
  rw [hobserve]
  cases escalates verdict with
  | true => simp
  | false => simp

/-! ## Composition -/

/-- `_ObserveActionApplier`. -/
def observeActionApplier : ActionApplier := ⟨fun _ _ => pure ()⟩

/-- `_ObserveDraftCreator`. -/
def observeDraftCreator : DraftCreator := ⟨fun _ _ => pure ()⟩

/-- `_ObserveKeywordApplier`. -/
def observeKeywordApplier : KeywordApplier := ⟨fun _ _ => pure ()⟩

/-- `dataclasses.replace(receipt_archive, keyword_applier=_ObserveKeywordApplier(),
dry_run=True)`. -/
def ReceiptArchiveComponents.observed (c : ReceiptArchiveComponents) : ReceiptArchiveComponents :=
  { c with keywordApplier := observeKeywordApplier, dryRun := true }

/-- What Tier 1 is given in observe mode. -/
def Deployment.observedTier1 (d : Deployment) : Tier1Deps :=
  { d.tier1 with
    executor := ⟨observeActionApplier⟩
    receiptArchive := d.tier1.receiptArchive.map ReceiptArchiveComponents.observed }

/-- What an escalation is given in observe mode. -/
def Deployment.observedEscalation (d : Deployment) : EscalateDeps :=
  { d.escalation with
    tier2 := { d.tier2 with
      executor := ⟨observeActionApplier⟩
      draftCreator := observeDraftCreator } }

/-- What `run_daemon` hands to its message loop.  A provider that is a `CheckpointedProvider` has an
account. -/
def Deployment.runDaemon (d : Deployment) (observe : Bool) (accountId : Option String) :
    LoopConfig where
  deps := if observe then ⟨d.observedTier1, d.observedEscalation⟩ else d.deps
  checkpointed := accountId.isSome
  cursorAccountId := accountId
  observe := observe

theorem ReceiptArchiveConfig.observed_wired (config : ReceiptArchiveConfig) :
    config.components.observed.Wired where
  fetchAttachments := config.wired.fetchAttachments
  applyKeywords _ _ := trivial
  extractReceipt := config.wired.extractReceipt
  lookupDomain := config.wired.lookupDomain

/-- What `run_daemon` injects is wired, in observe mode or not. -/
theorem Deployment.runDaemon_wired (d : Deployment) (observe : Bool) (accountId : Option String) :
    (d.runDaemon observe accountId).deps.Wired := by
  cases observe with
  | false => exact d.wired
  | true =>
    refine ⟨⟨fun _ _ => .inr rfl, d.tier1_wired.alert, d.tier1_wired.classify, fun c hc => ?_⟩,
      { d.escalation_wired with
        applier := fun _ _ => .inr rfl
        createDraft := fun _ _ => trivial }⟩
    obtain ⟨c', hc', rfl⟩ := Option.map_eq_some_iff.1 hc
    obtain ⟨config, _, rfl⟩ := Option.map_eq_some_iff.1 hc'
    exact config.observed_wired

/-! ## What a round calls besides handling messages -/

/-- The calls of a round that are neither about a message, nor the poll, nor the acknowledgement. -/
inductive Op.Housekeeping : Op → Prop where
  | supporting {op : Op} (h : op.Supporting) : Housekeeping op
  | audit {ts event : String} {detail : Option String} :
      Housekeeping (.writeAuditEntry ts "" event detail)
  | stopIsSet : Housekeeping .stopIsSet
  | isPaused : Housekeeping .isPaused
  | takePendingEvents : Housekeeping .takePendingEvents
  | currentRules : Housekeeping .currentRules
  | budgetAlertDate : Housekeeping .budgetAlertDate
  | setBudgetAlertDate {date : String} : Housekeeping (.setBudgetAlertDate date)
  | sleep : Housekeeping .sleep

theorem checkDailyBudgetAlert_only {tiering : TieringConfig} {ops : PipelineObserver}
    (hops : ∀ t b u, (ops.alert t b u).Only Op.Supporting) :
    (checkDailyBudgetAlert tiering ops).Only fun op : Op => op.Housekeeping := by
  have hcall : ∀ {op : Op}, op.Housekeeping → (call op).Only fun op : Op => op.Housekeeping :=
    fun h => Prog.only_perform.2 h
  refine (hcall (.supporting (by trivial))).bind fun ts => ?_
  refine (hcall .budgetAlertDate).bind fun alerted => .ite trivial ?_
  refine (hcall (.supporting (by trivial))).bind fun usage => .ite trivial ?_
  refine (hcall .setBudgetAlertDate).bind fun _ => (hcall (.supporting (by trivial))).bind
    fun _ => ?_
  exact (hops _ _ _).mono fun _ => .supporting

theorem drainEvents_only : ∀ events : List PendingAuditEvent,
    (drainEvents events).Only fun op : Op => op.Housekeeping
  | [] => trivial
  | event :: events => by
    refine Prog.Only.bind (Prog.only_perform.2 (.supporting (by trivial))) fun ts => ?_
    exact Prog.Only.bind (Prog.only_perform.2 .audit) fun _ => drainEvents_only events

/-! ## What a round keeps -/

/-- The calls of a round that are not about a message. -/
inductive Op.Looping : Op → Prop where
  | housekeeping {op : Op} (h : op.Housekeeping) : Looping op
  | poll : Looping .poll
  | pollBatch : Looping .pollBatch
  | setCursor {accountId state : String} : Looping (.setCursor accountId state)

section Keeps

open Machine

variable {W : Type} {N : Machine sig W} {I : W → Prop} {config : LoopConfig}

theorem processBatch_keeps (hobserve : config.observe = false) (hdeps : config.deps.Wired)
    (hloop : ∀ w (op : Op) r w', op.Looping → I w → N w op r w' → I w') (rules : List Rule)
    (hhandle : ∀ message, N.Keeps I (handleMessage config.deps rules message)) :
    ∀ messages : List NormalizedMessage, N.Keeps I (processBatch config rules messages)
  | [] => keeps_done
  | message :: messages => by
    have hstop : N.Keeps I (call .stopIsSet) :=
      keeps_of_only hloop (Prog.only_perform.2 (.housekeeping .stopIsSet))
    refine hstop.bind fun stop => .ite keeps_done (Keeps.bind ?_ fun _ =>
      processBatch_keeps hobserve hdeps hloop rules hhandle messages)
    rw [processOne_eq config hobserve]
    refine (hhandle message).bind fun result => .ite ?_ keeps_done
    exact keeps_of_only hloop
      ((checkDailyBudgetAlert_only hdeps.tier1.alert).mono fun _ => .housekeeping)

/-- **A round keeps what handling a message keeps**, if the calls of the loop do. -/
theorem messageLoop_keeps (hobserve : config.observe = false) (hdeps : config.deps.Wired)
    (hloop : ∀ w (op : Op) r w', op.Looping → I w → N w op r w' → I w')
    (hhandle : ∀ rules message, N.Keeps I (handleMessage config.deps rules message)) :
    N.Keeps I (messageLoop config ()) := by
  have hcall : ∀ {op : Op}, op.Looping → N.Keeps I (call op) := fun h =>
    keeps_of_only hloop (Prog.only_perform.2 h)
  have hack : ∀ checkpoint, N.Keeps I (acknowledge config checkpoint) := by
    intro checkpoint
    unfold acknowledge
    split
    · exact hcall .setCursor
    · exact keeps_done
  refine (hcall (.housekeeping .stopIsSet)).bind fun stop => .ite keeps_done ?_
  refine (hcall (.housekeeping .takePendingEvents)).bind fun pending => ?_
  refine (keeps_of_only hloop ((drainEvents_only pending).mono fun _ => .housekeeping)).bind
    fun _ => ?_
  refine (hcall (.housekeeping .isPaused)).bind fun paused =>
    .ite ((hcall (.housekeeping .sleep)).bind fun _ => keeps_done) ?_
  refine Keeps.bind (.ite (hcall .pollBatch) ((hcall .poll).bind fun _ => keeps_done))
    fun batch => ?_
  refine (hcall (.housekeeping .currentRules)).bind fun rules => .ite ?_ ?_
  · exact (hack _).bind fun _ => (hcall (.housekeeping .sleep)).bind fun _ => keeps_done
  · refine (processBatch_keeps hobserve hdeps hloop rules (hhandle rules) batch.messages).bind
      fun finished => .ite ?_ keeps_done
    exact (hack _).bind fun _ => keeps_done

end Keeps

end Spork
