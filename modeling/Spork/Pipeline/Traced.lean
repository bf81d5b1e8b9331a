import Spork.Pipeline.Tracing

/-!
# The composed pipelines, traced

`core/pipeline/default.py` and `core/pipeline/tier2/default.py` once more, with the log records:
the modules that alert, the pipelines with every module wrapped, and that what is left of each when
the log is crossed out is the pipeline without them.
-/

set_option autoImplicit false

namespace Spork

open Effects

namespace Traced

/-- Raise a `MissingMetaError`. -/
def missing {α : Type} (message : String) : TProc α :=
  Prog.raise (S := sig.noting TraceRecord) ⟨.missingMetaError, message⟩

/-! ## Tier 1 -/

namespace Tier1

/-- `RecordEscalationFilter`. -/
def recordEscalationFilter (ops : PipelineObserver) : Stage MessageMeta :=
  .filter "RecordEscalationFilter" fun payload =>
    let m := payload.metaData
    match m.verdict with
    | none => missing
        "RecordEscalationFilter requires meta.verdict — run RuleEvaluationSelector first"
    | some verdict => do
      if verdict.action.alertImmediately then
        match m.correlationId with
        | none => missing ("RecordEscalationFilter requires meta.correlation_id " ++
            "to alert — run CorrelationIdFilter first")
        | some id =>
          alert ops id ("Escalated: " ++ Spork.Tier1.escalationReason verdict)
            (Spork.Tier1.alertBody m.message) .normal
      pure (payload.withMeta fun m => { m with auditEvent := some "escalated_pending_tier2" })

/-- The "terminal" route. -/
def terminal (deps : Tier1Deps) : Pipeline MessageMeta :=
  .mk [.of "ApplyActionFilter" (Spork.Tier1.applyActionFilter deps.executor),
      .of "WriteAuditEntryFilter" Spork.Tier1.writeAuditEntryFilter,
      .of "MarkProcessedFilter" Spork.Tier1.markProcessedFilter] none []

/-- The "escalate" route. -/
def escalate (deps : Tier1Deps) : Pipeline MessageMeta :=
  .mk [recordEscalationFilter deps.ops,
      .of "WriteAuditEntryFilter" Spork.Tier1.writeAuditEntryFilter] none []

/-- The "archive_receipt" route. -/
def archive (components : ReceiptArchiveComponents) : Pipeline MessageMeta :=
  .mk [.of "ArchiveReceiptAugment" (Spork.Tier1.archiveReceiptAugment components),
      .of "WriteAuditEntryFilter" Spork.Tier1.writeAuditEntryFilter,
      .of "MarkProcessedFilter" Spork.Tier1.markProcessedFilter] none []

/-- The routes of the rule selector. -/
def routes (deps : Tier1Deps) : List (String × Pipeline MessageMeta) :=
  [("terminal", terminal deps), ("escalate", escalate deps)] ++
    match deps.receiptArchive with
    | none => []
    | some components => [("archive_receipt", archive components)]

/-- Everything behind the idempotency gate. -/
def process (deps : Tier1Deps) : Pipeline MessageMeta :=
  .mk [.of "TimestampFilter" Spork.Tier1.timestampFilter,
      .of "CorrelationIdFilter" Spork.Tier1.correlationIdFilter]
    (some (.of "RuleEvaluationSelector" Spork.Tier1.ruleEvaluationSelector)) (routes deps)

end Tier1

/-- `build_default_pipeline`. -/
def buildDefaultPipeline (deps : Tier1Deps) (force : Bool) : Pipeline MessageMeta :=
  if force then Tier1.process deps
  else .mk [] (some (.of "IdempotencyGateSelector" Spork.Tier1.idempotencyGateSelector))
    [("skip", .mk [] none []), ("continue", Tier1.process deps)]

/-- What `process_message` starts with. -/
def startPayload (deps : Tier1Deps) (message : NormalizedMessage) (rules : List Rule) :
    Payload MessageMeta where
  text := ""
  metaData :=
    { message := message
      rules := rules
      defaultUnmatchedAction := deps.defaultUnmatchedAction
      classifier := deps.classifier }

/-- `process_message`. -/
def processMessage (deps : Tier1Deps) (force : Bool) (message : NormalizedMessage)
    (rules : List Rule) : TProc (Option RuleVerdict) := do
  let result ← (buildDefaultPipeline deps force).run (startPayload deps message rules)
  pure result.metaData.verdict

/-! ## Tier 2 -/

namespace Tier2

/-- `ApplyVerdictActionFilter`. -/
def applyVerdictActionFilter (executor : ActionExecutor) (ops : PipelineObserver) :
    Stage Tier2Meta := .filter "ApplyVerdictActionFilter" fun payload =>
  let m := payload.metaData
  match m.verdict with
  | none => missing "ApplyVerdictActionFilter requires meta.verdict — run CallLLMAugment first"
  | some verdict => do
    (executor.execute m.message verdict.suggestedAction).lift
    if m.band = some .autoactAlert ∨ verdict.urgency = .high then
      match m.correlationId with
      | none => missing ("ApplyVerdictActionFilter requires " ++
          "meta.correlation_id to alert — run CorrelationIdFilter first")
      | some id =>
        alert ops id ("Action taken: " ++ verdict.category) (Spork.Tier1.alertBody m.message)
          (Spork.Tier2.alertUrgency verdict.urgency)
    pure (payload.withMeta fun m =>
      { m with
        auditEvent := some "tier2_action_applied"
        auditDetailJson := some (Spork.Tier2.actedDetail verdict m.band) })

/-- `RecordAlertOnlyFilter`. -/
def recordAlertOnlyFilter (ops : PipelineObserver) : Stage Tier2Meta :=
  .filter "RecordAlertOnlyFilter" fun payload =>
    let m := payload.metaData
    match m.verdict, m.correlationId with
    | none, _ => missing "RecordAlertOnlyFilter requires meta.verdict — run CallLLMAugment first"
    | _, none => missing ("RecordAlertOnlyFilter requires meta.correlation_id to alert — " ++
        "run CorrelationIdFilter first")
    | some verdict, some id => do
      alert ops id ("Needs review: " ++ verdict.category) (Spork.Tier1.alertBody m.message)
        (Spork.Tier2.alertUrgency verdict.urgency)
      pure (payload.withMeta fun m =>
        { m with
          auditEvent := some "tier2_alert_only_no_action"
          auditDetailJson := some (Spork.Tier2.alertOnlyDetail verdict m.band) })

/-- `RecordBudgetExhaustedFilter`. -/
def recordBudgetExhaustedFilter (ops : PipelineObserver) : Stage Tier2Meta :=
  .filter "RecordBudgetExhaustedFilter" fun payload =>
    let m := payload.metaData
    match m.correlationId with
    | none => missing ("RecordBudgetExhaustedFilter requires " ++
        "meta.correlation_id to alert — run CorrelationIdFilter first")
    | some id => do
      alert ops id "Tier 2 skipped: daily budget exhausted" (Spork.Tier1.alertBody m.message)
        .critical
      pure (payload.withMeta fun m => { m with auditEvent := some "tier2_budget_exhausted" })

/-- Act on the verdict; both acting bands share it. -/
def act (deps : Tier2Deps) : Pipeline Tier2Meta :=
  .mk [applyVerdictActionFilter deps.executor deps.ops,
      .of "CreateDraftIfWantedFilter" (Spork.Tier2.createDraftIfWantedFilter deps.draftCreator),
      .of "WriteAuditEntryFilter" Spork.Tier2.writeAuditEntryFilter,
      .of "MarkProcessedFilter" Spork.Tier2.markProcessedFilter] none []

/-- Only alert. -/
def alertOnly (deps : Tier2Deps) : Pipeline Tier2Meta :=
  .mk [recordAlertOnlyFilter deps.ops,
      .of "CreateDraftIfWantedFilter" (Spork.Tier2.createDraftIfWantedFilter deps.draftCreator),
      .of "WriteAuditEntryFilter" Spork.Tier2.writeAuditEntryFilter,
      .of "MarkProcessedFilter" Spork.Tier2.markProcessedFilter] none []

/-- Ask the model and route on its confidence. -/
def budgetOk (deps : Tier2Deps) : Pipeline Tier2Meta :=
  .mk [.of "FetchContextAugment" (Spork.Tier2.fetchContextAugment deps.contextProvider),
      .of "BuildVerdictRequestFilter" (Spork.Tier2.buildVerdictRequestFilter
        deps.tiering.allowedCategories deps.tiering.maxBodyChars),
      .of "CallLLMAugment" (Spork.Tier2.callLLMAugment deps.llmClient),
      .of "RecordLLMUsageFilter" Spork.Tier2.recordLLMUsageFilter,
      .of "ValidateVerdictFilter"
        (Spork.Tier2.validateVerdictFilter deps.tiering.allowedCategories)]
    (some (.of "ConfidenceBandSelector" (Spork.Tier2.confidenceBandSelector
      deps.tiering.alertThreshold deps.tiering.autoactThreshold)))
    [("autoact", act deps), ("autoact_alert", act deps), ("alert_only", alertOnly deps)]

/-- Skip the model. -/
def budgetExhausted (deps : Tier2Deps) : Pipeline Tier2Meta :=
  .mk [recordBudgetExhaustedFilter deps.ops,
      .of "WriteAuditEntryFilter" Spork.Tier2.writeAuditEntryFilter,
      .of "MarkProcessedFilter" Spork.Tier2.markProcessedFilter] none []

end Tier2

/-- `build_tier2_pipeline`. -/
def buildTier2Pipeline (deps : Tier2Deps) : Pipeline Tier2Meta :=
  .mk [.of "TimestampFilter" Spork.Tier2.timestampFilter,
      .of "CorrelationIdFilter" Spork.Tier2.correlationIdFilter]
    (some (.of "BudgetGateSelector"
      (Spork.Tier2.budgetGateSelector deps.tiering.dailyCallBudget)))
    [("budget_ok", Tier2.budgetOk deps), ("budget_exhausted", Tier2.budgetExhausted deps)]

/-- `process_tier2_message`. -/
def processTier2Message (deps : Tier2Deps) (input : Tier2Input) : TProc (Option Verdict) := do
  let result ← (buildTier2Pipeline deps).run
    { text := input.message.bodyText, metaData := input.toMeta }
  pure result.metaData.verdict

/-! ## What is left without the log -/

theorem alert_erases (ops : PipelineObserver) (id title body : String) (urgency : AlertUrgency) :
    (alert ops id title body urgency).Erases (ops.alert title body urgency) :=
  .note_bind (Prog.erases_lift _)

theorem missing_erases {α : Type} (message : String) :
    (missing message : TProc α).Erases (raise .missingMetaError message) := .done _

section Erasing

variable {M : Type} {stage : Stage M} {plain : Spork.Stage M} {stages : List (Stage M)}
  {plains : List (Spork.Stage M)}

theorem Pipeline.wraps_straight (h : List.Forall₂ Stage.Wraps stages plains) :
    (Pipeline.mk stages none []).Wraps (Spork.Pipeline.straight plains) := ⟨h, trivial, trivial⟩

/-- A stage that writes no log record, in front of others. -/
theorem wraps_of_cons {name : String} (h : List.Forall₂ Stage.Wraps stages plains) :
    List.Forall₂ Stage.Wraps (.of name plain :: stages) (plain :: plains) :=
  .cons (Stage.of_wraps name plain) h

end Erasing

namespace Tier1

theorem recordEscalationFilter_wraps (ops : PipelineObserver) :
    (recordEscalationFilter ops).Wraps (Spork.Tier1.recordEscalationFilter ops) := by
  intro payload
  simp only [recordEscalationFilter, Stage.run, Spork.Tier1.recordEscalationFilter,
    Spork.Stage.run]
  cases payload.metaData.verdict with
  | none => exact missing_erases _
  | some verdict =>
    dsimp only
    split
    · cases payload.metaData.correlationId with
      | none => exact (missing_erases _).bind fun _ => .done _
      | some id => exact (alert_erases ..).bind fun _ => .done _
    · exact .done _

variable (deps : Tier1Deps)

theorem terminal_wraps : (terminal deps).Wraps (Spork.Tier1.terminal deps) :=
  Pipeline.wraps_straight (wraps_of_cons (wraps_of_cons (wraps_of_cons .nil)))

theorem escalate_wraps : (escalate deps).Wraps (Spork.Tier1.escalate deps) :=
  Pipeline.wraps_straight (.cons (recordEscalationFilter_wraps deps.ops) (wraps_of_cons .nil))

theorem archive_wraps (components : ReceiptArchiveComponents) :
    (archive components).Wraps (Spork.Tier1.archive components) :=
  Pipeline.wraps_straight (wraps_of_cons (wraps_of_cons (wraps_of_cons .nil)))

theorem routes_wraps : WrapsRoutes (routes deps) (Spork.Tier1.routes deps) := by
  rw [routes, Spork.Tier1.routes]
  cases deps.receiptArchive with
  | none => exact ⟨rfl, terminal_wraps deps, rfl, escalate_wraps deps, trivial⟩
  | some components =>
    exact ⟨rfl, terminal_wraps deps, rfl, escalate_wraps deps, rfl, archive_wraps components,
      trivial⟩

theorem process_wraps : (process deps).Wraps (Spork.Tier1.process deps) :=
  ⟨wraps_of_cons (wraps_of_cons .nil), Selector.of_wraps _ _, routes_wraps deps⟩

end Tier1

theorem buildDefaultPipeline_wraps (deps : Tier1Deps) (force : Bool) :
    (buildDefaultPipeline deps force).Wraps (Spork.buildDefaultPipeline deps force) := by
  cases force with
  | true => exact Tier1.process_wraps deps
  | false =>
    exact ⟨.nil, Selector.of_wraps _ _, rfl, ⟨.nil, trivial, trivial⟩, rfl,
      Tier1.process_wraps deps, trivial⟩

/-- **What is left of Tier 1 without its log is Tier 1.** -/
theorem processMessage_erases (deps : Tier1Deps) (force : Bool) (message : NormalizedMessage)
    (rules : List Rule) :
    (processMessage deps force message rules).Erases
      (Spork.processMessage deps force message rules) :=
  ((buildDefaultPipeline_wraps deps force).run _).bind fun _ => .done _

namespace Tier2

theorem applyVerdictActionFilter_wraps (executor : ActionExecutor) (ops : PipelineObserver) :
    (applyVerdictActionFilter executor ops).Wraps
      (Spork.Tier2.applyVerdictActionFilter executor ops) := by
  intro payload
  simp only [applyVerdictActionFilter, Stage.run, Spork.Tier2.applyVerdictActionFilter,
    Spork.Stage.run]
  cases payload.metaData.verdict with
  | none => exact missing_erases _
  | some verdict =>
    refine (Prog.erases_lift _).bind fun _ => ?_
    split
    · cases payload.metaData.correlationId with
      | none => exact (missing_erases _).bind fun _ => .done _
      | some id => exact (alert_erases ..).bind fun _ => .done _
    · exact .done _

theorem recordAlertOnlyFilter_wraps (ops : PipelineObserver) :
    (recordAlertOnlyFilter ops).Wraps (Spork.Tier2.recordAlertOnlyFilter ops) := by
  intro payload
  simp only [recordAlertOnlyFilter, Stage.run, Spork.Tier2.recordAlertOnlyFilter, Spork.Stage.run]
  cases payload.metaData.verdict with
  | none => exact missing_erases _
  | some verdict =>
    cases payload.metaData.correlationId with
    | none => exact missing_erases _
    | some id => exact (alert_erases ..).bind fun _ => .done _

theorem recordBudgetExhaustedFilter_wraps (ops : PipelineObserver) :
    (recordBudgetExhaustedFilter ops).Wraps (Spork.Tier2.recordBudgetExhaustedFilter ops) := by
  intro payload
  simp only [recordBudgetExhaustedFilter, Stage.run, Spork.Tier2.recordBudgetExhaustedFilter,
    Spork.Stage.run]
  cases payload.metaData.correlationId with
  | none => exact missing_erases _
  | some id => exact (alert_erases ..).bind fun _ => .done _

variable (deps : Tier2Deps)

theorem act_wraps : (act deps).Wraps (Spork.Tier2.act deps) :=
  Pipeline.wraps_straight (.cons (applyVerdictActionFilter_wraps deps.executor deps.ops)
    (wraps_of_cons (wraps_of_cons (wraps_of_cons .nil))))

theorem alertOnly_wraps : (alertOnly deps).Wraps (Spork.Tier2.alertOnly deps) :=
  Pipeline.wraps_straight (.cons (recordAlertOnlyFilter_wraps deps.ops)
    (wraps_of_cons (wraps_of_cons (wraps_of_cons .nil))))

theorem budgetOk_wraps : (budgetOk deps).Wraps (Spork.Tier2.budgetOk deps) :=
  ⟨wraps_of_cons (wraps_of_cons (wraps_of_cons (wraps_of_cons (wraps_of_cons .nil)))),
    Selector.of_wraps _ _, rfl, act_wraps deps, rfl, act_wraps deps, rfl, alertOnly_wraps deps,
    trivial⟩

theorem budgetExhausted_wraps : (budgetExhausted deps).Wraps (Spork.Tier2.budgetExhausted deps) :=
  Pipeline.wraps_straight (.cons (recordBudgetExhaustedFilter_wraps deps.ops)
    (wraps_of_cons (wraps_of_cons .nil)))

end Tier2

theorem buildTier2Pipeline_wraps (deps : Tier2Deps) :
    (buildTier2Pipeline deps).Wraps (Spork.buildTier2Pipeline deps) :=
  ⟨wraps_of_cons (wraps_of_cons .nil), Selector.of_wraps _ _, rfl, Tier2.budgetOk_wraps deps, rfl,
    Tier2.budgetExhausted_wraps deps, trivial⟩

/-- **What is left of Tier 2 without its log is Tier 2.** -/
theorem processTier2Message_erases (deps : Tier2Deps) (input : Tier2Input) :
    (processTier2Message deps input).Erases (Spork.processTier2Message deps input) :=
  ((buildTier2Pipeline_wraps deps).run _).bind fun _ => .done _

end Traced

end Spork
