import Spork.Pipeline.Modules

/-!
# The Tier 1 pipeline, composed

`core/pipeline/default.py`: `build_default_pipeline` and `process_message`.

A pipeline says what happens by nesting stages, routes and optional fields; a proof wants to see
the calls in the order they are made.  `processMessage_eq` closes that gap once and for all: the
composed pipeline *is* the straight-line program `processMessage'`, in which every field a stage
could have found missing is there and every route exists that can be taken.
-/

set_option autoImplicit false

namespace Spork

open Effects

/-- The arguments of `process_message` that do not change from message to message. -/
structure Tier1Deps where
  defaultUnmatchedAction : Action
  executor : ActionExecutor
  ops : PipelineObserver
  classifier : Option TextClassifier := none
  receiptArchive : Option ReceiptArchiveComponents := none

namespace Tier1

/-- The "terminal" route. -/
def terminal (deps : Tier1Deps) : Pipeline MessageMeta :=
  .straight [applyActionFilter deps.executor, writeAuditEntryFilter, markProcessedFilter]

/-- The "escalate" route. -/
def escalate (deps : Tier1Deps) : Pipeline MessageMeta :=
  .straight [recordEscalationFilter deps.ops, writeAuditEntryFilter]

/-- The "archive_receipt" route. -/
def archive (components : ReceiptArchiveComponents) : Pipeline MessageMeta :=
  .straight [archiveReceiptAugment components, writeAuditEntryFilter, markProcessedFilter]

/-- The routes of the rule selector.  Without receipt archiving there is no third one. -/
def routes (deps : Tier1Deps) : List (String × Pipeline MessageMeta) :=
  [("terminal", terminal deps), ("escalate", escalate deps)] ++
    match deps.receiptArchive with
    | none => []
    | some components => [("archive_receipt", archive components)]

/-- Everything behind the idempotency gate. -/
def process (deps : Tier1Deps) : Pipeline MessageMeta :=
  .mk [timestampFilter, correlationIdFilter] (some ruleEvaluationSelector) (routes deps)

end Tier1

/-- `build_default_pipeline`.  `force` leaves the gate out altogether. -/
def buildDefaultPipeline (deps : Tier1Deps) (force : Bool) : Pipeline MessageMeta :=
  if force then Tier1.process deps
  else .mk [] (some Tier1.idempotencyGateSelector)
    [("skip", .empty), ("continue", Tier1.process deps)]

/-- `process_message`: run one message through Tier 1.  `none` means it was already processed. -/
def processMessage (deps : Tier1Deps) (force : Bool) (message : NormalizedMessage)
    (rules : List Rule) : Proc (Option RuleVerdict) := do
  let result ← (buildDefaultPipeline deps force).run
    { text := ""
      metaData :=
        { message := message
          rules := rules
          defaultUnmatchedAction := deps.defaultUnmatchedAction
          classifier := deps.classifier } }
  pure result.metaData.verdict

/-! ## The calls, in order -/

namespace Tier1

/-- The end of every branch that finishes a message: its audit row, then its mark. -/
def auditThenMark (message : NormalizedMessage) (ts event : String) (detail : Option String)
    (row : ProcessedRow) : Proc Unit := do
  call (.writeAuditEntry ts message.messageId event detail)
  call (.markProcessed message.messageId row)

/-- The immediate alert of an escalation whose rule opted in. -/
def alertIfImmediate (ops : PipelineObserver) (message : NormalizedMessage)
    (verdict : RuleVerdict) : Proc Unit :=
  if verdict.action.alertImmediately then
    ops.alert ("Escalated: " ++ escalationReason verdict) (alertBody message) .normal
  else pure ()

/-- What the branch of a verdict calls. -/
def runBranch (deps : Tier1Deps) (message : NormalizedMessage) (ts : String)
    (verdict : RuleVerdict) : Proc Unit :=
  match verdict.action.type with
  | .escalate => do
    alertIfImmediate deps.ops message verdict
    call (.writeAuditEntry ts message.messageId "escalated_pending_tier2" none)
  | .archiveReceipt =>
    match deps.receiptArchive with
    | none => raise .unknownBranchError ("selector returned branch 'archive_receipt', " ++
        "no route for it; known routes: ['escalate', 'terminal']")
    | some components => do
      let detail ← archiveReceipt components message (some ts)
      auditThenMark message ts "receipt_archived" (some detail)
        (processedRow message ts verdict.action.type)
  | _ => do
    deps.executor.execute message verdict.action
    auditThenMark message ts "action_applied" (some (actionDetail verdict.action.type))
      (processedRow message ts verdict.action.type)

/-- Everything behind the gate. -/
def processUngated (deps : Tier1Deps) (message : NormalizedMessage) (rules : List Rule) :
    Proc (Option RuleVerdict) := do
  let ts ← call .now
  let _ ← call .newCorrelationId
  let verdict ← evaluate message rules deps.defaultUnmatchedAction deps.classifier
  runBranch deps message ts verdict
  pure (some verdict)

end Tier1

/-- `process_message`, as the calls it makes. -/
def processMessage' (deps : Tier1Deps) (force : Bool) (message : NormalizedMessage)
    (rules : List Rule) : Proc (Option RuleVerdict) :=
  if force then Tier1.processUngated deps message rules
  else do
    if ← call (.hasProcessed message.messageId) then pure none
    else Tier1.processUngated deps message rules

section Flatten

open Tier1

variable (deps : Tier1Deps) (message : NormalizedMessage) (rules : List Rule)

theorem run_straight {M : Type} (stages : List (Stage M)) (payload : Payload M) :
    (Pipeline.straight stages).run payload = runStages stages payload := by
  rw [Pipeline.straight, Pipeline.run]
  exact bind_pure _

/-- The payload as the rule selector hands it to a branch. -/
def routed (ts id : String) (verdict : RuleVerdict) : Payload MessageMeta where
  text := ""
  metaData :=
    { message := message
      rules := rules
      defaultUnmatchedAction := deps.defaultUnmatchedAction
      classifier := deps.classifier
      verdict := some verdict
      ts := some ts
      correlationId := some id }

theorem terminal_run (ts id : String) (verdict : RuleVerdict) :
    ((terminal deps).run (routed deps message rules ts id verdict) >>= fun p =>
        pure p.metaData.verdict)
      = (do
        deps.executor.execute message verdict.action
        auditThenMark message ts "action_applied" (some (actionDetail verdict.action.type))
          (processedRow message ts verdict.action.type)
        pure (some verdict)) := by
  simp [terminal, run_straight, applyActionFilter, writeAuditEntryFilter, markProcessedFilter,
    routed, Payload.withMeta, auditThenMark]

theorem escalate_run (ts id : String) (verdict : RuleVerdict) :
    ((escalate deps).run (routed deps message rules ts id verdict) >>= fun p =>
        pure p.metaData.verdict)
      = (do
        alertIfImmediate deps.ops message verdict
        call (.writeAuditEntry ts message.messageId "escalated_pending_tier2" none)
        pure (some verdict)) := by
  cases h : verdict.action.alertImmediately <;>
    simp [escalate, run_straight, recordEscalationFilter, writeAuditEntryFilter, routed,
      Payload.withMeta, alertIfImmediate, h]

theorem archive_run (components : ReceiptArchiveComponents) (ts id : String)
    (verdict : RuleVerdict) :
    ((archive components).run (routed deps message rules ts id verdict) >>= fun p =>
        pure p.metaData.verdict)
      = (do
        let detail ← archiveReceipt components message (some ts)
        auditThenMark message ts "receipt_archived" (some detail)
          (processedRow message ts verdict.action.type)
        pure (some verdict)) := by
  simp [archive, run_straight, archiveReceiptAugment, writeAuditEntryFilter, markProcessedFilter,
    routed, Payload.withMeta, auditThenMark]

/-- Following the route of a verdict's branch is running that branch. -/
theorem runRoute_routes (ts id : String) (verdict : RuleVerdict) :
    (runRoute (routes deps) ((routes deps).map Prod.fst) (branchOf verdict.action.type)
        (routed deps message rules ts id verdict) >>= fun p => pure p.metaData.verdict)
      = (do
        runBranch deps message ts verdict
        pure (some verdict)) := by
  cases ht : verdict.action.type with
  | escalate =>
    have hrun := escalate_run deps message rules ts id verdict
    simpa [routes, runRoute, branchOf, runBranch, ht] using hrun
  | archiveReceipt =>
    cases hr : deps.receiptArchive with
    | none =>
      have hmsg : "selector returned branch " ++ pyRepr "archive_receipt" ++
          ", no route for it; known routes: " ++ pyReprSorted ["terminal", "escalate"]
            = "selector returned branch 'archive_receipt', no route for it; known routes: "
              ++ "['escalate', 'terminal']" := by decide
      simp only [routes, hr, runRoute, branchOf, runBranch, ht, List.append_nil, List.map_cons,
        List.map_nil, hmsg]
      rfl
    | some components =>
      have hrun := archive_run deps message rules components ts id verdict
      simpa [routes, runRoute, branchOf, runBranch, ht, hr] using hrun
  | move | tag | ignore =>
    have hrun := terminal_run deps message rules ts id verdict
    simpa [routes, runRoute, branchOf, runBranch, ht] using hrun

/-- **The composed pipeline is the straight-line program.** -/
theorem processMessage_eq (force : Bool) :
    processMessage deps force message rules = processMessage' deps force message rules := by
  have hprocess : ((process deps).run
      { text := ""
        metaData :=
          { message := message
            rules := rules
            defaultUnmatchedAction := deps.defaultUnmatchedAction
            classifier := deps.classifier } } >>= fun p => pure p.metaData.verdict)
      = processUngated deps message rules := by
    rw [process, Pipeline.run]
    simp only [timestampFilter, correlationIdFilter, runStages_filter, runStages_nil,
      ruleEvaluationSelector, Payload.withMeta, bind_assoc, pure_bind, processUngated]
    refine bind_congr fun ts => bind_congr fun id => bind_congr fun verdict => ?_
    exact runRoute_routes deps message rules ts id verdict
  cases force with
  | true => exact hprocess
  | false =>
    rw [processMessage, buildDefaultPipeline, processMessage', if_neg Bool.false_ne_true,
      if_neg Bool.false_ne_true, Pipeline.run]
    simp only [runStages_nil, pure_bind, idempotencyGateSelector, bind_assoc]
    refine bind_congr fun seen => ?_
    cases seen with
    | true => simp [runRoute, Pipeline.empty, Pipeline.run]
    | false => simpa [runRoute] using hprocess

end Flatten

end Spork
