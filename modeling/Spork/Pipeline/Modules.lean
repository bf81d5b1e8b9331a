import Spork.Pipeline.Core
import Spork.Receipts.Archive

/-!
# The Tier 1 modules

`core/pipeline/meta.py` and `core/pipeline/modules.py`: what travels along the message pipeline,
and the small stages it is made of.  The optional fields of `MessageMeta` are unset until the stage
responsible for them has run; a stage that needs one nobody has set raises `MissingMetaError`.
-/

set_option autoImplicit false

namespace Spork

open Effects

/-- Everything a message-pipeline module might read or set. -/
structure MessageMeta where
  message : NormalizedMessage
  rules : List Rule
  defaultUnmatchedAction : Action
  classifier : Option TextClassifier := none
  verdict : Option RuleVerdict := none
  ts : Option String := none
  correlationId : Option String := none
  auditEvent : Option String := none
  auditDetailJson : Option String := none

/-- `dataclasses.replace(payload, meta=...)`. -/
def Payload.withMeta {M : Type} (payload : Payload M) (f : M → M) : Payload M :=
  { payload with metaData := f payload.metaData }

namespace Tier1

/-- Routes "skip" for an already-processed message, "continue" otherwise. -/
def idempotencyGateSelector : Selector MessageMeta := fun payload => do
  if ← call (.hasProcessed payload.metaData.message.messageId) then pure ("skip", payload)
  else pure ("continue", payload)

/-- Calls the clock exactly once. -/
def timestampFilter : Stage MessageMeta := .filter fun payload => do
  let ts ← call .now
  pure (payload.withMeta fun m => { m with ts := some ts })

/-- Calls the id generator exactly once. -/
def correlationIdFilter : Stage MessageMeta := .filter fun payload => do
  let id ← call .newCorrelationId
  pure (payload.withMeta fun m => { m with correlationId := some id })

/-- The branch a Tier 1 action type is routed to. -/
def branchOf : ActionType → String
  | .escalate => "escalate"
  | .archiveReceipt => "archive_receipt"
  | _ => "terminal"

/-- Runs the rule engine and routes on the verdict's action type. -/
def ruleEvaluationSelector : Selector MessageMeta := fun payload => do
  let m := payload.metaData
  let verdict ← evaluate m.message m.rules m.defaultUnmatchedAction m.classifier
  pure (branchOf verdict.action.type, payload.withMeta fun m => { m with verdict := some verdict })

/-- The audit detail of an applied Tier 1 action. -/
def actionDetail (type : ActionType) : String :=
  "\x7b\"action_type\": \"" ++ type.value ++ "\"\x7d"

/-- Applies a terminal verdict's action. -/
def applyActionFilter (executor : ActionExecutor) : Stage MessageMeta := .filter fun payload =>
  match payload.metaData.verdict with
  | none => raise .missingMetaError
      "ApplyActionFilter requires meta.verdict — run RuleEvaluationSelector first"
  | some verdict => do
    executor.execute payload.metaData.message verdict.action
    pure (payload.withMeta fun m =>
      { m with
        auditEvent := some "action_applied"
        auditDetailJson := some (actionDetail verdict.action.type) })

/-- `meta.verdict.action.reason or meta.verdict.matched_rule_id or "escalated"`: an empty text is
as good as none. -/
def escalationReason (verdict : RuleVerdict) : String :=
  match verdict.action.reason.filter (· ≠ ""), verdict.matchedRuleId.filter (· ≠ "") with
  | some reason, _ => reason
  | none, some id => id
  | none, none => "escalated"

/-- `f"{message.from_address}: {message.subject}"`. -/
def alertBody (message : NormalizedMessage) : String :=
  message.fromAddress ++ ": " ++ message.subject

/-- Records that a message is pending Tier 2, alerting at once if its rule asked for it. -/
def recordEscalationFilter (ops : PipelineObserver) : Stage MessageMeta := .filter fun payload =>
  let m := payload.metaData
  match m.verdict with
  | none => raise .missingMetaError
      "RecordEscalationFilter requires meta.verdict — run RuleEvaluationSelector first"
  | some verdict => do
    if verdict.action.alertImmediately then
      match m.correlationId with
      | none => raise .missingMetaError ("RecordEscalationFilter requires meta.correlation_id " ++
          "to alert — run CorrelationIdFilter first")
      | some _ =>
        ops.alert ("Escalated: " ++ escalationReason verdict) (alertBody m.message) .normal
    pure (payload.withMeta fun m => { m with auditEvent := some "escalated_pending_tier2" })

/-- Writes whatever the audit fields describe. -/
def writeAuditEntryFilter : Stage MessageMeta := .filter fun payload =>
  let m := payload.metaData
  match m.ts, m.auditEvent with
  | some ts, some event => do
    call (.writeAuditEntry ts m.message.messageId event m.auditDetailJson)
    pure payload
  | _, _ => raise .missingMetaError ("WriteAuditEntryFilter requires meta.ts and " ++
      "meta.audit_event — run TimestampFilter and a verdict-handling filter first")

/-- The row a finished Tier 1 message gets. -/
def processedRow (message : NormalizedMessage) (ts : String) (type : ActionType) :
    ProcessedRow where
  threadId := message.threadId
  tierReached := some "tier1"
  actionTaken := some type.value
  processedAt := ts

/-- Records the message as processed. -/
def markProcessedFilter : Stage MessageMeta := .filter fun payload =>
  let m := payload.metaData
  match m.verdict, m.ts with
  | some verdict, some ts => do
    call (.markProcessed m.message.messageId (processedRow m.message ts verdict.action.type))
    pure payload
  | _, _ => raise .missingMetaError ("MarkProcessedFilter requires meta.verdict and meta.ts — " ++
      "run RuleEvaluationSelector and TimestampFilter first")

/-- Handles a matched `archive_receipt` rule end to end. -/
def archiveReceiptAugment (components : ReceiptArchiveComponents) : Stage MessageMeta :=
  .augment fun payload => do
    let detail ← archiveReceipt components payload.metaData.message payload.metaData.ts
    pure (payload.withMeta fun m =>
      { m with auditEvent := some "receipt_archived", auditDetailJson := some detail })

end Tier1

end Spork
