import Spork.Pipeline.Modules

/-!
# The Tier 2 modules

`core/pipeline/tier2/meta.py` and `modules.py`: the sibling of `Spork.Pipeline.Modules` for a
message that Tier 1 escalated.  One stage calls a model; everything after it only ever sees a
`Verdict`, and the stages between the call and the action are the ones that may turn it away.
-/

set_option autoImplicit false

namespace Spork

open Effects

/-- The `[tiering]` table of `config.toml`. -/
structure TieringConfig where
  defaultUnmatchedAction : ActionType := .escalate
  alertThreshold : PyFloat := .fin (55 / 100)
  autoactThreshold : PyFloat := .fin (85 / 100)
  dailyCallBudget : Int := 200
  maxBodyChars : Int := 4000
  localClassifier : Option String := none
  allowedCategories : List String := []

/-- A read-only knowledgebase. -/
structure ContextProvider where
  getContext : NormalizedMessage → Proc ContextResult

/-- Resolves a message's thread. -/
structure ThreadHistoryReader where
  getThreadContext : NormalizedMessage → Proc ThreadContext

/-- Lists the account's mailboxes. -/
structure MailboxLister where
  listMailboxes : Proc (List String)

/-- The configured knowledgebase. -/
def ContextProvider.live : ContextProvider := ⟨fun m => call (.getContext m)⟩

/-- The thread reader of the configured provider. -/
def ThreadHistoryReader.live : ThreadHistoryReader := ⟨fun m => call (.getThreadContext m)⟩

/-- The mailbox lister of the configured provider. -/
def MailboxLister.live : MailboxLister := ⟨call .listMailboxes⟩

/-- Everything a Tier 2 module might read or set. -/
structure Tier2Meta where
  message : NormalizedMessage
  toAddresses : List String
  threadPriorSubject : Option String
  threadUserHasReplied : Bool
  availableMailboxes : List String
  ts : Option String := none
  correlationId : Option String := none
  context : Option ContextResult := none
  request : Option VerdictRequest := none
  verdict : Option Verdict := none
  llmUsage : Option LLMCallUsage := none
  band : Option ConfidenceBand := none
  auditEvent : Option String := none
  auditDetailJson : Option String := none

/-- `ts[:10]`, the calendar date of a timestamp. -/
def dateOf (ts : String) : String := pySlice ts 10

namespace Tier2

/-- `_ALERT_URGENCY_BY_VERDICT_URGENCY`. -/
def alertUrgency : Urgency → AlertUrgency
  | .low => .low
  | .medium => .normal
  | .high => .critical

/-- Calls the clock exactly once. -/
def timestampFilter : Stage Tier2Meta := .filter fun payload => do
  let ts ← call .now
  pure (payload.withMeta fun m => { m with ts := some ts })

/-- Calls the id generator exactly once. -/
def correlationIdFilter : Stage Tier2Meta := .filter fun payload => do
  let id ← call .newCorrelationId
  pure (payload.withMeta fun m => { m with correlationId := some id })

/-- Routes "budget_exhausted" once the date's call count reaches the budget. -/
def budgetGateSelector (dailyCallBudget : Int) : Selector Tier2Meta := fun payload =>
  match payload.metaData.ts with
  | none => raise .missingMetaError
      "BudgetGateSelector requires meta.ts — run TimestampFilter first"
  | some ts => do
    let usage ← call (.getLlmUsage (dateOf ts))
    if hasBudgetRemaining usage dailyCallBudget then pure ("budget_ok", payload)
    else pure ("budget_exhausted", payload)

/-- Fetches background for the message. -/
def fetchContextAugment (provider : ContextProvider) : Stage Tier2Meta := .augment fun payload => do
  let context ← provider.getContext payload.metaData.message
  pure (payload.withMeta fun m => { m with context := some context })

/-- `clean_body`: strip the markup, then the quoted history and the excess. -/
def cleanBody (bodyText : String) (maxChars : Int) : Proc String := do
  let stripped ← call (.feedHtml bodyText)
  pure (cleanStripped stripped maxChars)

/-- The request for a message, its body already cleaned. -/
def verdictRequest (m : Tier2Meta) (context : ContextResult) (cleaned : String)
    (availableCategories : List String) : VerdictRequest where
  subject := m.message.subject
  fromAddress := m.message.fromAddress
  toAddresses := m.toAddresses
  cleanedBody := cleaned
  threadPriorSubject := m.threadPriorSubject
  threadUserHasReplied := m.threadUserHasReplied
  availableMailboxes := m.availableMailboxes
  availableCategories := availableCategories
  contextSnippets := context.snippets.map fun s => s.source ++ ": " ++ s.text

/-- Cleans the body and assembles the request. -/
def buildVerdictRequestFilter (availableCategories : List String) (maxBodyChars : Int) :
    Stage Tier2Meta := .filter fun payload =>
  match payload.metaData.context with
  | none => raise .missingMetaError
      "BuildVerdictRequestFilter requires meta.context — run FetchContextAugment first"
  | some context => do
    let cleaned ← cleanBody payload.text maxBodyChars
    pure
      { text := cleaned
        metaData :=
          { payload.metaData with
            request :=
              some (verdictRequest payload.metaData context cleaned availableCategories) } }

/-- The one stage that calls a model. -/
def callLLMAugment (client : LLMClient) : Stage Tier2Meta := .augment fun payload =>
  match payload.metaData.request with
  | none => raise .missingMetaError
      "CallLLMAugment requires meta.request — run BuildVerdictRequestFilter first"
  | some request => do
    let result ← client.getVerdict request
    pure (payload.withMeta fun m =>
      { m with verdict := some result.verdict, llmUsage := some result.usage })

/-- Records that a call was made, right after it returned. -/
def recordLLMUsageFilter : Stage Tier2Meta := .filter fun payload =>
  match payload.metaData.ts, payload.metaData.llmUsage with
  | none, _ => raise .missingMetaError
      "RecordLLMUsageFilter requires meta.ts — run TimestampFilter first"
  | _, none => raise .missingMetaError
      "RecordLLMUsageFilter requires meta.llm_usage — run CallLLMAugment first"
  | some ts, some usage => do
    call (.recordLlmCall (dateOf ts) usage.tokensIn usage.tokensOut)
    pure payload

/-- Turns away a verdict outside the configured sets. -/
def validateVerdictFilter (allowedCategories : List String) : Stage Tier2Meta :=
  .filter fun payload =>
    match payload.metaData.verdict with
    | none => raise .missingMetaError
        "ValidateVerdictFilter requires meta.verdict — run CallLLMAugment first"
    | some verdict => do
      let validated ← ofExcept
        (validateVerdict verdict allowedCategories payload.metaData.availableMailboxes)
      pure (payload.withMeta fun m => { m with verdict := some validated })

/-- Routes on the confidence band. -/
def confidenceBandSelector (alertThreshold autoactThreshold : PyFloat) : Selector Tier2Meta :=
  fun payload =>
    match payload.metaData.verdict with
    | none => raise .missingMetaError
        "ConfidenceBandSelector requires meta.verdict — run CallLLMAugment first"
    | some verdict => do
      let band ← ofExcept (confidenceBand verdict.confidence alertThreshold autoactThreshold)
      pure (band.value, payload.withMeta fun m => { m with band := some band })

/-- `f"{meta.band}"`. -/
def bandText : Option ConfidenceBand → String
  | none => "None"
  | some band => band.value

/-- The audit detail of an applied verdict. -/
def actedDetail (verdict : Verdict) (band : Option ConfidenceBand) : String :=
  "\x7b\"action_type\": \"" ++ verdict.suggestedAction.type.value ++ "\", \"category\": \"" ++
    verdict.category ++ "\", \"band\": \"" ++ bandText band ++ "\"\x7d"

/-- The audit detail of a verdict that only alerts. -/
def alertOnlyDetail (verdict : Verdict) (band : Option ConfidenceBand) : String :=
  "\x7b\"category\": \"" ++ verdict.category ++ "\", \"band\": \"" ++ bandText band ++ "\"\x7d"

/-- Applies the suggested action, then alerts if the band or the urgency says so. -/
def applyVerdictActionFilter (executor : ActionExecutor) (ops : PipelineObserver) :
    Stage Tier2Meta := .filter fun payload =>
  let m := payload.metaData
  match m.verdict with
  | none => raise .missingMetaError
      "ApplyVerdictActionFilter requires meta.verdict — run CallLLMAugment first"
  | some verdict => do
    executor.execute m.message verdict.suggestedAction
    if m.band = some .autoactAlert ∨ verdict.urgency = .high then
      match m.correlationId with
      | none => raise .missingMetaError ("ApplyVerdictActionFilter requires " ++
          "meta.correlation_id to alert — run CorrelationIdFilter first")
      | some _ =>
        ops.alert ("Action taken: " ++ verdict.category) (Tier1.alertBody m.message)
          (alertUrgency verdict.urgency)
    pure (payload.withMeta fun m =>
      { m with
        auditEvent := some "tier2_action_applied"
        auditDetailJson := some (actedDetail verdict m.band) })

/-- No action, always an alert: a human must decide. -/
def recordAlertOnlyFilter (ops : PipelineObserver) : Stage Tier2Meta := .filter fun payload =>
  let m := payload.metaData
  match m.verdict, m.correlationId with
  | none, _ => raise .missingMetaError
      "RecordAlertOnlyFilter requires meta.verdict — run CallLLMAugment first"
  | _, none => raise .missingMetaError
      "RecordAlertOnlyFilter requires meta.correlation_id to alert — run CorrelationIdFilter first"
  | some verdict, some _ => do
    ops.alert ("Needs review: " ++ verdict.category) (Tier1.alertBody m.message)
      (alertUrgency verdict.urgency)
    pure (payload.withMeta fun m =>
      { m with
        auditEvent := some "tier2_alert_only_no_action"
        auditDetailJson := some (alertOnlyDetail verdict m.band) })

/-- Tier 2 was skipped entirely: always an alert, at critical urgency. -/
def recordBudgetExhaustedFilter (ops : PipelineObserver) : Stage Tier2Meta :=
  .filter fun payload =>
    let m := payload.metaData
    match m.correlationId with
    | none => raise .missingMetaError ("RecordBudgetExhaustedFilter requires " ++
        "meta.correlation_id to alert — run CorrelationIdFilter first")
    | some _ => do
      ops.alert "Tier 2 skipped: daily budget exhausted" (Tier1.alertBody m.message) .critical
      pure (payload.withMeta fun m => { m with auditEvent := some "tier2_budget_exhausted" })

/-- Creates a draft if the verdict has one. -/
def createDraftIfWantedFilter (creator : DraftCreator) : Stage Tier2Meta := .filter fun payload =>
  match payload.metaData.verdict with
  | none => raise .missingMetaError
      "CreateDraftIfWantedFilter requires meta.verdict — run CallLLMAugment first"
  | some verdict => do
    match verdict.draftReply with
    | none => pure ()
    | some body => creator.createDraft payload.metaData.message body
    pure payload

/-- Writes whatever the audit fields describe. -/
def writeAuditEntryFilter : Stage Tier2Meta := .filter fun payload =>
  let m := payload.metaData
  match m.ts, m.auditEvent with
  | some ts, some event => do
    call (.writeAuditEntry ts m.message.messageId event m.auditDetailJson)
    pure payload
  | _, _ => raise .missingMetaError ("WriteAuditEntryFilter requires meta.ts and " ++
      "meta.audit_event — run TimestampFilter and an outcome-recording filter first")

/-- The row a finished Tier 2 message gets. -/
def processedRow (message : NormalizedMessage) (ts : String) (verdictJson : Option String)
    (actionTaken : Option ActionType) : ProcessedRow where
  threadId := message.threadId
  tierReached := some "tier2"
  verdictJson := verdictJson
  actionTaken := actionTaken.map ActionType.value
  processedAt := ts

/-- Records the message as processed by Tier 2.  A verdict is not required: the
"budget_exhausted" branch never sets one. -/
def markProcessedFilter : Stage Tier2Meta := .filter fun payload =>
  let m := payload.metaData
  match m.ts with
  | none => raise .missingMetaError
      "MarkProcessedFilter requires meta.ts — run TimestampFilter first"
  | some ts =>
    match m.verdict with
    | none => do
      call (.markProcessed m.message.messageId (processedRow m.message ts none none))
      pure payload
    | some verdict => do
      let json ← call (.modelDumpJson verdict)
      call (.markProcessed m.message.messageId
        (processedRow m.message ts (some json) (some verdict.suggestedAction.type)))
      pure payload

end Tier2

end Spork
