import Spork.Pipeline.Tier2.Modules
import Spork.Pipeline.Default

/-!
# The Tier 2 pipeline, composed

`core/pipeline/tier2/default.py`: `build_tier2_pipeline` and `process_tier2_message`, and, as for
Tier 1, the theorem that the five nested pipelines are one straight-line program
(`processTier2Message_eq`).  Its pieces are what the rest of the development reasons about:
`Tier2.askModel` up to the recorded usage, `Tier2.settle` from the verdict on, and
`Tier2.skipModel` when the budget is gone.
-/

set_option autoImplicit false

namespace Spork

open Effects

/-- The arguments of `process_tier2_message` that do not change from message to message. -/
structure Tier2Deps where
  llmClient : LLMClient
  executor : ActionExecutor
  draftCreator : DraftCreator
  ops : PipelineObserver
  contextProvider : ContextProvider
  tiering : TieringConfig

namespace Tier2

/-- Act on the verdict; both acting bands share it. -/
def act (deps : Tier2Deps) : Pipeline Tier2Meta :=
  .straight [applyVerdictActionFilter deps.executor deps.ops,
    createDraftIfWantedFilter deps.draftCreator, writeAuditEntryFilter, markProcessedFilter]

/-- Only alert. -/
def alertOnly (deps : Tier2Deps) : Pipeline Tier2Meta :=
  .straight [recordAlertOnlyFilter deps.ops, createDraftIfWantedFilter deps.draftCreator,
    writeAuditEntryFilter, markProcessedFilter]

/-- Ask the model and route on its confidence. -/
def budgetOk (deps : Tier2Deps) : Pipeline Tier2Meta :=
  .mk [fetchContextAugment deps.contextProvider,
      buildVerdictRequestFilter deps.tiering.allowedCategories deps.tiering.maxBodyChars,
      callLLMAugment deps.llmClient, recordLLMUsageFilter,
      validateVerdictFilter deps.tiering.allowedCategories]
    (some (confidenceBandSelector deps.tiering.alertThreshold deps.tiering.autoactThreshold))
    [("autoact", act deps), ("autoact_alert", act deps), ("alert_only", alertOnly deps)]

/-- Skip the model. -/
def budgetExhausted (deps : Tier2Deps) : Pipeline Tier2Meta :=
  .straight [recordBudgetExhaustedFilter deps.ops, writeAuditEntryFilter, markProcessedFilter]

end Tier2

/-- `build_tier2_pipeline`. -/
def buildTier2Pipeline (deps : Tier2Deps) : Pipeline Tier2Meta :=
  .mk [Tier2.timestampFilter, Tier2.correlationIdFilter]
    (some (Tier2.budgetGateSelector deps.tiering.dailyCallBudget))
    [("budget_ok", Tier2.budgetOk deps), ("budget_exhausted", Tier2.budgetExhausted deps)]

/-- What the caller has already resolved about a message. -/
structure Tier2Input where
  message : NormalizedMessage
  toAddresses : List String
  threadPriorSubject : Option String
  threadUserHasReplied : Bool
  availableMailboxes : List String

/-- The metadata a run starts with. -/
def Tier2Input.toMeta (input : Tier2Input) : Tier2Meta where
  message := input.message
  toAddresses := input.toAddresses
  threadPriorSubject := input.threadPriorSubject
  threadUserHasReplied := input.threadUserHasReplied
  availableMailboxes := input.availableMailboxes

/-- `process_tier2_message`: `none` means the budget was already exhausted. -/
def processTier2Message (deps : Tier2Deps) (input : Tier2Input) : Proc (Option Verdict) := do
  let result ← (buildTier2Pipeline deps).run
    { text := input.message.bodyText, metaData := input.toMeta }
  pure result.metaData.verdict

/-! ## The calls, in order -/

namespace Tier2

/-- Ask the model and record that it was asked. -/
def askModel (deps : Tier2Deps) (input : Tier2Input) (ts : String) : Proc Verdict := do
  let context ← deps.contextProvider.getContext input.message
  let cleaned ← cleanBody input.message.bodyText deps.tiering.maxBodyChars
  let result ← deps.llmClient.getVerdict
    (verdictRequest input.toMeta context cleaned deps.tiering.allowedCategories)
  call (.recordLlmCall (dateOf ts) result.usage.tokensIn result.usage.tokensOut)
  pure result.verdict

/-- Whether an acting band alerts as well. -/
def alerts (verdict : Verdict) (band : ConfidenceBand) : Bool :=
  band = .autoactAlert ∨ verdict.urgency = .high

/-- What the band does with the message: act and possibly alert, or only alert. -/
def perform (deps : Tier2Deps) (message : NormalizedMessage) (verdict : Verdict) :
    ConfidenceBand → Proc Unit
  | .alertOnly => deps.ops.alert ("Needs review: " ++ verdict.category) (Tier1.alertBody message)
      (alertUrgency verdict.urgency)
  | band => do
    deps.executor.execute message verdict.suggestedAction
    if alerts verdict band then
      deps.ops.alert ("Action taken: " ++ verdict.category) (Tier1.alertBody message)
        (alertUrgency verdict.urgency)
    else pure ()

/-- Create the draft, if the verdict has one. -/
def draft (deps : Tier2Deps) (message : NormalizedMessage) (verdict : Verdict) : Proc Unit :=
  match verdict.draftReply with
  | none => pure ()
  | some body => deps.draftCreator.createDraft message body

/-- The audit event a band ends with. -/
def bandEvent : ConfidenceBand → String
  | .alertOnly => "tier2_alert_only_no_action"
  | _ => "tier2_action_applied"

/-- The audit detail a band ends with. -/
def bandDetail (verdict : Verdict) : ConfidenceBand → String
  | .alertOnly => alertOnlyDetail verdict (some .alertOnly)
  | band => actedDetail verdict (some band)

/-- Everything from an accepted verdict on. -/
def settle (deps : Tier2Deps) (message : NormalizedMessage) (ts : String) (verdict : Verdict)
    (band : ConfidenceBand) : Proc Unit := do
  perform deps message verdict band
  draft deps message verdict
  call (.writeAuditEntry ts message.messageId (bandEvent band) (some (bandDetail verdict band)))
  let json ← call (.modelDumpJson verdict)
  call (.markProcessed message.messageId
    (processedRow message ts (some json) (some verdict.suggestedAction.type)))

/-- The two gates between the model and the mailbox. -/
def accept (deps : Tier2Deps) (input : Tier2Input) (verdict : Verdict) :
    Except Exn (Verdict × ConfidenceBand) := do
  let validated ←
    validateVerdict verdict deps.tiering.allowedCategories input.availableMailboxes
  let band ← confidenceBand validated.confidence deps.tiering.alertThreshold
    deps.tiering.autoactThreshold
  pure (validated, band)

/-- **Everything the two gates can do**: pass the verdict unchanged with its band, or turn it away
for one of two reasons. -/
theorem accept_cases (deps : Tier2Deps) (input : Tier2Input) (v : Verdict) :
    (accept deps input v
          = .ok (v, bandOf v.confidence deps.tiering.alertThreshold deps.tiering.autoactThreshold) ∧
        v.Admissible deps.tiering.allowedCategories input.availableMailboxes ∧
        deps.tiering.alertThreshold.le deps.tiering.autoactThreshold = true) ∨
      (∃ e, accept deps input v = .error e ∧ e.cls = .verdictValidationError ∧
        ¬v.Admissible deps.tiering.allowedCategories input.availableMailboxes) ∨
      ∃ e, accept deps input v = .error e ∧ e.cls = .valueError ∧
        deps.tiering.alertThreshold.le deps.tiering.autoactThreshold = false := by
  rcases validateVerdict_cases v deps.tiering.allowedCategories input.availableMailboxes with
    ⟨hok, hadm⟩ | ⟨e, herr, hcls, hadm⟩
  · have hband : accept deps input v = (confidenceBand v.confidence deps.tiering.alertThreshold
        deps.tiering.autoactThreshold >>= fun band => pure (v, band)) := by
      rw [accept, hok]
      rfl
    rcases confidenceBand_cases deps.tiering.alertThreshold deps.tiering.autoactThreshold
      v.confidence_isNan with ⟨hok, hle⟩ | ⟨e, herr, hcls, hle⟩
    · rw [hband, hok]
      exact .inl ⟨rfl, hadm, hle⟩
    · rw [hband, herr]
      exact .inr (.inr ⟨e, rfl, hcls, hle⟩)
  · rw [accept, herr]
    exact .inr (.inl ⟨e, rfl, hcls, hadm⟩)

/-- The budget is gone: alert, audit, mark. -/
def skipModel (deps : Tier2Deps) (message : NormalizedMessage) (ts : String) : Proc Unit := do
  deps.ops.alert "Tier 2 skipped: daily budget exhausted" (Tier1.alertBody message) .critical
  Tier1.auditThenMark message ts "tier2_budget_exhausted" none (processedRow message ts none none)

end Tier2

/-- `process_tier2_message`, as the calls it makes. -/
def processTier2Message' (deps : Tier2Deps) (input : Tier2Input) : Proc (Option Verdict) := do
  let ts ← call .now
  let _ ← call .newCorrelationId
  let usage ← call (.getLlmUsage (dateOf ts))
  if hasBudgetRemaining usage deps.tiering.dailyCallBudget then
    let verdict ← Tier2.askModel deps input ts
    let (validated, band) ← ofExcept (Tier2.accept deps input verdict)
    Tier2.settle deps input.message ts validated band
    pure (some validated)
  else
    Tier2.skipModel deps input.message ts
    pure none

section Flatten

open Tier2

variable (deps : Tier2Deps) (input : Tier2Input)

/-- The payload as it stands once the verdict has been recorded. -/
def judged (cleaned ts id : String) (context : ContextResult) (request : VerdictRequest)
    (result : LLMResult) (band : Option ConfidenceBand) : Payload Tier2Meta where
  text := cleaned
  metaData :=
    { input.toMeta with
      ts := some ts
      correlationId := some id
      context := some context
      request := some request
      verdict := some result.verdict
      llmUsage := some result.usage
      band := band }

/-- Either acting route, from the band selector on. -/
theorem act_run (cleaned ts id : String) (context : ContextResult) (request : VerdictRequest)
    (result : LLMResult) (band : ConfidenceBand) (hband : band ≠ .alertOnly) :
    ((act deps).run (judged input cleaned ts id context request result (some band)) >>= fun p =>
        pure p.metaData.verdict)
      = (do
        settle deps input.message ts result.verdict band
        pure (some result.verdict)) := by
  cases band with
  | alertOnly => exact absurd rfl hband
  | autoact | autoactAlert =>
    cases hd : result.verdict.draftReply <;>
    cases hu : result.verdict.urgency <;>
    simp [act, run_straight, applyVerdictActionFilter, createDraftIfWantedFilter,
      writeAuditEntryFilter, markProcessedFilter, judged, Payload.withMeta, settle, perform, draft,
      alerts, bandEvent, bandDetail, Tier2Input.toMeta, hd, hu]

/-- The route that only alerts. -/
theorem alertOnly_run (cleaned ts id : String) (context : ContextResult)
    (request : VerdictRequest) (result : LLMResult) :
    ((alertOnly deps).run
        (judged input cleaned ts id context request result (some .alertOnly)) >>= fun p =>
        pure p.metaData.verdict)
      = (do
        settle deps input.message ts result.verdict .alertOnly
        pure (some result.verdict)) := by
  cases hd : result.verdict.draftReply <;>
  simp [alertOnly, run_straight, recordAlertOnlyFilter, createDraftIfWantedFilter,
    writeAuditEntryFilter, markProcessedFilter, judged, Payload.withMeta, settle, perform, draft,
    bandEvent, bandDetail, Tier2Input.toMeta, hd]

theorem budgetExhausted_run (ts id : String) :
    ((budgetExhausted deps).run
        { text := input.message.bodyText
          metaData := { input.toMeta with ts := some ts, correlationId := some id } } >>= fun p =>
        pure p.metaData.verdict)
      = (do
        skipModel deps input.message ts
        pure none) := by
  simp [budgetExhausted, run_straight, recordBudgetExhaustedFilter, writeAuditEntryFilter,
    markProcessedFilter, Payload.withMeta, skipModel, Tier1.auditThenMark, Tier2Input.toMeta]

/-- Following the route of a band is running that band. -/
theorem runRoute_band (cleaned ts id : String) (context : ContextResult)
    (request : VerdictRequest) (result : LLMResult) (band : ConfidenceBand) :
    (runRoute [("autoact", act deps), ("autoact_alert", act deps), ("alert_only", alertOnly deps)]
        ["autoact", "autoact_alert", "alert_only"] band.value
        (judged input cleaned ts id context request result (some band)) >>= fun p =>
        pure p.metaData.verdict)
      = (do
        settle deps input.message ts result.verdict band
        pure (some result.verdict)) := by
  cases band with
  | alertOnly =>
    have hrun := alertOnly_run deps input cleaned ts id context request result
    simpa [runRoute, ConfidenceBand.value] using hrun
  | autoact =>
    have hrun := act_run deps input cleaned ts id context request result .autoact (by decide)
    simpa [runRoute, ConfidenceBand.value] using hrun
  | autoactAlert =>
    have hrun := act_run deps input cleaned ts id context request result .autoactAlert (by decide)
    simpa [runRoute, ConfidenceBand.value] using hrun

/-- The model's branch. -/
theorem budgetOk_run (ts id : String) :
    ((budgetOk deps).run
        { text := input.message.bodyText
          metaData := { input.toMeta with ts := some ts, correlationId := some id } } >>= fun p =>
        pure p.metaData.verdict)
      = (do
        let verdict ← askModel deps input ts
        let (validated, band) ← ofExcept (accept deps input verdict)
        settle deps input.message ts validated band
        pure (some validated)) := by
  rw [budgetOk, Pipeline.run]
  simp only [fetchContextAugment, buildVerdictRequestFilter, callLLMAugment, recordLLMUsageFilter,
    validateVerdictFilter, runStages_filter, runStages_augment, runStages_nil, Payload.withMeta,
    bind_assoc, pure_bind, askModel]
  refine bind_congr fun context => bind_congr fun cleaned => bind_congr fun result =>
    bind_congr fun _ => ?_
  rw [accept, ofExcept_bind, bind_assoc]
  rcases validateVerdict_cases result.verdict deps.tiering.allowedCategories
    input.availableMailboxes with ⟨hok, _⟩ | ⟨e, herr, _, _⟩
  · have hok' : validateVerdict result.verdict deps.tiering.allowedCategories
        input.toMeta.availableMailboxes = .ok result.verdict := hok
    rw [hok, hok', ofExcept_ok, pure_bind, pure_bind]
    simp only [ofExcept_bind, bind_assoc, confidenceBandSelector, pure_bind]
    refine bind_congr fun band => ?_
    exact runRoute_band deps input cleaned ts id context _ result band
  · have herr' : validateVerdict result.verdict deps.tiering.allowedCategories
        input.toMeta.availableMailboxes = .error e := herr
    rw [herr, herr']
    rfl

/-- **The composed pipeline is the straight-line program.** -/
theorem processTier2Message_eq :
    processTier2Message deps input = processTier2Message' deps input := by
  rw [processTier2Message, buildTier2Pipeline, Pipeline.run]
  simp only [timestampFilter, correlationIdFilter, runStages_filter, runStages_nil,
    budgetGateSelector, Payload.withMeta, bind_assoc, pure_bind, processTier2Message']
  refine bind_congr fun ts => bind_congr fun id => bind_congr fun usage => ?_
  split
  · rw [pure_bind, runRoute, if_pos rfl]
    exact budgetOk_run deps input ts id
  · have hne : ¬"budget_ok" = "budget_exhausted" := by decide
    rw [pure_bind, runRoute, if_neg hne, runRoute, if_pos rfl]
    exact budgetExhausted_run deps input ts id

end Flatten

end Spork
