import Spork.Pipeline.Tier2.Default

/-!
# Escalating one message

`core/pipeline/tier2/escalate.py`: resolve what Tier 2 wants to know about the message's thread and
the account's mailboxes, run Tier 2, and quarantine a message whose verdict cannot be used.

`handleMessage` is the sequence that the daemon loop and the backfill share: Tier 1 first, and
Tier 2 in the same breath when Tier 1 says so.
-/

set_option autoImplicit false

namespace Spork

open Effects

/-- The arguments of `escalate_message` that do not change from message to message. -/
structure EscalateDeps where
  threadHistoryReader : ThreadHistoryReader
  mailboxLister : MailboxLister
  tier2 : Tier2Deps

/-- `s.split(",")`. -/
def splitComma : List Char → List (List Char)
  | [] => [[]]
  | c :: cs =>
    match splitComma cs with
    | [] => [[c]]
    | part :: parts => if c = ',' then [] :: part :: parts else (c :: part) :: parts

/-- `parse_to_addresses`. -/
def parseToAddresses (message : NormalizedMessage) : List String :=
  let toHeader := (message.header "To").getD ""
  (((splitComma toHeader.toList).map pyStrip).filter (· ≠ [])).map String.ofList

/-- What `escalate_message` hands to Tier 2. -/
def tier2Input (message : NormalizedMessage) (context : ThreadContext) (mailboxes : List String) :
    Tier2Input where
  message := message
  toAddresses := parseToAddresses message
  threadPriorSubject := context.priorSubject
  threadUserHasReplied := context.userHasReplied
  availableMailboxes := mailboxes

/-- `escalate_message`. -/
def escalateMessage (deps : EscalateDeps) (message : NormalizedMessage) :
    Proc (Option Verdict) := do
  let context ← deps.threadHistoryReader.getThreadContext message
  let mailboxes ← deps.mailboxLister.listMailboxes
  processTier2Message deps.tier2 (tier2Input message context mailboxes)

/-- `QUARANTINABLE_ERRORS`. -/
def ExnClass.quarantinable : ExnClass → Bool
  | .liteLLMClientError => true
  | .verdictValidationError => true
  | .actionExecutionError => true
  | _ => false

/-- What became of an escalated message: `Verdict | QuarantinedMessage | None`. -/
inductive EscalationResult where
  | verdict (verdict : Verdict)
  | quarantinedMessage (reason : String)
  | budgetExhausted

/-- `escalate_message`'s own result, as one of these. -/
def EscalationResult.ofOption : Option Verdict → EscalationResult
  | none => .budgetExhausted
  | some v => .verdict v

/-- `json.dumps({"error_type": ..., "reason": ...})`. -/
def quarantineDetail (e : Exn) : String :=
  jsonObject [("error_type", jsonString e.cls.name), ("reason", jsonString e.message)]

/-- The row of a quarantined message. -/
def quarantinedRow (message : NormalizedMessage) (ts : String) : ProcessedRow where
  threadId := message.threadId
  tierReached := some "tier2"
  actionTaken := some "quarantined"
  processedAt := ts

/-- Audit, mark and announce a message whose verdict cannot be used. -/
def quarantine (ops : PipelineObserver) (message : NormalizedMessage) (e : Exn) :
    Proc EscalationResult := do
  let ts ← call .now
  call (.writeAuditEntry ts message.messageId "tier2_quarantined" (some (quarantineDetail e)))
  call (.markProcessed message.messageId (quarantinedRow message ts))
  let _ ← call .newCorrelationId
  ops.alert "Tier 2 verdict quarantined"
    (pyRepr message.subject ++ " from " ++ message.fromAddress ++ ": " ++ e.message) .critical
  pure (.quarantinedMessage e.message)

/-- `escalate_message_or_quarantine`: any other error takes the caller down. -/
def escalateMessageOrQuarantine (deps : EscalateDeps) (message : NormalizedMessage) :
    Proc EscalationResult :=
  (do
    let verdict ← escalateMessage deps message
    pure (.ofOption verdict) : Proc EscalationResult).tryCatch fun e =>
      if e.cls.quarantinable then quarantine deps.tier2.ops message e else Prog.raise e

/-! ## One message, both tiers -/

/-- The collaborators of both tiers. -/
structure MessageDeps where
  tier1 : Tier1Deps
  escalation : EscalateDeps

/-- Whether Tier 1 handed the message on. -/
def escalates (verdict : Option RuleVerdict) : Bool :=
  match verdict with
  | none => false
  | some verdict => verdict.action.type = .escalate

/-- What the daemon loop and the backfill do with a message. -/
def handleMessage (deps : MessageDeps) (rules : List Rule) (message : NormalizedMessage) :
    Proc (Option RuleVerdict × Option EscalationResult) := do
  let verdict ← processMessage deps.tier1 false message rules
  if escalates verdict then
    let result ← escalateMessageOrQuarantine deps.escalation message
    pure (verdict, some result)
  else pure (verdict, none)

/-- The calls behind the gate, in order. -/
theorem processUngated_handed (deps : MessageDeps) (rules : List Rule)
    (message : NormalizedMessage) :
    (do
      let verdict ← Tier1.processUngated deps.tier1 message rules
      if escalates verdict then
        let result ← escalateMessageOrQuarantine deps.escalation message
        pure (verdict, some result)
      else pure (verdict, none)) = (do
      let ts ← call .now
      let _ ← call .newCorrelationId
      let verdict ← evaluate message rules deps.tier1.defaultUnmatchedAction deps.tier1.classifier
      Tier1.runBranch deps.tier1 message ts verdict
      if verdict.action.type = .escalate then
        let result ← escalateMessageOrQuarantine deps.escalation message
        pure (some verdict, some result)
      else pure (some verdict, none)) := by
  rw [Tier1.processUngated]
  simp only [bind_assoc, pure_bind]
  refine bind_congr fun ts => bind_congr fun _ => bind_congr fun verdict => bind_congr fun _ => ?_
  rw [escalates]
  simp only [decide_eq_true_eq]

/-- The calls of a handled message, in order. -/
theorem handleMessage_eq (deps : MessageDeps) (rules : List Rule) (message : NormalizedMessage) :
    handleMessage deps rules message = (do
      if ← call (.hasProcessed message.messageId) then pure (none, none)
      else
        let ts ← call .now
        let _ ← call .newCorrelationId
        let verdict ← evaluate message rules deps.tier1.defaultUnmatchedAction deps.tier1.classifier
        Tier1.runBranch deps.tier1 message ts verdict
        if verdict.action.type = .escalate then
          let result ← escalateMessageOrQuarantine deps.escalation message
          pure (some verdict, some result)
        else pure (some verdict, none)) := by
  rw [handleMessage, processMessage_eq, processMessage', if_neg Bool.false_ne_true, bind_assoc]
  refine bind_congr fun seen => ?_
  cases seen with
  | true => rfl
  | false =>
    rw [if_neg Bool.false_ne_true, if_neg Bool.false_ne_true]
    exact processUngated_handed deps rules message

end Spork
