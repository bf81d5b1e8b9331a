import Spork.Runtime

/-!
# Reclassifying one message

`cli/commands/reclassify.py`: `_reclassify` from its audit entry on.  The message is already looked
up; it goes through Tier 1 with the idempotency gate left out, and then through Tier 2 like any
other.
-/

set_option autoImplicit false

namespace Spork

open Effects

/-- What a reclassified message is handled with.  No receipt components are passed. -/
def Deployment.reclassifyDeps (d : Deployment) : MessageDeps :=
  { d.deps with tier1 := { d.tier1 with receiptArchive := none } }

theorem Deployment.reclassify_wired (d : Deployment) : d.reclassifyDeps.Wired :=
  ⟨{ d.tier1_wired with receiptArchive := fun _ h => by cases h }, d.escalation_wired⟩

/-- `process_message(force=True)`, and `escalate_message_or_quarantine` for what it hands on. -/
def reclassifyMessage (deps : MessageDeps) (rules : List Rule) (message : NormalizedMessage) :
    Proc (Option RuleVerdict × Option EscalationResult) := do
  let verdict ← processMessage deps.tier1 true message rules
  if escalates verdict then
    let result ← escalateMessageOrQuarantine deps.escalation message
    pure (verdict, some result)
  else pure (verdict, none)

/-- `_reclassify`: the audit entry of the command, and then the message. -/
def reclassify (deps : MessageDeps) (rules : List Rule) (message : NormalizedMessage) :
    Proc (Option RuleVerdict × Option EscalationResult) := do
  let ts ← call .now
  call (.writeAuditEntry ts "" "reclassify_triggered"
    (some (jsonObject [("message_id", jsonString message.messageId)])))
  reclassifyMessage deps rules message

/-- The calls of a reclassified message, in order. -/
theorem reclassifyMessage_eq (deps : MessageDeps) (rules : List Rule)
    (message : NormalizedMessage) :
    reclassifyMessage deps rules message = (do
      let ts ← call .now
      let _ ← call .newCorrelationId
      let verdict ← evaluate message rules deps.tier1.defaultUnmatchedAction deps.tier1.classifier
      Tier1.runBranch deps.tier1 message ts verdict
      if verdict.action.type = .escalate then
        let result ← escalateMessageOrQuarantine deps.escalation message
        pure (some verdict, some result)
      else pure (some verdict, none)) := by
  rw [reclassifyMessage, processMessage_eq, processMessage', if_pos rfl]
  exact processUngated_handed deps rules message

/-- Behind its gate, a message is handled as it is reclassified. -/
theorem handleMessage_eq_reclassifyMessage (deps : MessageDeps) (rules : List Rule)
    (message : NormalizedMessage) : handleMessage deps rules message = (do
      if ← call (.hasProcessed message.messageId) then pure (none, none)
      else reclassifyMessage deps rules message) := by
  rw [handleMessage_eq, reclassifyMessage_eq]

end Spork
