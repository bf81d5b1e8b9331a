import Spork.Effects.Machine
import Spork.Llm.Base
import Spork.Llm.Clean

/-!
# What the code calls out to

Every step at which something outside a function's own values is read or changed is one operation
of the signature `sig`: a method of the store, the clock, the mail provider, a model, the alerter,
the file system, and the few values the daemon's tasks share in memory.  A `Proc` is a program over
these operations.

The source injects its collaborators as objects, and so does the model: `ActionApplier`,
`LLMClient`, `Alerter` and the others are structures holding the one method each of them has.  The
`live` one of each simply makes the call; another one (the observe-mode applier, the LiteLLM
client) is a different program under the same name.
-/

set_option autoImplicit false

namespace Spork

open Effects

/-! ## The values that cross the boundary -/

/-- `AlertUrgency`, the urgency of a notification. -/
inductive AlertUrgency where
  | low
  | normal
  | critical
  deriving DecidableEq, Repr

/-- One piece of retrieved background. -/
structure ContextSnippet where
  source : String
  text : String
  deriving DecidableEq, Repr

/-- Zero or more snippets relevant to one message. -/
structure ContextResult where
  snippets : List ContextSnippet
  deriving DecidableEq, Repr

/-- What Tier 2 wants to know about a message's thread. -/
structure ThreadContext where
  priorSubject : Option String
  userHasReplied : Bool
  deriving DecidableEq, Repr

/-- A resolved company and date. -/
structure ReceiptExtraction where
  company : String
  date : String
  deriving DecidableEq, Repr

/-- Everything a `ReceiptExtractionClient` needs. -/
structure ReceiptExtractionRequest where
  subject : String
  fromAddress : String
  fromDomain : String
  bodyText : String
  deriving DecidableEq, Repr

/-- Messages plus an optional source state safe to acknowledge later. -/
structure MessageBatch where
  messages : List NormalizedMessage
  checkpoint : Option String
  deriving DecidableEq, Repr

/-- One windowed page of a backfill read. -/
structure BackfillPage where
  messages : List NormalizedMessage
  position : Nat
  nextPosition : Nat
  total : Option Nat
  hasMore : Bool
  deriving DecidableEq, Repr

/-- One control-plane audit entry queued by an IPC handler. -/
structure PendingAuditEvent where
  event : String
  detailJson : Option String
  deriving DecidableEq, Repr

/-- A value that `int()` is applied to. -/
inductive UsageValue where
  | int (n : Int)
  | float (x : PyFloat)
  /-- Any other object, by what `int()` makes of it. -/
  | object (r : Except Exn Int)

/-- The function half of a tool call, each attribute by what reading it gives.  `arguments` is
what `json.loads` followed by `Verdict.model_validate` makes of the argument text. -/
structure ToolFunction where
  name : Except Exn String
  arguments : Except Exn Verdict

/-- `response.usage`, each attribute by what reading it gives. -/
structure ResponseUsage where
  promptTokens : Except Exn UsageValue
  completionTokens : Except Exn UsageValue

/-- Any object the completion callable may return, by what reading it gives.  `toolCalls` is the
path `choices[0].message.tool_calls`; `none` is a value that has no length. -/
structure CompletionResponse where
  toolCalls : Except Exn (Option (List (Except Exn ToolFunction)))
  usage : Except Exn ResponseUsage

/-! ## The operations -/

/-- One call to something outside. -/
inductive Op where
  -- the state store
  | getCursor (accountId : String)
  | setCursor (accountId state : String)
  | hasProcessed (jmapId : String)
  | markProcessed (jmapId : String) (row : ProcessedRow)
  | writeAuditEntry (ts jmapId event : String) (detailJson : Option String)
  | recordLlmCall (date : String) (tokensIn tokensOut : Int)
  | getLlmUsage (date : String)
  | getKnownSender (fromDomain : String)
  | learnKnownSender (sender : KnownSender)
  -- the clock and the id generator
  | now
  | newCorrelationId
  -- the mail provider
  | apply (message : NormalizedMessage) (action : Action)
  | createDraft (inReplyTo : NormalizedMessage) (body : String)
  | applyKeywords (message : NormalizedMessage) (keywords : List String)
  | fetchAttachments (message : NormalizedMessage)
  | getThreadContext (message : NormalizedMessage)
  | listMailboxes
  | poll
  | pollBatch
  | queryMessages (unreadOnly : Bool) (position limit : Nat)
  -- classifiers, models and the knowledgebase
  | classify (message : NormalizedMessage)
  | getContext (message : NormalizedMessage)
  | lookupDomain (domain : String)
  | getVerdict (request : VerdictRequest)
  | completion (request : VerdictRequest)
  | extractReceipt (request : ReceiptExtractionRequest)
  -- alerts
  | notify (title body : String) (urgency : AlertUrgency)
  -- libraries and the file system
  | feedHtml (text : String)
  | modelDumpJson (verdict : Verdict)
  | renderReceiptPdf (message : NormalizedMessage) (attachments : List Attachment)
      (company date : String)
  | writeBytes (path : String) (data : List UInt8)
  -- what the daemon's tasks share in memory
  | stopIsSet
  | isPaused
  | takePendingEvents
  | currentRules
  | budgetAlertDate
  | setBudgetAlertDate (date : String)
  | sleep

/-- What each operation answers with. -/
@[reducible] def Op.Ret : Op → Type
  | .getCursor _ => Option String
  | .hasProcessed _ => Bool
  | .getLlmUsage _ => LLMUsage
  | .getKnownSender _ => Option KnownSender
  | .now => String
  | .newCorrelationId => String
  | .fetchAttachments _ => List Attachment
  | .getThreadContext _ => ThreadContext
  | .listMailboxes => List String
  | .poll => List NormalizedMessage
  | .pollBatch => MessageBatch
  | .queryMessages _ _ _ => BackfillPage
  | .classify _ => ClassificationResult
  | .getContext _ => ContextResult
  | .lookupDomain _ => Option (Option String)
  | .getVerdict _ => LLMResult
  | .completion _ => CompletionResponse
  | .extractReceipt _ => ReceiptExtraction
  | .feedHtml _ => String
  | .modelDumpJson _ => String
  | .renderReceiptPdf _ _ _ _ => List UInt8
  | .stopIsSet => Bool
  | .isPaused => Bool
  | .takePendingEvents => List PendingAuditEvent
  | .currentRules => List Rule
  | .budgetAlertDate => Option String
  | .setCursor _ _ | .markProcessed _ _ | .writeAuditEntry _ _ _ _ | .recordLlmCall _ _ _
  | .learnKnownSender _ | .apply _ _ | .createDraft _ _ | .applyKeywords _ _ | .notify _ _ _
  | .writeBytes _ _ | .setBudgetAlertDate _ | .sleep => Unit

/-- The signature of the whole program. -/
abbrev sig : Sig := ⟨Op, Op.Ret, Exn⟩

/-- A program of this repository. -/
abbrev Proc (α : Type) : Type := Prog sig α

/-- Make one call. -/
abbrev call (op : Op) : Proc op.Ret := Prog.perform (S := sig) op

/-- Raise an exception. -/
abbrev raise {α : Type} (cls : ExnClass) (message : String) : Proc α :=
  Prog.raise (S := sig) ⟨cls, message⟩

/-- Return the value of a pure step, or raise its exception. -/
def ofExcept {α : Type} (r : Except Exn α) : Proc α := Prog.done (S := sig) r

@[simp] theorem ofExcept_ok {α : Type} (a : α) : ofExcept (.ok a) = pure a := rfl

theorem ofExcept_bind {α β : Type} (r : Except Exn α) (f : α → Except Exn β) :
    ofExcept (r >>= f) = ofExcept r >>= fun a => ofExcept (f a) := by
  cases r <;> rfl

/-! ## The injected objects -/

/-- Applies one action to a message on the remote backend. -/
structure ActionApplier where
  apply : NormalizedMessage → Action → Proc Unit

/-- Creates a draft reply. -/
structure DraftCreator where
  createDraft : NormalizedMessage → String → Proc Unit

/-- Applies free-form keywords to a message. -/
structure KeywordApplier where
  applyKeywords : NormalizedMessage → List String → Proc Unit

/-- Delivers one alert. -/
structure Alerter where
  notify : String → String → AlertUrgency → Proc Unit

/-- What every Tier 2 backend adapts to. -/
structure LLMClient where
  getVerdict : VerdictRequest → Proc LLMResult

/-- A local classifier. -/
structure TextClassifier where
  classify : NormalizedMessage → Proc ClassificationResult

/-- The applier of the configured provider. -/
def ActionApplier.live : ActionApplier := ⟨fun m a => call (.apply m a)⟩

/-- The draft creator of the configured provider. -/
def DraftCreator.live : DraftCreator := ⟨fun m body => call (.createDraft m body)⟩

/-- The keyword applier of the configured provider. -/
def KeywordApplier.live : KeywordApplier := ⟨fun m ks => call (.applyKeywords m ks)⟩

/-- The configured alerter. -/
def Alerter.live : Alerter := ⟨fun title body urgency => call (.notify title body urgency)⟩

/-- The configured Tier 2 backend. -/
def LLMClient.live : LLMClient := ⟨fun request => call (.getVerdict request)⟩

/-- The configured classifier. -/
def TextClassifier.live : TextClassifier := ⟨fun m => call (.classify m)⟩

/-- `PipelineObserver`.  Its `trace` only writes a log record, so `alert` is the delivery. -/
structure PipelineObserver where
  alerter : Alerter

/-- `PipelineObserver.alert`. -/
def PipelineObserver.alert (ops : PipelineObserver) (title body : String)
    (urgency : AlertUrgency) : Proc Unit := ops.alerter.notify title body urgency

end Spork
