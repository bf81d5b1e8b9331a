import Spork.Pipeline.Tier2.Escalate
import Spork.Evaluation

/-!
# A deployment

`core/runtime.py` and the composition in `run_daemon`, `_backfill` and `_reclassify`: which object
is injected where, given a configuration.  Every collaborator of a deployment is the live one, so
what it does is whatever the world answers.

`Wired` is what composition guarantees and all that later proofs want to know about the injected
objects: an applier makes its own call or none, and everything else only makes *supporting* calls,
those that touch neither the cursor nor the rows, the usage or the mail a message's outcome
consists of.
-/

set_option autoImplicit false

namespace Spork

open Effects

/-! ## Configuration -/

/-- The `[receipt_archive]` table, and whether the configured knowledgebase can look up domains. -/
structure ReceiptArchiveConfig where
  outputDir : PyPath
  domainLookup : Bool := false

/-- `build_receipt_archive_components`. -/
def ReceiptArchiveConfig.components (config : ReceiptArchiveConfig) : ReceiptArchiveComponents :=
  .live config.outputDir (if config.domainLookup then some .live else none)

/-- What a configuration says about the handling of messages. -/
structure Deployment where
  tiering : TieringConfig
  receiptArchive : Option ReceiptArchiveConfig := none

namespace Deployment

/-- The classifier that `[tiering] local_classifier` names, if it names one. -/
def classifier (d : Deployment) : Option TextClassifier :=
  if d.tiering.localClassifier.isSome then some .live else none

/-- What Tier 1 is given. -/
def tier1 (d : Deployment) : Tier1Deps where
  defaultUnmatchedAction := { type := d.tiering.defaultUnmatchedAction }
  executor := ⟨.live⟩
  ops := ⟨.live⟩
  classifier := d.classifier
  receiptArchive := d.receiptArchive.map ReceiptArchiveConfig.components

/-- What Tier 2 is given. -/
def tier2 (d : Deployment) : Tier2Deps where
  llmClient := .live
  executor := ⟨.live⟩
  draftCreator := .live
  ops := ⟨.live⟩
  contextProvider := .live
  tiering := d.tiering

/-- What an escalation is given. -/
def escalation (d : Deployment) : EscalateDeps where
  threadHistoryReader := .live
  mailboxLister := .live
  tier2 := d.tier2

/-- What a message is handled with. -/
def deps (d : Deployment) : MessageDeps where
  tier1 := d.tier1
  escalation := d.escalation

end Deployment

/-! ## Supporting calls -/

/-- The calls that touch neither the cursor, nor the rows of a message, nor the usage, nor its
mail. -/
def Op.Supporting : Op → Prop
  | .getCursor _ | .setCursor _ _ | .hasProcessed _ | .markProcessed _ _
  | .writeAuditEntry _ _ _ _ | .recordLlmCall _ _ _ | .apply _ _ | .createDraft _ _ | .poll
  | .pollBatch | .queryMessages _ _ _ | .getVerdict _ | .completion _ | .stopIsSet | .isPaused
  | .takePendingEvents | .currentRules | .budgetAlertDate | .setBudgetAlertDate _ | .sleep =>
    False
  | _ => True

/-- The calls of a model client. -/
def Op.AsksModel : Op → Prop
  | .getVerdict _ | .completion _ => True
  | _ => False

theorem Op.AsksModel.marks {op : Op} (h : op.AsksModel) : op.marks = none := by
  cases op <;> first | exact h.elim | rfl

theorem Op.Supporting.marks {op : Op} (h : op.Supporting) : op.marks = none := by
  cases op <;> first | exact h.elim | rfl

/-! ## Wiring -/

/-- The receipt components only make supporting calls. -/
structure ReceiptArchiveComponents.Wired (c : ReceiptArchiveComponents) : Prop where
  fetchAttachments : ∀ m, (c.fetchAttachments m).Only Op.Supporting
  applyKeywords : ∀ m ks, (c.keywordApplier.applyKeywords m ks).Only Op.Supporting
  extractReceipt : ∀ r, (c.extractReceipt r).Only Op.Supporting
  lookupDomain : ∀ l ∈ c.domainLookup, ∀ d, (l.lookupDomain d).Only Op.Supporting

/-- An applier makes its own call, or none at all (observe mode). -/
def ActionApplier.Wired (a : ActionApplier) : Prop :=
  ∀ m action, a.apply m action = call (.apply m action) ∨ a.apply m action = pure ()

theorem ActionApplier.Wired.only {a : ActionApplier} (h : a.Wired) (m : NormalizedMessage)
    (action : Action) : (a.apply m action).Only (· = Op.apply m action) := by
  rcases h m action with h | h <;> rw [h]
  · exact Prog.only_perform.2 rfl
  · trivial

/-- Tier 1's collaborators. -/
structure Tier1Deps.Wired (deps : Tier1Deps) : Prop where
  applier : deps.executor.applier.Wired
  alert : ∀ t b u, (deps.ops.alert t b u).Only Op.Supporting
  classify : ∀ c ∈ deps.classifier, ∀ m, (c.classify m).Only Op.Supporting
  receiptArchive : ∀ c ∈ deps.receiptArchive, c.Wired

/-- Tier 2's collaborators. -/
structure EscalateDeps.Wired (deps : EscalateDeps) : Prop where
  getThreadContext : ∀ m, (deps.threadHistoryReader.getThreadContext m).Only Op.Supporting
  listMailboxes : deps.mailboxLister.listMailboxes.Only Op.Supporting
  getContext : ∀ m, (deps.tier2.contextProvider.getContext m).Only Op.Supporting
  applier : deps.tier2.executor.applier.Wired
  createDraft : ∀ m body,
    (deps.tier2.draftCreator.createDraft m body).Only (· = Op.createDraft m body)
  alert : ∀ t b u, (deps.tier2.ops.alert t b u).Only Op.Supporting
  getVerdict : ∀ request, (deps.tier2.llmClient.getVerdict request).Only Op.AsksModel

theorem ReceiptArchiveConfig.wired (config : ReceiptArchiveConfig) : config.components.Wired where
  fetchAttachments _ := Prog.only_perform.2 trivial
  applyKeywords _ _ := Prog.only_perform.2 trivial
  extractReceipt _ := Prog.only_perform.2 trivial
  lookupDomain l hl d := by
    cases h : config.domainLookup with
    | true =>
      simp only [components, ReceiptArchiveComponents.live, h, if_true, Option.mem_def,
        Option.some_inj] at hl
      subst hl
      exact Prog.only_perform.2 trivial
    | false => simp [components, ReceiptArchiveComponents.live, h] at hl

theorem Deployment.tier1_wired (d : Deployment) : d.tier1.Wired where
  applier _ _ := .inl rfl
  alert _ _ _ := Prog.only_perform.2 trivial
  classify c hc m := by
    cases h : d.tiering.localClassifier with
    | none => simp [tier1, classifier, h] at hc
    | some name =>
      simp only [tier1, classifier, h, Option.isSome_some, if_true, Option.mem_def,
        Option.some_inj] at hc
      subst hc
      exact Prog.only_perform.2 trivial
  receiptArchive c hc := by
    obtain ⟨config, _, rfl⟩ := Option.map_eq_some_iff.1 hc
    exact config.wired

theorem Deployment.escalation_wired (d : Deployment) : d.escalation.Wired where
  getThreadContext _ := Prog.only_perform.2 trivial
  listMailboxes := Prog.only_perform.2 trivial
  getContext _ := Prog.only_perform.2 trivial
  applier _ _ := .inl rfl
  createDraft _ _ := Prog.only_perform.2 rfl
  alert _ _ _ := Prog.only_perform.2 trivial
  getVerdict _ := Prog.only_perform.2 trivial

/-- What a handled message is given to work with. -/
structure MessageDeps.Wired (deps : MessageDeps) : Prop where
  tier1 : deps.tier1.Wired
  escalation : deps.escalation.Wired

theorem Deployment.wired (d : Deployment) : d.deps.Wired := ⟨d.tier1_wired, d.escalation_wired⟩

/-! ## What the parts of a pipeline call -/

section Footprint

/-- Looking for company and date makes four kinds of calls. -/
theorem resolveReceipt_only {C : Op → Prop} {c : ReceiptArchiveComponents}
    (hknown : ∀ d, C (.getKnownSender d)) (hlearn : ∀ s, C (.learnKnownSender s))
    (hlookup : ∀ l ∈ c.domainLookup, ∀ d, (l.lookupDomain d).Only C)
    (hextract : ∀ r, (c.extractReceipt r).Only C) (message : NormalizedMessage)
    (ts : Option String) : (resolveReceipt c message ts).Only C := by
  refine Prog.Only.bind (Prog.only_perform.2 (hknown _)) fun sender => ?_
  refine Prog.Only.bind (Prog.Only.bind ?_ fun company => ?_) fun extraction => ?_
  · unfold resolveCompany
    cases hl : c.domainLookup with
    | none => trivial
    | some lookup =>
      refine (hlookup lookup hl _).bind fun company => ?_
      split
      · exact .ite trivial trivial
      · trivial
  · split
    · trivial
    · split <;> trivial
  · cases extraction with
    | some extraction => trivial
    | none =>
      refine (hextract _).bind fun extraction => ?_
      exact Prog.Only.bind (Prog.only_perform.2 (hlearn _)) fun _ => trivial

theorem ReceiptArchiveComponents.Wired.resolveReceipt_only {c : ReceiptArchiveComponents}
    (hc : c.Wired) (message : NormalizedMessage) (ts : Option String) :
    (resolveReceipt c message ts).Only Op.Supporting :=
  Spork.resolveReceipt_only (fun _ => trivial) (fun _ => trivial) hc.lookupDomain
    hc.extractReceipt message ts

theorem archivePdf_only {c : ReceiptArchiveComponents} (hc : c.Wired)
    (message : NormalizedMessage) (extraction : ReceiptExtraction) :
    (archivePdf c message extraction).Only Op.Supporting := by
  refine .ite trivial ((hc.fetchAttachments message).bind fun attachments => ?_)
  refine Prog.Only.bind (.ite trivial (.ite trivial (Prog.only_perform.2 trivial))) fun _ => ?_
  refine Prog.Only.bind (Prog.Only.tryCatch ?_ fun e => .ite trivial trivial) fun _ => trivial
  exact Prog.Only.bind (Prog.only_perform.2 trivial) fun _ => trivial

theorem archiveReceipt_only {c : ReceiptArchiveComponents} (hc : c.Wired)
    (message : NormalizedMessage) (ts : Option String) :
    (archiveReceipt c message ts).Only Op.Supporting := by
  refine (hc.resolveReceipt_only message ts).bind fun extraction => ?_
  refine (hc.applyKeywords _ _).bind fun _ => ?_
  exact (archivePdf_only hc message extraction).bind fun _ => trivial

theorem Tier1.alertIfImmediate_only {ops : PipelineObserver}
    (h : ∀ t b u, (ops.alert t b u).Only Op.Supporting) (message : NormalizedMessage)
    (verdict : RuleVerdict) : (alertIfImmediate ops message verdict).Only Op.Supporting :=
  .ite (h _ _ _) trivial

end Footprint

/-! ## A quiet day

The plainest world there is: every collaborator answers at once, nothing fails, and the model is
sure that the message should be ignored.  It is where the general statements are tried out. -/

/-- The verdict of a quiet day. -/
def quietVerdict : Verdict where
  category := "newsletter"
  urgency := .low
  confidence := .fin 1
  suggestedAction := { type := .ignore }
  summary := "nothing to do"
  reasoning := "nothing to do"
  confidence_nonneg := by decide +kernel
  confidence_le_one := by decide +kernel
  not_escalate := by decide
  not_archive := by decide

/-- A deployment with a budget of one call. -/
def oneCall : Deployment where
  tiering := { dailyCallBudget := 1, allowedCategories := ["newsletter"] }

/-- A message. -/
def letter : NormalizedMessage where
  messageId := "M1"
  threadId := "T1"
  fromAddress := "news@example.org"
  fromDomain := "example.org"
  subject := "Hello"
  bodyText := "Hello"

/-- A rule for every message. -/
def always (action : Action) : Rule where
  id := "R1"
  when := { always := true }
  action := action

/-- What a call is answered with on a quiet day. -/
def quietAnswer : (op : Op) → op.Ret
  | .getCursor _ => none
  | .hasProcessed _ => false
  | .getLlmUsage date => ⟨date, 0, 0, 0⟩
  | .getKnownSender _ => none
  | .now => "2026-01-05T09:00:00+00:00"
  | .newCorrelationId => "c0ffee"
  | .fetchAttachments _ => []
  | .getThreadContext _ => ⟨none, false⟩
  | .listMailboxes => ["Inbox", "Archive"]
  | .poll => []
  | .pollBatch => ⟨[], none⟩
  | .queryMessages _ _ _ => ⟨[], 0, 0, none, false⟩
  | .classify _ => { category := "newsletter" }
  | .getContext _ => ⟨[]⟩
  | .lookupDomain _ => none
  | .getVerdict _ => ⟨quietVerdict, ⟨10, 10⟩⟩
  | .completion _ => ⟨.ok none, .error ⟨.other "AttributeError", "usage"⟩⟩
  | .extractReceipt _ => ⟨"Acme", "2026-01-05"⟩
  | .feedHtml text => text
  | .modelDumpJson _ => "{}"
  | .renderReceiptPdf _ _ _ _ => []
  | .stopIsSet => false
  | .isPaused => false
  | .takePendingEvents => []
  | .currentRules => []
  | .budgetAlertDate => none
  | .setCursor _ _ | .markProcessed _ _ | .writeAuditEntry _ _ _ _ | .recordLlmCall _ _ _
  | .learnKnownSender _ | .apply _ _ | .createDraft _ _ | .applyKeywords _ _ | .notify _ _ _
  | .writeBytes _ _ | .setBudgetAlertDate _ | .sleep => ()

/-- A quiet day. -/
def Env.quiet : Env := fun _ op => .ok (quietAnswer op)

theorem Env.quiet_lawful : Env.quiet.Lawful := fun _ _ _ h => by cases h

/-- A quiet day is one of the days that may be. -/
theorem Env.quiet_reaches {α : Type} (p : Proc α) (w : World) :
    (machine anything).Reaches p w (.done (Env.quiet.eval p w).1) (Env.quiet.eval p w).2 :=
  Env.reaches Env.quiet_lawful (fun _ _ => trivial) p w

theorem Env.quiet_returns {α : Type} {p : Proc α} {w : World}
    (h : (Env.quiet.eval p w).1.isOk = true) :
    ∃ a, (machine anything).Reaches p w (.done (.ok a)) (Env.quiet.eval p w).2 := by
  have hreaches := quiet_reaches p w
  cases hr : (Env.quiet.eval p w).1 with
  | ok a => exact ⟨a, hr ▸ hreaches⟩
  | error e =>
    rw [hr] at h
    cases h

/-- A day on which the model's answer can never be parsed. -/
def Env.garbled : Env := fun _ op =>
  match op with
  | .getVerdict _ => .error ⟨.liteLLMClientError, "invalid LiteLLM verdict response"⟩
  | op => .ok (quietAnswer op)

theorem Env.garbled_lawful : Env.garbled.Lawful := by
  intro w op e h
  cases op <;> trivial

/-- A verdict that the message belongs in the archive. -/
def filingVerdict : Verdict :=
  { quietVerdict with
    suggestedAction := { type := .move, mailbox := some "Archive" }
    not_escalate := by decide
    not_archive := by decide }

/-- A day on which everything is filed. -/
def Env.filing : Env := fun _ op =>
  match op with
  | .getVerdict _ => .ok ⟨filingVerdict, ⟨10, 10⟩⟩
  | op => .ok (quietAnswer op)

theorem Env.filing_lawful : Env.filing.Lawful := by
  intro w op e h
  cases op <;> cases h

end Spork
