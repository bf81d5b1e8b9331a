import Spork.Guarantees.Tier1Table
import Spork.Guarantees.ReceiptExtraction
import Spork.Daemon.Shared

/-!
# Observe mode

`sporkd --observe` handles mail as ever and leaves it alone: `run_daemon` injects an applier, a
draft creator and a keyword applier that do nothing, the receipt branch skips its PDF, and nothing
is escalated.

That nothing is changed is a footprint (`messageLoop_withholds`) and holds in every run.  That the
bookkeeping is the live one is a comparison of two handlings of one message from the same world: up
to the branch of the verdict they are the same program (`Tier1.judge`), and behind it the store is
told the same (`runBranch_sameBooks_iff`).  The exception is a receipt without a company or a date,
which `build_receipt_pdf` rejects: observe mode never gets there.
-/

set_option autoImplicit false

namespace Spork

open Effects Machine

/-! ## What is withheld -/

/-- A call that changes mail, asks the model for a verdict or saves a receipt. -/
def Op.Withheld : Op → Prop
  | .apply _ _ | .createDraft _ _ | .applyKeywords _ _ | .getVerdict _ | .completion _
  | .writeBytes _ _ => True
  | _ => False

/-- The program makes no such call. -/
abbrev Withholds {α : Type} (p : Proc α) : Prop := p.Only fun op : Op => ¬op.Withheld

theorem withholds_call {op : Op} (h : ¬op.Withheld) : Withholds (call op) := Prog.only_perform.2 h

theorem drainEvents_withholds : ∀ events : List PendingAuditEvent, Withholds (drainEvents events)
  | [] => trivial
  | _ :: events => by
    refine (withholds_call id).bind fun ts => (withholds_call id).bind fun _ => ?_
    exact drainEvents_withholds events

section Footprint

variable (d : Deployment) (accountId : Option String) (message : NormalizedMessage)
    (rules : List Rule)

theorem archiveReceipt_withholds (config : ReceiptArchiveConfig) (ts : Option String) :
    Withholds (archiveReceipt config.components.observed message ts) := by
  have hresolve : Withholds (resolveReceipt config.components.observed message ts) := by
    refine (withholds_call id).bind fun sender => ?_
    refine ((extractReceipt_looksUp config message sender).mono fun op h => ?_).bind fun found => ?_
    · cases op <;> first | exact h.elim | exact id
    · cases found with
      | some extraction => trivial
      | none => exact (withholds_call id).bind fun _ => (withholds_call id).bind fun _ => trivial
  exact hresolve.bind fun extraction => trivial

/-- The classifier makes one call. -/
theorem classifier_withholds : ∀ c ∈ d.classifier, Withholds (c.classify message) := by
  intro c hc
  rw [Deployment.classifier] at hc
  split at hc
  · rw [Option.mem_def, Option.some_inj] at hc
    subst hc
    exact withholds_call id
  · cases hc

theorem runBranch_withholds (ts : String) (verdict : RuleVerdict) :
    Withholds (Tier1.runBranch d.observedTier1 message ts verdict) := by
  have hfinish : ∀ event detail row,
      Withholds (Tier1.auditThenMark message ts event detail row) := fun _ _ _ =>
    (withholds_call id).bind fun _ => withholds_call id
  have halert : Withholds (Tier1.alertIfImmediate d.observedTier1.ops message verdict) :=
    .ite (withholds_call id) trivial
  have hexecute : Withholds (d.observedTier1.executor.execute message verdict.action) :=
    ActionExecutor.execute_only fun _ => trivial
  rw [Tier1.runBranch]
  split
  · exact halert.bind fun _ => withholds_call id
  · split
    · trivial
    · rename_i components hc
      obtain ⟨c, hc', rfl⟩ := Option.map_eq_some_iff.1 hc
      obtain ⟨config, _, rfl⟩ := Option.map_eq_some_iff.1 hc'
      exact (archiveReceipt_withholds message config (some ts)).bind fun _ => hfinish _ _ _
  · exact hexecute.bind fun _ => hfinish _ _ _

theorem processMessage_withholds :
    Withholds (processMessage d.observedTier1 false message rules) := by
  rw [processMessage_eq, processMessage', if_neg Bool.false_ne_true]
  refine (withholds_call id).bind fun seen => .ite trivial ?_
  refine (withholds_call id).bind fun ts => (withholds_call id).bind fun _ => ?_
  refine (evaluate_only (classifier_withholds d message) rules _).bind fun verdict => ?_
  exact (runBranch_withholds d message ts verdict).bind fun _ => trivial

theorem processBatch_withholds : ∀ messages : List NormalizedMessage,
    Withholds (processBatch (d.runDaemon true accountId) rules messages)
  | [] => trivial
  | message :: messages => by
    refine (withholds_call id).bind fun stop => .ite trivial (Prog.Only.bind ?_ fun _ =>
      processBatch_withholds messages)
    exact (processMessage_withholds d message rules).bind fun verdict => trivial

/-- **A round in observe mode withholds.** -/
theorem messageLoop_withholds : Withholds (messageLoop (d.runDaemon true accountId) ()) := by
  have hack : ∀ checkpoint, Withholds (acknowledge (d.runDaemon true accountId) checkpoint) := by
    intro checkpoint
    unfold acknowledge
    split
    · exact withholds_call id
    · trivial
  refine (withholds_call id).bind fun stop => .ite trivial ?_
  refine (withholds_call id).bind fun pending => (drainEvents_withholds pending).bind fun _ => ?_
  refine (withholds_call id).bind fun paused =>
    .ite ((withholds_call id).bind fun _ => trivial) ?_
  refine Prog.Only.bind (.ite (withholds_call id) ((withholds_call id).bind fun _ => trivial))
    fun batch => (withholds_call id).bind fun rules => .ite ?_ ?_
  · exact (hack _).bind fun _ => (withholds_call id).bind fun _ => trivial
  · exact (processBatch_withholds d accountId rules batch.messages).bind fun finished =>
      .ite ((hack _).bind fun _ => trivial) trivial

end Footprint

/-- What every call of a round satisfies, every call of a run satisfies. -/
theorem LoopRun.calls {A : Allowed} {config : LoopConfig} {may : DaemonPoint → Handler → Prop}
    {d : Daemon} {c : DaemonPoint} {C : Op → Prop} (hbody : (messageLoop config ()).Only C)
    (h : LoopRun A config may d c) :
    c.rest.Only C ∧ Since d.world (fun es => ∀ e ∈ es, C e.op) c.world.world := by
  induction h with
  | refl => exact ⟨hbody, [], (List.append_nil _).symm, fun e he => by cases he⟩
  | tail _ hs ih =>
    obtain ⟨honly, hes⟩ := ih
    cases hs with
    | call h =>
      refine ⟨honly.2 _, hes.step h.world fun es hes e he => ?_⟩
      rcases List.mem_append.1 he with he | he
      · exact hes e he
      · rw [List.mem_singleton.1 he]
        exact honly.1
    | again => exact ⟨hbody, hes⟩
    | handle _ h =>
      obtain ⟨handler, _, rfl⟩ := h
      exact ⟨honly, hes⟩

/-! ## What is told to the store -/

/-- An audit entry, but for the detail of an archived receipt. -/
def AuditEntry.outline (e : AuditEntry) : AuditEntry :=
  if e.event = "receipt_archived" then { e with detailJson := none } else e

/-- Two stores with the same rows, but for the details of archived receipts. -/
structure StateDB.SameRows (db db' : StateDB) : Prop where
  auditLog : db.auditLog.entries.map AuditEntry.outline =
    db'.auditLog.entries.map AuditEntry.outline
  processedMessages : db.processedMessages = db'.processedMessages
  knownReceiptSenders : db.knownReceiptSenders = db'.knownReceiptSenders
  pushCursor : db.pushCursor = db'.pushCursor
  llmUsage : db.llmUsage = db'.llmUsage

theorem StateDB.SameRows.refl (db : StateDB) : db.SameRows db := ⟨rfl, rfl, rfl, rfl, rfl⟩

/-- Whatever detail an archived receipt is audited with. -/
theorem StateDB.sameRows_archived (db : StateDB) (message : NormalizedMessage) (ts : String)
    (detail detail' : Option String) (row : ProcessedRow) :
    ((db.writeAuditEntry ts message.messageId "receipt_archived" detail).markProcessed
        message.messageId row).SameRows
      ((db.writeAuditEntry ts message.messageId "receipt_archived" detail').markProcessed
        message.messageId row) := by
  refine ⟨?_, rfl, rfl, rfl, rfl⟩
  simp [StateDB.markProcessed, StateDB.writeAuditEntry, AuditEntry.outline]

/-- Two outcomes with the same result and the same rows. -/
structure SameBooks {α : Type} (o o' : Except Exn α × World) : Prop where
  result : o.1 = o'.1
  rows : o.2.db.SameRows o'.2.db

theorem SameBooks.refl {α : Type} (o : Except Exn α × World) : SameBooks o o := ⟨rfl, .refl _⟩

/-- What returns nothing may return something else. -/
theorem sameBooks_andThen_iff {env : Env} {α : Type} {p p' : Proc Unit} {a : α} {w : World} :
    SameBooks (env.eval (p >>= fun _ => pure a) w) (env.eval (p' >>= fun _ => pure a) w) ↔
      SameBooks (env.eval p w) (env.eval p' w) := by
  have heval : ∀ q : Proc Unit,
      env.eval (q >>= fun _ => pure a) w = ((env.eval q w).1.map fun _ => a, (env.eval q w).2) := by
    intro q
    cases h : env.eval q w with
    | mk r w₁ =>
      cases r with
      | ok u => exact Env.eval_bind_ok h
      | error e => exact Env.eval_bind_error h
  rw [heval, heval]
  refine ⟨fun h => ⟨?_, h.rows⟩, fun h => ⟨by rw [h.result], h.rows⟩⟩
  have hresult := h.result
  cases hr : (env.eval p w).1 <;> cases hr' : (env.eval p' w).1 <;> rw [hr, hr'] at hresult
  · exact congrArg _ (Except.error.inj hresult)
  · cases hresult
  · cases hresult

/-! ## What is found out before anything is done -/

/-- What `process_message` finds out before it acts: the time and the verdict, if the message is
new. -/
def Tier1.judge (deps : Tier1Deps) (message : NormalizedMessage) (rules : List Rule) :
    Proc (Option (String × RuleVerdict)) := do
  if ← call (.hasProcessed message.messageId) then pure none
  else do
    let ts ← call .now
    let _ ← call .newCorrelationId
    let verdict ← evaluate message rules deps.defaultUnmatchedAction deps.classifier
    pure (some (ts, verdict))

/-- What it does then. -/
def Tier1.actOn (deps : Tier1Deps) (message : NormalizedMessage) :
    Option (String × RuleVerdict) → Proc (Option RuleVerdict)
  | none => pure none
  | some (ts, verdict) => do
    runBranch deps message ts verdict
    pure (some verdict)

theorem Tier1.processMessage_eq_judge (deps : Tier1Deps) (message : NormalizedMessage)
    (rules : List Rule) :
    processMessage deps false message rules = judge deps message rules >>= actOn deps message := by
  rw [processMessage_eq, processMessage', if_neg Bool.false_ne_true, judge, bind_assoc]
  refine bind_congr fun seen => ?_
  cases seen with
  | true => rfl
  | false => simp [processUngated, actOn]

/-- The company and the date that a message is archived with, if its verdict is to archive it. -/
def judgedReceipt (d : Deployment) (message : NormalizedMessage) :
    Option (String × RuleVerdict) → Proc (Option ReceiptExtraction)
  | none => pure none
  | some (ts, verdict) =>
    match d.receiptArchive with
    | none => pure none
    | some config =>
      if verdict.action.type = .archiveReceipt then do
        let receipt ← resolveReceipt config.components message (some ts)
        pure (some receipt)
      else pure none

/-- The part of `process_message` that finds them. -/
def receiptOf (d : Deployment) (message : NormalizedMessage) (rules : List Rule) :
    Proc (Option ReceiptExtraction) :=
  Tier1.judge d.tier1 message rules >>= judgedReceipt d message

/-- `build_receipt_pdf` accepts the company and the date. -/
def ReceiptExtraction.Complete (receipt : ReceiptExtraction) : Prop :=
  receipt.company ≠ "" ∧ receipt.date ≠ ""

/-- If the message is to be archived from `w`, its receipt is complete. -/
def ArchivesComplete (env : Env) (p : Proc (Option ReceiptExtraction)) (w : World) : Prop :=
  ∀ receipt w', env.eval p w = (.ok (some receipt), w') → receipt.Complete

theorem archivesComplete_pure {env : Env} (w : World) : ArchivesComplete env (pure none) w :=
  fun _ _ h => by cases (Prod.mk.inj h).1

/-! ## What is told to the store is the same -/

section Branch

variable {env : Env} (message : NormalizedMessage)

/-- An audit row and a mark. -/
theorem auditThenMark_eval (env : Env) (ts event : String) (detail : Option String)
    (row : ProcessedRow) (w : World) :
    ∃ w', env.eval (Tier1.auditThenMark message ts event detail row) w = (.ok (), w') ∧
      w'.db = (w.db.writeAuditEntry ts message.messageId event detail).markProcessed
        message.messageId row :=
  ⟨_, ((Env.does_writeAuditEntry _ _ _ _).bind (Env.does_markProcessed _ _)).eval, rfl⟩

/-- The branch of a verdict that is neither handed on nor about a receipt. -/
theorem Tier1.runBranch_eq_execute (deps : Tier1Deps) (ts : String) {verdict : RuleVerdict}
    (hescalate : verdict.action.type ≠ .escalate)
    (hreceipt : verdict.action.type ≠ .archiveReceipt) :
    runBranch deps message ts verdict = (do
      deps.executor.execute message verdict.action
      auditThenMark message ts "action_applied" (some (actionDetail verdict.action.type))
        (processedRow message ts verdict.action.type)) := by
  rw [runBranch]
  split
  · exact absurd ‹_› hescalate
  · exact absurd ‹_› hreceipt
  · rfl

/-- The branch of a receipt. -/
theorem Tier1.runBranch_eq_archive (deps : Tier1Deps) (ts : String) {verdict : RuleVerdict}
    (hreceipt : verdict.action.type = .archiveReceipt) {components : ReceiptArchiveComponents}
    (hcomponents : deps.receiptArchive = some components) :
    runBranch deps message ts verdict = (do
      let receipt ← resolveReceipt components message (some ts)
      let detail ← archiveResolved components message receipt
      auditThenMark message ts "receipt_archived" (some detail)
        (processedRow message ts verdict.action.type)) := by
  rw [runBranch, hreceipt, hcomponents]
  simp only [archiveReceipt_eq, bind_assoc]

variable (hnever : env.NeverRaises)
include hnever

/-- An action is carried out by a live applier and by one that does nothing, and the store is told
the same. -/
theorem execute_sameBooks (action : Action) {q : Proc Unit} (w : World)
    (hq : ∀ w w', w.db = w'.db → SameBooks (env.eval q w) (env.eval q w')) :
    SameBooks
      (env.eval (ActionExecutor.execute ⟨observeActionApplier⟩ message action >>= fun _ => q) w)
      (env.eval (ActionExecutor.execute ⟨.live⟩ message action >>= fun _ => q) w) := by
  by_cases hacts : action.Acts
  · rw [ActionExecutor.execute_of_acts _ _ hacts, ActionExecutor.execute_of_acts _ _ hacts]
    obtain ⟨_, happlied⟩ := hnever w (.apply message action) rfl
    have happly := Env.does_external (w := w) rfl happlied
    have hlive : env.eval (ActionApplier.live.apply message action >>= fun _ => q) w =
        env.eval q (w.record (.apply message action) (.ok ()) w.db) := Env.eval_bind_ok happly.eval
    rw [hlive]
    exact hq _ _ rfl
  · rw [ActionExecutor.execute_of_not_acts _ ⟨.live⟩ message hacts]
    exact .refl _

/-- In a live deployment, a complete receipt is archived. -/
theorem archiveResolved_complete (config : ReceiptArchiveConfig) {receipt : ReceiptExtraction}
    (hcomplete : receipt.Complete) (w : World) :
    ∃ detail w' es, env.Does (archiveResolved config.components message receipt) w detail w' es ∧
      w'.db = w.db := by
  obtain ⟨_, htagged⟩ := hnever w (.applyKeywords message (receiptKeywords receipt)) rfl
  have htag := Env.does_external (w := w) rfl htagged
  obtain ⟨path, w', es, hpdf, hdb, -⟩ := archivePdf_does message
    (w.record (.applyKeywords message (receiptKeywords receipt)) (.ok ()) w.db) hnever
    { defaultUnmatchedAction := { type := .ignore }
      outputDir := config.outputDir
      domainLookup := config.domainLookup }
    receipt (.inr hcomplete)
  exact ⟨_, w', _, htag.bind hpdf.map, hdb⟩

/-- One that is not is rejected. -/
theorem archiveResolved_incomplete (config : ReceiptArchiveConfig) {receipt : ReceiptExtraction}
    (hincomplete : ¬receipt.Complete) (w : World) :
    ∃ e w', env.eval (archiveResolved config.components message receipt) w = (.error e, w') ∧
      e.cls = .valueError := by
  have hbuild : ∀ attachments, ∃ e, e.cls = ExnClass.valueError ∧
      buildReceiptPdf message attachments receipt.company receipt.date = Prog.raise e := by
    intro attachments
    rw [buildReceiptPdf]
    split
    · exact ⟨_, rfl, rfl⟩
    · rename_i hcompany
      rw [if_pos (by_contra fun hdate => hincomplete ⟨hcompany, hdate⟩)]
      exact ⟨_, rfl, rfl⟩
  obtain ⟨_, htagged⟩ := hnever w (.applyKeywords message (receiptKeywords receipt)) rfl
  have htag := Env.does_external (w := w) rfl htagged
  obtain ⟨attachments, hfetched⟩ := hnever
    (w.record (.applyKeywords message (receiptKeywords receipt)) (.ok ()) w.db)
    (.fetchAttachments message) rfl
  have hfetch := Env.does_external rfl hfetched
  obtain ⟨e, hcls, hraise⟩ := hbuild attachments
  have hrejects : ∀ w, env.eval (buildReceiptPdf message attachments receipt.company receipt.date) w
      = (.error e, w) := by
    intro w
    rw [hraise]
    rfl
  exact ⟨e, _, (Env.eval_bind_ok htag.eval).trans (Env.eval_bind_error
    ((Env.eval_bind_ok hfetch.eval).trans (Env.eval_bind_error (hrejects _)))), hcls⟩

/-- **A receipt is told to the store alike, just when it is complete.** -/
theorem archive_sameBooks_iff (config : ReceiptArchiveConfig) (ts : String) (row : ProcessedRow)
    (w : World) :
    SameBooks
        (env.eval (do
          let receipt ← resolveReceipt config.components.observed message (some ts)
          let detail ← archiveResolved config.components.observed message receipt
          Tier1.auditThenMark message ts "receipt_archived" (some detail) row) w)
        (env.eval (do
          let receipt ← resolveReceipt config.components message (some ts)
          let detail ← archiveResolved config.components message receipt
          Tier1.auditThenMark message ts "receipt_archived" (some detail) row) w) ↔
      ArchivesComplete env (do
        let receipt ← resolveReceipt config.components message (some ts)
        pure (some receipt)) w := by
  have hsame : resolveReceipt config.components.observed message (some ts) =
      resolveReceipt config.components message (some ts) := rfl
  rw [hsame]
  cases hresolve : env.eval (resolveReceipt config.components message (some ts)) w with
  | mk r w₁ =>
    cases r with
    | error e =>
      -- both raise, and no receipt is found
      refine iff_of_true ?_ fun receipt w' h => ?_
      · rw [Env.eval_bind_error hresolve, Env.eval_bind_error hresolve]
        exact .refl _
      · cases (Prod.mk.inj ((Env.eval_bind_error hresolve).symm.trans h)).1
    | ok receipt =>
      obtain ⟨w₂, heval₂, hdb₂⟩ := auditThenMark_eval message env ts "receipt_archived"
        (some (receiptDetail config.components.observed receipt none)) row w₁
      have hskipped : archiveResolved config.components.observed message receipt =
          pure (receiptDetail config.components.observed receipt none) := rfl
      have hfound : ArchivesComplete env (do
          let receipt ← resolveReceipt config.components message (some ts)
          pure (some receipt)) w ↔ receipt.Complete := by
        have heval := Env.eval_bind_ok (f := fun receipt => pure (some receipt)) hresolve
        refine ⟨fun h => h receipt w₁ heval, fun h receipt' w' heval' => ?_⟩
        obtain ⟨hreceipt, -⟩ := Prod.mk.inj (heval.symm.trans heval')
        exact Option.some_inj.1 (Except.ok.inj hreceipt) ▸ h
      rw [hfound, Env.eval_bind_ok hresolve, Env.eval_bind_ok hresolve, hskipped, pure_bind,
        heval₂]
      by_cases hcomplete : receipt.Complete
      · obtain ⟨detail, w₃, es, hdoes, hdb₃⟩ :=
          archiveResolved_complete message hnever config hcomplete w₁
        obtain ⟨w₄, heval₄, hdb₄⟩ := auditThenMark_eval message env ts "receipt_archived"
          (some detail) row w₃
        rw [Env.eval_bind_ok hdoes.eval, heval₄]
        refine iff_of_true ⟨rfl, ?_⟩ hcomplete
        rw [hdb₂, hdb₄, hdb₃]
        exact StateDB.sameRows_archived _ _ _ _ _ _
      · obtain ⟨e, w₃, herror, -⟩ := archiveResolved_incomplete message hnever config hcomplete w₁
        rw [Env.eval_bind_error herror]
        exact iff_of_false (fun h => by cases h.result) hcomplete

/-- **The branch of a verdict tells the store in observe mode what it tells it in a live
deployment**, just when the message is no receipt or its receipt is complete. -/
theorem runBranch_sameBooks_iff (d : Deployment) (ts : String) (verdict : RuleVerdict) (w : World) :
    SameBooks (env.eval (Tier1.runBranch d.observedTier1 message ts verdict) w)
        (env.eval (Tier1.runBranch d.tier1 message ts verdict) w) ↔
      ArchivesComplete env (judgedReceipt d message (some (ts, verdict))) w := by
  rw [judgedReceipt]
  by_cases hreceipt : verdict.action.type = .archiveReceipt
  · cases hconfig : d.receiptArchive with
    | none =>
      -- no route for it, in either deployment
      refine iff_of_true ?_ (archivesComplete_pure w)
      rw [Tier1.runBranch, Tier1.runBranch, hreceipt, Deployment.observedTier1, Deployment.tier1,
        hconfig]
      exact .refl _
    | some config =>
      have hobservedConfig : d.observedTier1.receiptArchive = some config.components.observed := by
        rw [Deployment.observedTier1, Deployment.tier1, hconfig]
        rfl
      have hliveConfig : d.tier1.receiptArchive = some config.components := by
        rw [Deployment.tier1, hconfig]
        rfl
      rw [Tier1.runBranch_eq_archive message _ ts hreceipt hobservedConfig,
        Tier1.runBranch_eq_archive message _ ts hreceipt hliveConfig]
      simp only [if_pos hreceipt]
      exact archive_sameBooks_iff message hnever config ts _ w
  · have hnone : ArchivesComplete env (judgedReceipt d message (some (ts, verdict))) w := by
      rw [judgedReceipt]
      cases d.receiptArchive with
      | none => exact archivesComplete_pure w
      | some config =>
        simp only [if_neg hreceipt]
        exact archivesComplete_pure w
    refine iff_of_true ?_ hnone
    by_cases hescalate : verdict.action.type = .escalate
    · have hsame : Tier1.runBranch d.observedTier1 message ts verdict =
          Tier1.runBranch d.tier1 message ts verdict := by
        rw [Tier1.runBranch, Tier1.runBranch, hescalate]
        rfl
      rw [hsame]
      exact .refl _
    · rw [Tier1.runBranch_eq_execute message _ ts hescalate hreceipt,
        Tier1.runBranch_eq_execute message _ ts hescalate hreceipt]
      refine execute_sameBooks message hnever verdict.action w fun w₁ w₂ hdb => ?_
      obtain ⟨w₃, heval₃, hdb₃⟩ := auditThenMark_eval message env ts "action_applied"
        (some (Tier1.actionDetail verdict.action.type))
        (Tier1.processedRow message ts verdict.action.type) w₁
      obtain ⟨w₄, heval₄, hdb₄⟩ := auditThenMark_eval message env ts "action_applied"
        (some (Tier1.actionDetail verdict.action.type))
        (Tier1.processedRow message ts verdict.action.type) w₂
      rw [heval₃, heval₄]
      refine ⟨rfl, ?_⟩
      rw [hdb₃, hdb₄, hdb]
      exact .refl _

/-- **A message that is not escalated leaves the rows in observe mode that it leaves in a live
deployment**, just when it is no receipt or its receipt is complete. -/
theorem processOne_sameBooks_iff (d : Deployment) (accountId : Option String) (rules : List Rule)
    (w : World)
    (hescalate : ∀ ts verdict w₁, env.eval (Tier1.judge d.tier1 message rules) w
      = (.ok (some (ts, verdict)), w₁) → verdict.action.type ≠ .escalate) :
    SameBooks (env.eval (processOne (d.runDaemon true accountId) rules message) w)
        (env.eval (processOne (d.runDaemon false accountId) rules message) w) ↔
      ArchivesComplete env (receiptOf d message rules) w := by
  have hprocess : ∀ observe, processOne (d.runDaemon observe accountId) rules message =
      Tier1.judge d.tier1 message rules >>= fun judged =>
        Tier1.actOn (d.runDaemon observe accountId).deps.tier1 message judged >>= fun verdict =>
          if !observe && escalates verdict then do
            let _ ← escalateMessageOrQuarantine (d.runDaemon observe accountId).deps.escalation
              message
            checkDailyBudgetAlert (d.runDaemon observe accountId).deps.escalation.tier2.tiering
              (d.runDaemon observe accountId).deps.tier1.ops
          else pure () := by
    intro observe
    have hjudge : Tier1.judge (d.runDaemon observe accountId).deps.tier1 message rules =
        Tier1.judge d.tier1 message rules := by
      cases observe with
      | true => rfl
      | false => rfl
    rw [processOne, Tier1.processMessage_eq_judge, bind_assoc, hjudge]
    rfl
  rw [hprocess, hprocess, receiptOf]
  cases hjudge : env.eval (Tier1.judge d.tier1 message rules) w with
  | mk r w₁ =>
    cases r with
    | error e =>
      rw [Env.eval_bind_error hjudge, Env.eval_bind_error hjudge]
      refine iff_of_true (.refl _) fun receipt w' h => ?_
      cases (Prod.mk.inj ((Env.eval_bind_error hjudge).symm.trans h)).1
    | ok judged =>
      have hfound : ArchivesComplete env
          (Tier1.judge d.tier1 message rules >>= judgedReceipt d message) w ↔
            ArchivesComplete env (judgedReceipt d message judged) w₁ := by
        rw [ArchivesComplete, Env.eval_bind_ok hjudge, ArchivesComplete]
      rw [Env.eval_bind_ok hjudge, Env.eval_bind_ok hjudge, hfound]
      cases judged with
      | none =>
        have hhanded : escalates none = false := rfl
        simp only [Tier1.actOn, pure_bind, hhanded, Bool.and_false, Bool.false_eq_true, if_false]
        exact iff_of_true (.refl _) (archivesComplete_pure w₁)
      | some judged =>
        obtain ⟨ts, verdict⟩ := judged
        have hhanded : escalates (some verdict) = false :=
          decide_eq_false (hescalate ts verdict w₁ hjudge)
        rw [← runBranch_sameBooks_iff message hnever d ts verdict w₁]
        simp only [Tier1.actOn, bind_assoc, pure_bind, hhanded, Bool.and_false,
          Bool.false_eq_true, if_false]
        exact sameBooks_andThen_iff

end Branch

/-! ## Every run -/

/-- **Observe mode changes no mail.**  In no run of the daemon in observe mode is an action applied,
a draft created, a keyword applied, a model asked for a verdict or a receipt saved; and wherever
such a run has got to, a message whose verdict is not to escalate leaves the result and the rows
that it would leave with a daemon that is not in observe mode, where no collaborator raises, just
when it is no receipt or its company and its date are not empty. -/
theorem observe_changes_no_mail (d : Deployment) (accountId : Option String) {A : Allowed}
    {may : DaemonPoint → Handler → Prop} {w : World} {s : SharedMemory} {c : DaemonPoint}
    (hrun : LoopRun A (d.runDaemon true accountId) may (.start w s) c) :
    (∀ e ∈ eventsSince w c.world.world, ¬e.op.Withheld) ∧
    ∀ (env : Env) (message : NormalizedMessage) (rules : List Rule), env.NeverRaises →
      (∀ ts verdict w₁, env.eval (Tier1.judge d.tier1 message rules) c.world.world
        = (.ok (some (ts, verdict)), w₁) → verdict.action.type ≠ .escalate) →
      (SameBooks
          (env.eval (processOne (d.runDaemon true accountId) rules message) c.world.world)
          (env.eval (processOne (d.runDaemon false accountId) rules message) c.world.world) ↔
        ArchivesComplete env (receiptOf d message rules) c.world.world) :=
  ⟨(hrun.calls (messageLoop_withholds d accountId)).2.eventsSince,
    fun _ message rules hnever hescalate =>
      processOne_sameBooks_iff message hnever d accountId rules c.world.world hescalate⟩

/-- A deployment that archives receipts. -/
def receiptDesk : Deployment := { tiering := {}, receiptArchive := some receiptsOnly }

/-- Every message is a receipt. -/
def archiveAll : List Rule := [always { type := .archiveReceipt }]

/-- What becomes of it. -/
def archivedVerdict : RuleVerdict := ⟨{ type := .archiveReceipt }, some "R1"⟩

/-- A daemon in observe mode that has polled once on a quiet day, with the given store. -/
def polledOnce (db : StateDB) : DaemonPoint :=
  Env.quiet.schedule (receiptDesk.runDaemon true none) (.start ⟨db, []⟩ { rules := archiveAll })
    (List.replicate 4 .go)

theorem polledOnce_run (db : StateDB) :
    LoopRun anything (receiptDesk.runDaemon true none) anyHandler
      (.start ⟨db, []⟩ { rules := archiveAll }) (polledOnce db) :=
  Env.schedule_run Env.quiet_lawful _ _ _ fun h hh => by simp at hh

/-- A dated letter is archived with the same rows. -/
theorem observe_changes_no_mail_dated :
    SameBooks
        (Env.quiet.eval (processOne (receiptDesk.runDaemon true none) archiveAll datedLetter)
          (polledOnce .empty).world.world)
        (Env.quiet.eval (processOne (receiptDesk.runDaemon false none) archiveAll datedLetter)
          (polledOnce .empty).world.world) ∧
      (Env.quiet.eval (processOne (receiptDesk.runDaemon true none) archiveAll datedLetter)
        (polledOnce .empty).world.world).2.db.hasProcessed datedLetter.messageId = true := by
  have hjudged : (Env.quiet.eval (Tier1.judge receiptDesk.tier1 datedLetter archiveAll)
      (polledOnce .empty).world.world).1 = .ok
        (some ("2026-01-05T09:00:00+00:00", archivedVerdict)) := rfl
  have hreceipt : (Env.quiet.eval (receiptOf receiptDesk datedLetter archiveAll)
      (polledOnce .empty).world.world).1 = .ok (some ⟨"Acme", "2026-01-05"⟩) := rfl
  refine ⟨((observe_changes_no_mail receiptDesk none (polledOnce_run .empty)).2 Env.quiet
    datedLetter archiveAll (fun _ _ _ => ⟨_, rfl⟩) fun ts verdict w₁ h => ?_).2
    fun receipt w₁ h => ?_, by decide +kernel⟩
  · cases (congrArg Prod.fst h).symm.trans hjudged
    decide
  · cases (congrArg Prod.fst h).symm.trans hreceipt
    exact ⟨by decide, by decide⟩

/-- **A receipt for which no company is found is audited and marked in observe mode**, though with a
live daemon it raises and leaves no row. -/
theorem observed_receipt_without_company : Env.nameless.NeverRaises ∧
    LoopRun anything (receiptDesk.runDaemon true none) anyHandler
      (.start ⟨.empty, []⟩ { rules := archiveAll }) (polledOnce .empty) ∧
    ∃ w' w'' e,
      Env.nameless.eval
          (processMessage (receiptDesk.runDaemon true none).deps.tier1 false letter archiveAll)
        (polledOnce .empty).world.world = (.ok (some archivedVerdict), w') ∧
      Env.nameless.eval
          (processMessage (receiptDesk.runDaemon false none).deps.tier1 false letter archiveAll)
        (polledOnce .empty).world.world = (.error e, w'') ∧
      w'.db.hasProcessed letter.messageId = true ∧
      w''.db.hasProcessed letter.messageId = false ∧ w''.db.auditLog.entries = [] := by
  refine ⟨Env.nameless_neverRaises, polledOnce_run .empty, _, _,
    ⟨.valueError, "build_receipt_pdf requires a non-empty company"⟩, Prod.ext rfl rfl,
      Prod.ext rfl rfl,
    ?_, ?_, rfl⟩
  · decide +kernel
  · decide +kernel

end Spork
