import Spork.Runtime

/-!
# Tier 1 refines the rule engine

Behind its gate, Tier 1 is `evaluate` and then what the verdict says: `Tier1.verdictEffects` and
`Tier1.finish` are the table for the verdicts that are not about receipts, and `Tier1.Archived` says
what an archived receipt leaves behind.  `tier1_refines_evaluate` is that `process_message` returns
the verdict of `evaluate` and does exactly this, for every rule list, default, classifier, store and
clock.

Two verdicts cannot be carried out though nothing fails: a `move` or a `tag` that names no mailbox
is rejected by the executor, and a receipt without a company or a date by the PDF builder
(`tier1_rejects`).  `Tier1.Finishes` leaves these out.
-/

set_option autoImplicit false

namespace Spork

open Effects

/-! ## The table -/

/-- What may be configured about Tier 1, with receipt archiving wired. -/
structure Tier1Config where
  defaultUnmatchedAction : Action
  classifier : Bool := false
  outputDir : PyPath
  domainLookup : Bool := false
  dryRun : Bool := false

/-- The components of the receipt branch. -/
def Tier1Config.archive (c : Tier1Config) : ReceiptArchiveComponents :=
  { ReceiptArchiveComponents.live c.outputDir (if c.domainLookup then some .live else none) with
    dryRun := c.dryRun }

/-- Tier 1, with every collaborator the live one. -/
def Tier1Config.deps (c : Tier1Config) : Tier1Deps where
  defaultUnmatchedAction := c.defaultUnmatchedAction
  executor := ⟨.live⟩
  ops := ⟨.live⟩
  classifier := if c.classifier then some .live else none
  receiptArchive := some c.archive

/-- A `move` or a `tag` that names a mailbox, or any other action. -/
def Action.Executable (action : Action) : Prop :=
  action.type.needsMailbox = true → action.mailbox.isSome = true

instance (action : Action) : Decidable action.Executable := inferInstanceAs (Decidable (_ → _))

namespace Tier1

/-- The effects of a verdict that is not about a receipt. -/
def verdictEffects (message : NormalizedMessage) (verdict : RuleVerdict) : List Op :=
  match verdict.action.type with
  | .escalate =>
    if verdict.action.alertImmediately then
      [.notify ("Escalated: " ++ escalationReason verdict) (alertBody message) .normal]
    else []
  | .ignore => []
  | _ => [.apply message verdict.action]

/-- What a verdict that is not about a receipt leaves in the store. -/
def finish (db : StateDB) (message : NormalizedMessage) (ts : String) (verdict : RuleVerdict) :
    StateDB :=
  match verdict.action.type with
  | .escalate => db.writeAuditEntry ts message.messageId "escalated_pending_tier2" none
  | _ => (db.writeAuditEntry ts message.messageId "action_applied"
      (some (actionDetail verdict.action.type))).markProcessed message.messageId
        (processedRow message ts verdict.action.type)

/-- A receipt's company and date have been found, by a model or without one. -/
inductive Resolved (message : NormalizedMessage) (ts : String) (extraction : ReceiptExtraction)
    (db : StateDB) : List Op → StateDB → Prop where
  | known : Resolved message ts extraction db [] db
  | learned : Resolved message ts extraction db
      [.extractReceipt ⟨message.subject, message.fromAddress, message.fromDomain, message.bodyText⟩]
      (db.learnKnownSender
        ⟨normalizeSenderDomain message.fromDomain, extraction.company, "tier2", ts⟩)

/-- The PDF half of an archived receipt. -/
inductive Saved (c : Tier1Config) (message : NormalizedMessage) (extraction : ReceiptExtraction) :
    List Op → Option PyPath → Prop where
  | skipped (h : c.dryRun = true) : Saved c message extraction [] none
  | written (h : c.dryRun = false) (path : PyPath) (data : List UInt8)
      (hpath : path = c.outputDir.join
        (receiptFilename message.messageId extraction.company extraction.date)) :
      Saved c message extraction [.writeBytes path.str data] (some path)

/-- A receipt has been archived: tagged once, saved unless this is a dry run, audited and marked. -/
def Archived (c : Tier1Config) (message : NormalizedMessage) (ts : String) (db : StateDB)
    (ops : List Op) (db' : StateDB) : Prop :=
  ∃ extraction asked db₀ saved path, Resolved message ts extraction db asked db₀ ∧
    Saved c message extraction saved path ∧
    ops = asked ++ .applyKeywords message (receiptKeywords extraction) :: saved ∧
    db' = (db₀.writeAuditEntry ts message.messageId "receipt_archived"
      (some (receiptDetail c.archive extraction path))).markProcessed message.messageId
        (processedRow message ts .archiveReceipt)

/-- The verdict is one that can be carried out: its action names the mailbox it needs; a receipt
has a company and a date, unless this is a dry run. -/
def Finishes (env : Env) (c : Tier1Config) (message : NormalizedMessage) (ts : String) (w : World)
    (verdict : RuleVerdict) : Prop :=
  match verdict.action.type with
  | .archiveReceipt => c.dryRun = true ∨ ∀ extraction w',
      env.eval (resolveReceipt c.archive message (some ts)) w = (.ok extraction, w') →
        extraction.company ≠ "" ∧ extraction.date ≠ ""
  | _ => verdict.action.Executable

/-- The world behind the gate. -/
def gated (force : Bool) (message : NormalizedMessage) (w : World) : World :=
  if force then w
  else w.record (.hasProcessed message.messageId) (.ok (w.db.hasProcessed message.messageId)) w.db

/-- The world behind the clock, which is read once. -/
def clocked (force : Bool) (message : NormalizedMessage) (ts : String) (w : World) : World :=
  (gated force message w).record .now (.ok ts) (gated force message w).db

/-- The world in which the rules are evaluated: behind the id generator as well. -/
def started (force : Bool) (message : NormalizedMessage) (ts id : String) (w : World) : World :=
  (clocked force message ts w).record .newCorrelationId (.ok id) (clocked force message ts w).db

theorem gated_trace (force : Bool) (message : NormalizedMessage) (w : World) :
    ∃ es, (gated force message w).trace = w.trace ++ es ∧ effects es = [] := by
  cases force with
  | true => exact ⟨[], (List.append_nil _).symm, rfl⟩
  | false => exact ⟨_, rfl, rfl⟩

theorem gated_db (force : Bool) (message : NormalizedMessage) (w : World) :
    (gated force message w).db = w.db := by
  cases force <;> rfl

end Tier1

/-! ## What each part does -/

section Parts

variable {env : Env} (message : NormalizedMessage) (w : World)

theorem alert_does (hnever : env.NeverRaises) (t b : String) (u : AlertUrgency) :
    ∃ w' es, env.Does ((⟨.live⟩ : PipelineObserver).alert t b u) w () w' es ∧ w'.db = w.db ∧
      effects es = [.notify t b u] := by
  obtain ⟨_, h⟩ := hnever w (.notify t b u) rfl
  exact ⟨_, _, Env.does_external rfl h, rfl, rfl⟩

theorem execute_does (hnever : env.NeverRaises) (action : Action) (hexec : action.Executable)
    (hterminal : action.type = .move ∨ action.type = .tag ∨ action.type = .ignore) :
    ∃ w' es, env.Does (ActionExecutor.execute ⟨.live⟩ message action) w () w' es ∧
      w'.db = w.db ∧
      effects es = if action.type = .ignore then [] else [.apply message action] := by
  rcases ActionExecutor.execute_cases ⟨.live⟩ message action with
    ⟨he, hacts⟩ | ⟨he, hignore⟩ | ⟨e, he, _, hnot, hne⟩ <;> rw [he]
  · obtain ⟨_, h⟩ := hnever w (.apply message action) rfl
    refine ⟨_, _, Env.does_external rfl h, rfl, ?_⟩
    rw [if_neg (by rcases hacts.1 with h | h <;> rw [h] <;> decide)]
    rfl
  · exact ⟨_, _, Env.does_pure (), rfl, by rw [if_pos hignore]; rfl⟩
  · exfalso
    rcases hterminal with ht | ht | ht
    · exact hnot ⟨.inl ht, hexec (by rw [ht]; rfl)⟩
    · exact hnot ⟨.inr ht, hexec (by rw [ht]; rfl)⟩
    · exact hne ht

/-- A verdict that is not about a receipt: its effects, its audit row, its mark if it has one. -/
theorem runBranch_does (hnever : env.NeverRaises) (c : Tier1Config) (ts : String)
    (verdict : RuleVerdict) (hexec : verdict.action.Executable)
    (hreceipt : verdict.action.type ≠ .archiveReceipt) :
    ∃ w' es, env.Does (Tier1.runBranch c.deps message ts verdict) w () w' es ∧
      effects es = Tier1.verdictEffects message verdict ∧
      w'.db = Tier1.finish w.db message ts verdict := by
  have hterminal : ∀ type, verdict.action.type = type →
      type = .move ∨ type = .tag ∨ type = .ignore →
      ∃ w' es, env.Does (do
          c.deps.executor.execute message verdict.action
          Tier1.auditThenMark message ts "action_applied"
            (some (Tier1.actionDetail verdict.action.type))
            (Tier1.processedRow message ts verdict.action.type)) w () w' es ∧
        effects es = (if type = .ignore then [] else [.apply message verdict.action]) ∧
        w'.db = (w.db.writeAuditEntry ts message.messageId "action_applied"
          (some (Tier1.actionDetail verdict.action.type))).markProcessed message.messageId
            (Tier1.processedRow message ts verdict.action.type) := by
    rintro type rfl hterminal
    obtain ⟨w₁, es, hexecute, hdb, hes⟩ :=
      execute_does message w hnever verdict.action hexec hterminal
    refine ⟨_, _, hexecute.bind ((Env.does_writeAuditEntry _ _ _ _).bind
      (Env.does_markProcessed _ _)), ?_, by simp [hdb]⟩
    rw [effects_append, hes]
    exact List.append_nil _
  rw [Tier1.runBranch, Tier1.verdictEffects, Tier1.finish]
  cases ht : verdict.action.type with
  | archiveReceipt => exact absurd ht hreceipt
  | move =>
    simpa only [ht, reduceCtorEq, if_false] using hterminal .move ht (.inl rfl)
  | tag =>
    simpa only [ht, reduceCtorEq, if_false] using hterminal .tag ht (.inr (.inl rfl))
  | ignore =>
    simpa only [ht, if_true] using hterminal .ignore ht (.inr (.inr rfl))
  | escalate =>
    dsimp only
    rw [Tier1.alertIfImmediate]
    cases verdict.action.alertImmediately with
    | true =>
      obtain ⟨w₁, es, halert, hdb, hes⟩ := alert_does w hnever
        ("Escalated: " ++ Tier1.escalationReason verdict) (Tier1.alertBody message) .normal
      refine ⟨_, _, halert.bind (Env.does_writeAuditEntry _ _ _ _), ?_, by simp [hdb]⟩
      rw [effects_append, hes]
      rfl
    | false =>
      exact ⟨_, _, (Env.does_pure ()).bind (Env.does_writeAuditEntry _ _ _ _), rfl, rfl⟩

/-- Looking for the company without a model asks the knowledgebase at most. -/
theorem extractReceipt_does (hnever : env.NeverRaises) (c : Tier1Config)
    (knownSender : Option KnownSender) :
    ∃ extraction w' es, env.Does (extractReceipt message knownSender c.archive.domainLookup) w
      extraction w' es ∧ w'.db = w.db ∧ effects es = [] := by
  have hcompany : ∃ company w' es, env.Does
      (resolveCompany message.fromDomain knownSender c.archive.domainLookup) w company w' es ∧
      w'.db = w.db ∧ effects es = [] := by
    unfold resolveCompany
    simp only [Tier1Config.archive, ReceiptArchiveComponents.live]
    cases c.domainLookup with
    | false => exact ⟨_, _, _, Env.does_pure _, rfl, rfl⟩
    | true =>
      obtain ⟨found, h⟩ := hnever w (.lookupDomain message.fromDomain) rfl
      have hlookup := Env.does_external (w := w) rfl h
      cases found with
      | none => exact ⟨_, _, _, hlookup.bind (Env.does_pure _), rfl, rfl⟩
      | some record =>
        cases record with
        | none => exact ⟨_, _, _, hlookup.bind (Env.does_pure _), rfl, rfl⟩
        | some company =>
          have hchosen : ∃ chosen, ∀ w', env.Does
              (if company ≠ "" then pure (some company)
                else pure (knownSender.map KnownSender.company)) w' chosen w' [] := by
            split <;> exact ⟨_, fun _ => Env.does_pure _⟩
          obtain ⟨chosen, hchosen⟩ := hchosen
          exact ⟨chosen, _, _, hlookup.bind (hchosen _), rfl, rfl⟩
  obtain ⟨company, w', es, hdoes, hdb, hes⟩ := hcompany
  have hes' : effects (es ++ []) = [] := by rw [List.append_nil, hes]
  rw [extractReceipt]
  cases company with
  | none => exact ⟨_, w', es ++ [], hdoes.bind (Env.does_pure _), hdb, hes'⟩
  | some company =>
    cases extractDate message with
    | none => exact ⟨_, w', es ++ [], hdoes.bind (Env.does_pure _), hdb, hes'⟩
    | some date => exact ⟨_, w', es ++ [], hdoes.bind (Env.does_pure _), hdb, hes'⟩

/-- Company and date are found. -/
theorem resolveReceipt_does (hnever : env.NeverRaises) (c : Tier1Config) (ts : String) :
    ∃ extraction w' es, env.Does (resolveReceipt c.archive message (some ts)) w extraction w' es ∧
      Tier1.Resolved message ts extraction w.db (effects es) w'.db := by
  have hknown : env.Does _ w _ _ _ :=
    Env.does_getKnownSender (normalizeSenderDomain message.fromDomain)
  obtain ⟨extraction, w₁, es, hextract, hdb, hes⟩ := extractReceipt_does message
    (w.record (.getKnownSender (normalizeSenderDomain message.fromDomain))
      (.ok (w.db.getKnownSender (normalizeSenderDomain message.fromDomain))) w.db) hnever c
    (w.db.getKnownSender (normalizeSenderDomain message.fromDomain))
  cases extraction with
  | some extraction =>
    refine ⟨extraction, w₁, _, hknown.bind (hextract.bind (Env.does_pure extraction)), ?_⟩
    rw [effects_append, effects_append, hes, show w₁.db = w.db from hdb]
    exact .known
  | none =>
    obtain ⟨extraction, hasked⟩ := hnever w₁ (.extractReceipt
      ⟨message.subject, message.fromAddress, message.fromDomain, message.bodyText⟩) rfl
    have hask := Env.does_external (w := w₁) rfl hasked
    refine ⟨extraction, _, _, hknown.bind (hextract.bind (hask.bind
      (Env.does_learnKnownSender ⟨normalizeSenderDomain message.fromDomain, extraction.company,
        "tier2", ts⟩).map)), ?_⟩
    rw [effects_append, effects_append, hes, World.db_record, World.db_record,
      show w₁.db = w.db from hdb]
    exact .learned

/-- The PDF half. -/
theorem archivePdf_does (hnever : env.NeverRaises) (c : Tier1Config)
    (extraction : ReceiptExtraction)
    (hreceipt : c.dryRun = true ∨ extraction.company ≠ "" ∧ extraction.date ≠ "") :
    ∃ path w' es, env.Does (archivePdf c.archive message extraction) w path w' es ∧
      w'.db = w.db ∧ Tier1.Saved c message extraction (effects es) path := by
  cases hdry : c.dryRun with
  | true =>
    refine ⟨none, w, [], ?_, rfl, .skipped hdry⟩
    rw [archivePdf, if_pos (show c.archive.dryRun = true from hdry)]
    exact Env.does_pure _
  | false =>
    have hwet : ¬c.archive.dryRun = true := fun h => Bool.false_ne_true (hdry.symm.trans h)
    obtain ⟨hcompany, hdate⟩ := hreceipt.resolve_left hwet
    obtain ⟨attachments, hattachments⟩ := hnever w (.fetchAttachments message) rfl
    have hfetch := Env.does_external (w := w) rfl hattachments
    obtain ⟨data, hdata⟩ := hnever (w.record (.fetchAttachments message) (.ok attachments) w.db)
      (.renderReceiptPdf message attachments extraction.company extraction.date) rfl
    have hbuild := Env.does_external rfl hdata
    obtain ⟨_, hwritten⟩ := hnever ((w.record (.fetchAttachments message) (.ok attachments)
        w.db).record (.renderReceiptPdf message attachments extraction.company extraction.date)
        (.ok data) w.db)
      (.writeBytes (c.outputDir.join (receiptFilename message.messageId extraction.company
        extraction.date)).str data) rfl
    have hsave := (Env.does_external rfl hwritten).map (f := fun _ =>
      c.outputDir.join (receiptFilename message.messageId extraction.company extraction.date))
    rw [archivePdf, if_neg hwet]
    simp only [buildReceiptPdf, if_neg hcompany, if_neg hdate]
    exact ⟨_, _, _, hfetch.bind (hbuild.bind hsave.tryCatch.map), rfl, .written hdry _ data rfl⟩

/-- A receipt that can be archived is. -/
theorem archive_does (hnever : env.NeverRaises) (c : Tier1Config) (ts : String)
    (verdict : RuleVerdict) (ht : verdict.action.type = .archiveReceipt)
    (hfinishes : Tier1.Finishes env c message ts w verdict) :
    ∃ w' es, env.Does (Tier1.runBranch c.deps message ts verdict) w () w' es ∧
      Tier1.Archived c message ts w.db (effects es) w'.db := by
  rw [Tier1.Finishes, ht] at hfinishes
  obtain ⟨extraction, w₁, es₁, hresolve, hresolved⟩ := resolveReceipt_does message
    w hnever c ts
  obtain ⟨_, htagged⟩ := hnever w₁ (.applyKeywords message (receiptKeywords extraction)) rfl
  have htag := Env.does_external (w := w₁) rfl htagged
  obtain ⟨path, w₂, es₂, hpdf, hdb₂, hsaved⟩ := archivePdf_does message
    (w₁.record (.applyKeywords message (receiptKeywords extraction)) (.ok ()) w₁.db) hnever c
    extraction (hfinishes.imp id fun h => h extraction w₁ hresolve.eval)
  have hdetail : env.Does (archiveReceipt c.archive message (some ts)) w
      (receiptDetail c.archive extraction path) w₂ _ := hresolve.bind (htag.bind hpdf.map)
  rw [Tier1.runBranch, ht]
  refine ⟨_, _, hdetail.bind ((Env.does_writeAuditEntry _ _ _ _).bind
    (Env.does_markProcessed _ _)), extraction, effects es₁, w₁.db, effects es₂, path, hresolved,
    hsaved, ?_, ?_⟩
  · rw [effects_append, effects_append, effects_append]
    exact List.append_nil _
  · rw [World.db_record, World.db_record, hdb₂, World.db_record]

end Parts

/-! ## The pipeline is the table -/

/-- The classifier is all that evaluating asks. -/
theorem evaluate_asks (c : Tier1Config) (message : NormalizedMessage) (rules : List Rule) :
    (evaluate message rules c.defaultUnmatchedAction c.deps.classifier).Only
      (· = Op.classify message) := by
  refine evaluate_only (fun classifier hclassifier => ?_) rules _
  simp only [Tier1Config.deps] at hclassifier
  split at hclassifier
  · rw [Option.mem_def, Option.some_inj] at hclassifier
    subst hclassifier
    exact Prog.only_perform.2 rfl
  · cases hclassifier

/-- A message that has a row stops at the gate. -/
theorem processMessage_skips {env : Env} {deps : Tier1Deps} {message : NormalizedMessage}
    {rules : List Rule} {w : World} (hseen : w.db.hasProcessed message.messageId = true) :
    env.eval (processMessage deps false message rules) w
      = (.ok none, Tier1.gated false message w) := by
  rw [processMessage_eq, processMessage', if_neg Bool.false_ne_true,
    Env.eval_bind_ok (Env.does_hasProcessed _).eval, hseen]
  simp only [Tier1.gated, hseen]
  rfl

/-- Any other message, or one that is forced, is past it. -/
theorem processMessage_continues {env : Env} {deps : Tier1Deps} {force : Bool}
    {message : NormalizedMessage} {rules : List Rule} {w : World}
    (h : ¬(force = false ∧ w.db.hasProcessed message.messageId = true)) :
    env.eval (processMessage deps force message rules) w
      = env.eval (Tier1.processUngated deps message rules) (Tier1.gated force message w) := by
  rw [processMessage_eq, processMessage']
  cases force with
  | true => rfl
  | false =>
    have hunseen : w.db.hasProcessed message.messageId = false := by simpa using h
    rw [if_neg Bool.false_ne_true, Env.eval_bind_ok (Env.does_hasProcessed _).eval, hunseen]
    simp only [Tier1.gated, hunseen]
    rfl

theorem processUngated_ne {env : Env} {deps : Tier1Deps} {message : NormalizedMessage}
    {rules : List Rule} {w : World} :
    (env.eval (Tier1.processUngated deps message rules) w).1 ≠ .ok none :=
  Env.eval_bind_ne fun ts _ => Env.eval_bind_ne fun _ _ => Env.eval_bind_ne fun verdict _ =>
    Env.eval_bind_ne fun _ _ h => by cases h

/-- **A message that is not skipped fares as the branch of its verdict does.** -/
theorem processMessage_does (c : Tier1Config) {force : Bool} {message : NormalizedMessage}
    (rules : List Rule) {env : Env} {w w₁ : World} {ts id : String} {verdict : RuleVerdict}
    (hcontinues : ¬(force = false ∧ w.db.hasProcessed message.messageId = true))
    (hts : env (Tier1.gated force message w) .now = .ok ts)
    (hid : env (Tier1.clocked force message ts w) .newCorrelationId = .ok id)
    (hevaluate : env.eval (evaluate message rules c.defaultUnmatchedAction c.deps.classifier)
      (Tier1.started force message ts id w) = (.ok verdict, w₁)) :
    w₁.db = w.db ∧ ∀ w' es₂, env.Does (Tier1.runBranch c.deps message ts verdict) w₁ () w' es₂ →
      ∃ es, w'.trace = w.trace ++ es ∧
        env.eval (processMessage c.deps force message rules) w = (.ok (some verdict), w') ∧
        effects es = effects es₂ := by
  have hnow := Env.does_external (w := Tier1.gated force message w) rfl hts
  have hcorrelation := Env.does_external (w := Tier1.clocked force message ts w) rfl hid
  obtain ⟨es₀, htrace₀, heffects₀⟩ := Tier1.gated_trace force message w
  obtain ⟨hdb, es₁, htrace₁, heffects₁⟩ := Env.eval_asks
    (fun op hop => by subst hop; exact ⟨rfl, rfl⟩) (evaluate_asks c message rules)
    (Tier1.started force message ts id w)
  rw [hevaluate] at hdb htrace₁
  have hverdict : env.Does (evaluate message rules c.defaultUnmatchedAction c.deps.classifier)
      (Tier1.started force message ts id w) verdict w₁ es₁ := ⟨hevaluate, htrace₁⟩
  refine ⟨hdb.trans (Tier1.gated_db force message w), fun w' es₂ hbranch => ?_⟩
  have hall : env.Does (Tier1.processUngated c.deps message rules)
      (Tier1.gated force message w) (some verdict) w' _ :=
    hnow.bind (hcorrelation.bind (hverdict.bind hbranch.map))
  refine ⟨es₀ ++ _, by rw [hall.trace, htrace₀, List.append_assoc], ?_, ?_⟩
  · rw [processMessage_continues hcontinues]
    exact hall.eval
  · simp only [effects_append, heffects₀, heffects₁, List.nil_append]
    rfl

/-- **Tier 1 refines the rule engine.**  Where nothing raises, `process_message` returns nothing if
and only if it is not forced and the message has a row; then it has read the gate and nothing else.
Otherwise, whenever `evaluate` returns a verdict that can be carried out, it returns that verdict,
and its effects and what it leaves in the store are those of the table, with the one reading of the
clock in the audit row and in the mark. -/
theorem tier1_refines_evaluate (c : Tier1Config) (force : Bool) (message : NormalizedMessage)
    (rules : List Rule) (env : Env) (hnever : env.NeverRaises) (w : World) :
    ((env.eval (processMessage c.deps force message rules) w).1 = .ok none ↔
        force = false ∧ w.db.hasProcessed message.messageId = true) ∧
    (force = false ∧ w.db.hasProcessed message.messageId = true →
        env.eval (processMessage c.deps force message rules) w
          = (.ok none, Tier1.gated force message w)) ∧
    (¬(force = false ∧ w.db.hasProcessed message.messageId = true) →
      ∃ ts id, env (Tier1.gated force message w) .now = .ok ts ∧
        env (Tier1.clocked force message ts w) .newCorrelationId = .ok id ∧
        ∀ verdict w₁,
          env.eval (evaluate message rules c.defaultUnmatchedAction c.deps.classifier)
            (Tier1.started force message ts id w) = (.ok verdict, w₁) →
          Tier1.Finishes env c message ts w₁ verdict →
          ∃ w' es, w'.trace = w.trace ++ es ∧
            env.eval (processMessage c.deps force message rules) w = (.ok (some verdict), w') ∧
            if verdict.action.type = .archiveReceipt then
              Tier1.Archived c message ts w.db (effects es) w'.db
            else effects es = Tier1.verdictEffects message verdict ∧
              w'.db = Tier1.finish w.db message ts verdict) := by
  have hskips : force = false ∧ w.db.hasProcessed message.messageId = true →
      env.eval (processMessage c.deps force message rules) w
        = (.ok none, Tier1.gated force message w) := by
    rintro ⟨rfl, hseen⟩
    exact processMessage_skips hseen
  refine ⟨⟨fun h => ?_, fun h => by rw [hskips h]⟩, hskips, fun hcontinues => ?_⟩
  · by_contra hcontinues
    rw [processMessage_continues hcontinues] at h
    exact processUngated_ne h
  · obtain ⟨ts, hts⟩ := hnever (Tier1.gated force message w) .now rfl
    obtain ⟨id, hid⟩ := hnever (Tier1.clocked force message ts w) .newCorrelationId rfl
    refine ⟨ts, id, hts, hid, fun verdict w₁ hevaluate hfinishes => ?_⟩
    obtain ⟨hdb, hwhole⟩ := processMessage_does c rules hcontinues hts hid hevaluate
    by_cases ht : verdict.action.type = .archiveReceipt
    · obtain ⟨w', es₂, hbranch, harchived⟩ :=
        archive_does message w₁ hnever c ts verdict ht hfinishes
      obtain ⟨es, htrace, heval, heffects⟩ := hwhole w' es₂ hbranch
      exact ⟨w', es, htrace, heval, by rw [if_pos ht, heffects, ← hdb]; exact harchived⟩
    · have hexec : verdict.action.Executable := by
        rw [Tier1.Finishes] at hfinishes
        split at hfinishes
        · exact absurd ‹_› ht
        · exact hfinishes
      obtain ⟨w', es₂, hbranch, heffects₂, hdb₂⟩ :=
        runBranch_does message w₁ hnever c ts verdict hexec ht
      obtain ⟨es, htrace, heval, heffects⟩ := hwhole w' es₂ hbranch
      exact ⟨w', es, htrace, heval, by
        rw [if_neg ht, heffects, hdb₂, hdb]
        exact ⟨heffects₂, rfl⟩⟩

/-! ### Verdicts that cannot be carried out -/

/-- Tier 1 on a quiet day. -/
def quietTier1 : Tier1Config where
  defaultUnmatchedAction := { type := .escalate }
  outputDir := ⟨"/", ["receipts"]⟩

/-- On a quiet day a rule that files `letter` is carried out. -/
theorem tier1_refines_evaluate_quiet : ∃ w' es verdict,
    verdict.action = { type := .move, mailbox := some "Archive" } ∧
    Env.quiet.eval (processMessage quietTier1.deps false letter
      [always { type := .move, mailbox := some "Archive" }]) ⟨.empty, []⟩
        = (.ok (some verdict), w') ∧
    w'.trace = es ∧ effects es = [.apply letter verdict.action] := by
  have hcontinues :
      ¬(false = false ∧ (⟨.empty, []⟩ : World).db.hasProcessed letter.messageId = true) :=
    by decide +kernel
  obtain ⟨ts, id, _, _, h⟩ := (tier1_refines_evaluate quietTier1 false letter
    [always { type := .move, mailbox := some "Archive" }] Env.quiet (fun _ _ _ => ⟨_, rfl⟩)
    ⟨.empty, []⟩).2.2 hcontinues
  obtain ⟨w', es, htrace, heval, htable⟩ := h
    ⟨{ type := .move, mailbox := some "Archive" }, some "R1"⟩ _ rfl fun _ => rfl
  exact ⟨w', es, _, rfl, heval, htrace, htable.1⟩

/-- A day on which the extraction client finds no company. -/
def Env.nameless : Env := fun _ op =>
  match op with
  | .extractReceipt _ => .ok ⟨"", "2026-01-05"⟩
  | op => .ok (quietAnswer op)

theorem Env.nameless_neverRaises : Env.nameless.NeverRaises := by
  intro w op _
  cases op <;> exact ⟨_, rfl⟩

/-- **Two verdicts are not carried out though nothing raises**: a `move` without a mailbox, and a
receipt for which no company is found. -/
theorem tier1_rejects : Env.nameless.NeverRaises ∧
    ∀ action ∈ [({ type := .move } : Action), { type := .archiveReceipt }], ∀ verdict w',
      Env.nameless.eval (processMessage quietTier1.deps false letter [always action]) ⟨.empty, []⟩
        ≠ (.ok verdict, w') := by
  refine ⟨Env.nameless_neverRaises, fun action haction verdict w' h => ?_⟩
  have hok : ∀ action ∈ [({ type := .move } : Action), { type := .archiveReceipt }],
      (Env.nameless.eval (processMessage quietTier1.deps false letter [always action])
        ⟨.empty, []⟩).1.isOk = false := by decide +kernel
  have hnot := hok action haction
  rw [h] at hnot
  cases hnot

end Spork
