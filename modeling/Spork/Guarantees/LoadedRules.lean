import Spork.Guarantees.Observe
import Spork.Guarantees.RuleEvaluation
import Spork.Rules.Loader

/-!
# What Tier 1 can be made to raise by its rules

With collaborators that never fail, the outcome of `process_message` is settled by the action that
the rules declare for the message, and for a receipt by the company and the date that are found
(`processMessage_outcome`).  Two things are rejected: a `move` or a `tag` without a mailbox, which
`load_rules` lets through, and a receipt without a company or a date.

`process_message` makes no call twice, so collaborators that answer by the call alone (`obliging`)
stand for all that never fail.
-/

set_option autoImplicit false

namespace Spork

open Effects

/-- Collaborators that never fail. -/
def Env.obliging (answers : (op : Op) → op.Ret) : Env := fun _ op => .ok (answers op)

theorem Env.obliging_neverRaises (answers : (op : Op) → op.Ret) :
    (Env.obliging answers).NeverRaises := fun _ op _ => ⟨answers op, rfl⟩

/-! ## The action and the receipt of a message -/

/-- The action of the first rule that matches, or the default. -/
def deciding (answers : (op : Op) → op.Ret) (message : NormalizedMessage) (rules : List Rule)
    (default : Action) : Action :=
  (declaredVerdict message rules default (answers (.classify message)).category).action

/-- What the receipt branch knows about a message without a model. -/
def receiptInputs (answers : (op : Op) → op.Ret) (domainLookup : Bool)
    (message : NormalizedMessage) (db : StateDB) : ReceiptInputs where
  message := message
  knownSender := db.getKnownSender (normalizeSenderDomain message.fromDomain)
  records := if domainLookup then some fun domain => answers (.lookupDomain domain) else none

/-- The company and the date of a receipt, or else what the model answers. -/
def foundReceipt (answers : (op : Op) → op.Ret) (domainLookup : Bool)
    (message : NormalizedMessage) (db : StateDB) : ReceiptExtraction :=
  match (receiptInputs answers domainLookup message db).company, extractDate message with
  | some company, some date => ⟨company, date⟩
  | _, _ => answers (.extractReceipt (extractionRequest message))

section Outcome

variable (answers : (op : Op) → op.Ret) (message : NormalizedMessage) (w : World)

/-- Evaluation ends with the declared verdict and leaves the store alone. -/
theorem evaluate_obliging (rules : List Rule) (default : Action) :
    ∃ w', (Env.obliging answers).eval (evaluate message rules default (some .live)) w
        = (.ok (declaredVerdict message rules default (answers (.classify message)).category), w') ∧
      w'.db = w.db := by
  by_cases h : NeedsClassifier message rules (answers (.classify message)).category
  · have hcall : (Env.obliging answers).Does (call (.classify message)) w _ _ _ :=
      Env.does_external rfl rfl
    rw [evaluate_of_needs h]
    exact ⟨_, Env.eval_bind_ok hcall.eval, rfl⟩
  · exact ⟨w, by rw [evaluate_of_not_needs h]; rfl, rfl⟩

/-- A live lookup is one in the table of the answers. -/
theorem resolveCompany_obliging (known : Option KnownSender) :
    (Env.obliging answers).eval (resolveCompany message.fromDomain known (some .live)) w
      = (Env.obliging answers).eval (resolveCompany message.fromDomain known
          (some (.table fun domain => answers (.lookupDomain domain))))
          (w.record (.lookupDomain message.fromDomain)
            (.ok (answers (.lookupDomain message.fromDomain))) w.db) := by
  have hlookup : (Env.obliging answers).Does (call (.lookupDomain message.fromDomain)) w _ _ _ :=
    Env.does_external rfl rfl
  unfold resolveCompany
  exact Env.eval_bind_ok hlookup.eval

/-- Looking for the receipt without a model. -/
theorem extractReceipt_obliging (domainLookup : Bool) (db : StateDB) :
    ∃ w', (Env.obliging answers).eval (extractReceipt message
          (db.getKnownSender (normalizeSenderDomain message.fromDomain))
          (if domainLookup then some .live else none)) w
        = (.ok ((receiptInputs answers domainLookup message db).company.bind fun company =>
            (extractDate message).map fun date => ⟨company, date⟩), w') ∧
      w'.db = w.db := by
  have h := (receiptInputs answers domainLookup message db).extract_eq
  cases domainLookup with
  | false => exact ⟨w, congrArg (fun p => (Env.obliging answers).eval p w) h, rfl⟩
  | true =>
    have htable : (Env.obliging answers).eval (extractReceipt message
          (db.getKnownSender (normalizeSenderDomain message.fromDomain)) (some .live)) w
        = (Env.obliging answers).eval (receiptInputs answers true message db).extract
            (w.record (.lookupDomain message.fromDomain)
              (.ok (answers (.lookupDomain message.fromDomain))) w.db) := by
      rw [ReceiptInputs.extract, extractReceipt, extractReceipt, Prog.bind_def, Prog.bind_def,
        Env.eval_andThen, Env.eval_andThen, resolveCompany_obliging]
      rfl
    exact ⟨_, htable.trans (congrArg (fun p => (Env.obliging answers).eval p _) h), rfl⟩

/-- The receipt that is found, with a model or without one. -/
theorem resolveReceipt_obliging (c : Tier1Config) (ts : String) :
    ∃ w', (Env.obliging answers).eval (resolveReceipt c.archive message (some ts)) w
        = (.ok (foundReceipt answers c.domainLookup message w.db), w') := by
  have hknown : (Env.obliging answers).Does _ w _ _ _ :=
    Env.does_getKnownSender (normalizeSenderDomain message.fromDomain)
  obtain ⟨w₁, hextract, hdb⟩ := extractReceipt_obliging answers message
    (w.record (.getKnownSender (normalizeSenderDomain message.fromDomain))
      (.ok (w.db.getKnownSender (normalizeSenderDomain message.fromDomain))) w.db)
    c.domainLookup w.db
  rw [resolveReceipt, Env.eval_bind_ok hknown.eval]
  have hlookup : c.archive.domainLookup = if c.domainLookup then some .live else none := rfl
  rw [hlookup, Env.eval_bind_ok hextract, foundReceipt]
  have hask : (Env.obliging answers).Does (call (.extractReceipt (extractionRequest message))) w₁
      (answers (.extractReceipt (extractionRequest message))) _ _ := Env.does_external rfl rfl
  have hlearn : ∃ w₂, (Env.obliging answers).eval (do
      let extraction ← call (.extractReceipt (extractionRequest message))
      call (.learnKnownSender ⟨normalizeSenderDomain message.fromDomain, extraction.company,
        "tier2", ts⟩)
      pure extraction) w₁ = (.ok (answers (.extractReceipt (extractionRequest message))), w₂) :=
    ⟨_, (hask.bind (Env.does_learnKnownSender _).map).eval⟩
  cases (receiptInputs answers c.domainLookup message w.db).company with
  | none => exact hlearn
  | some company =>
    cases extractDate message with
    | none => exact hlearn
    | some date => exact ⟨w₁, rfl⟩

/-- An action that cannot be executed is rejected. -/
theorem execute_rejects {env : Env} {action : Action} (h : ¬action.Executable) :
    ∃ e, env.eval (ActionExecutor.execute ⟨.live⟩ message action) w = (.error e, w) ∧
      e.cls = .actionExecutionError := by
  obtain ⟨hneeds, hnone⟩ := Classical.not_imp.1 h
  rcases ActionExecutor.execute_cases ⟨.live⟩ message action with
    ⟨-, hacts⟩ | ⟨-, hignore⟩ | ⟨e, he, hcls, -, -⟩
  · exact absurd hacts.2 hnone
  · rw [hignore] at hneeds
    cases hneeds
  · exact ⟨e, by rw [he]; rfl, hcls⟩

/-- How the branch of a verdict ends. -/
inductive BranchOutcome (c : Tier1Config) (action : Action) (receipt : ReceiptExtraction)
    (r : Except Exn Unit) : Prop where
  | returns (hr : r = .ok ()) (hexecutable : action.Executable)
      (hcomplete : action.type = .archiveReceipt → c.dryRun = true ∨ receipt.Complete)
  | rejected (e : Exn) (hr : r = .error e) (hcls : e.cls = .actionExecutionError)
      (hexecutable : ¬action.Executable)
  | incomplete (e : Exn) (hr : r = .error e) (hcls : e.cls = .valueError)
      (harchive : action.type = .archiveReceipt) (hdry : c.dryRun = false)
      (hcomplete : ¬receipt.Complete)

section Ends

variable {c : Tier1Config} {action : Action} {receipt : ReceiptExtraction} {r : Except Exn Unit}

theorem BranchOutcome.isOk_iff (h : BranchOutcome c action receipt r) :
    r.isOk = true ↔ action.Executable ∧
      (action.type = .archiveReceipt → c.dryRun = true ∨ receipt.Complete) := by
  cases h with
  | returns hr hexecutable hcomplete =>
    rw [hr]
    exact iff_of_true rfl ⟨hexecutable, hcomplete⟩
  | rejected e hr hcls hexecutable =>
    rw [hr]
    exact iff_of_false (fun h => by cases h) fun h => hexecutable h.1
  | incomplete e hr hcls harchive hdry hcomplete =>
    rw [hr]
    refine iff_of_false (fun h => by cases h) fun h => ?_
    rcases h.2 harchive with h | h
    · exact Bool.false_ne_true (hdry.symm.trans h)
    · exact hcomplete h

/-- What it raises says which of the two it was. -/
theorem BranchOutcome.cause {e : Exn} (h : BranchOutcome c action receipt (.error e)) :
    e.cls = .actionExecutionError ∧ ¬action.Executable ∨
      e.cls = .valueError ∧ action.type = .archiveReceipt ∧ ¬receipt.Complete := by
  cases h with
  | returns hr => cases hr
  | rejected e hr hcls hexecutable =>
    cases hr
    exact .inl ⟨hcls, hexecutable⟩
  | incomplete e hr hcls harchive hdry hcomplete =>
    cases hr
    exact .inr ⟨hcls, harchive, hcomplete⟩

end Ends

theorem runBranch_outcome (c : Tier1Config) (ts : String) (verdict : RuleVerdict) :
    BranchOutcome c verdict.action (foundReceipt answers c.domainLookup message w.db)
      ((Env.obliging answers).eval (Tier1.runBranch c.deps message ts verdict) w).1 := by
  have hnever := Env.obliging_neverRaises answers
  by_cases harchive : verdict.action.type = .archiveReceipt
  · have hexecutable : verdict.action.Executable := fun h => by rw [harchive] at h; cases h
    obtain ⟨w₁, hresolve⟩ := resolveReceipt_obliging answers message w c ts
    by_cases hok : c.dryRun = true ∨
        (foundReceipt answers c.domainLookup message w.db).Complete
    · have hfinishes : Tier1.Finishes (Env.obliging answers) c message ts w verdict := by
        rw [Tier1.Finishes, harchive]
        refine hok.imp id fun hcomplete receipt w' heval => ?_
        rw [hresolve] at heval
        obtain ⟨hreceipt, -⟩ := Prod.mk.inj heval
        exact Except.ok.inj hreceipt ▸ hcomplete
      obtain ⟨w', es, hdoes, -⟩ := archive_does message w hnever c ts verdict harchive hfinishes
      exact .returns (by rw [hdoes.eval]) hexecutable fun _ => hok
    · obtain ⟨hdry, hcomplete⟩ := not_or.1 hok
      have hdry' : c.dryRun = false := Bool.eq_false_iff.2 hdry
      obtain ⟨e, w₂, hincomplete, hcls⟩ := archiveResolved_incomplete message hnever
        { outputDir := c.outputDir, domainLookup := c.domainLookup } hcomplete w₁
      refine .incomplete e ?_ hcls harchive hdry' hcomplete
      have hcomponents : c.deps.receiptArchive = some c.archive := rfl
      have hwet : c.archive = ReceiptArchiveConfig.components
          { outputDir := c.outputDir, domainLookup := c.domainLookup } := by
        rw [Tier1Config.archive, hdry']
        rfl
      rw [Tier1.runBranch_eq_archive message c.deps ts harchive hcomponents,
        Env.eval_bind_ok hresolve, hwet, Env.eval_bind_error hincomplete]
  · have hnot : verdict.action.type = .archiveReceipt → c.dryRun = true ∨
        (foundReceipt answers c.domainLookup message w.db).Complete := fun h => absurd h harchive
    by_cases hexecutable : verdict.action.Executable
    · obtain ⟨w', es, hdoes, -⟩ :=
        runBranch_does message w hnever c ts verdict hexecutable harchive
      exact .returns (by rw [hdoes.eval]) hexecutable hnot
    · have hescalate : verdict.action.type ≠ .escalate := fun h =>
        hexecutable fun hneeds => by rw [h] at hneeds; cases hneeds
      obtain ⟨e, he, hcls⟩ := execute_rejects message w hexecutable
      refine .rejected e ?_ hcls hexecutable
      rw [Tier1.runBranch_eq_execute message c.deps ts hescalate harchive,
        show c.deps.executor = ⟨.live⟩ from rfl, Env.eval_bind_error he]

/-- A message that is not skipped fares as its branch does. -/
theorem processMessage_branch (c : Tier1Config) (hclassifier : c.classifier = true) {force : Bool}
    (hskips : ¬(force = false ∧ w.db.hasProcessed message.messageId = true)) (rules : List Rule) :
    ∃ r, BranchOutcome c (deciding answers message rules c.defaultUnmatchedAction)
        (foundReceipt answers c.domainLookup message w.db) r ∧
      ((Env.obliging answers).eval (processMessage c.deps force message rules) w).1
        = r.map fun _ => some (declaredVerdict message rules c.defaultUnmatchedAction
            (answers (.classify message)).category) := by
  have hnow : (Env.obliging answers).Does (call .now) (Tier1.gated force message w)
      (answers .now) (Tier1.clocked force message (answers .now) w) _ := Env.does_external rfl rfl
  have hid : (Env.obliging answers).Does (call .newCorrelationId)
      (Tier1.clocked force message (answers .now) w) (answers .newCorrelationId)
      (Tier1.started force message (answers .now) (answers .newCorrelationId) w) _ :=
    Env.does_external rfl rfl
  obtain ⟨w₁, hevaluate, hdb₁⟩ := evaluate_obliging answers message
    (Tier1.started force message (answers .now) (answers .newCorrelationId) w) rules
    c.defaultUnmatchedAction
  have hdb : w₁.db = w.db := hdb₁.trans (Tier1.gated_db force message w)
  have hdeps : c.deps.classifier = some .live := by
    rw [Tier1Config.deps]
    simp only [hclassifier, if_true]
  have houtcome := runBranch_outcome answers message w₁ c (answers .now)
    (declaredVerdict message rules c.defaultUnmatchedAction (answers (.classify message)).category)
  rw [hdb] at houtcome
  refine ⟨_, houtcome, ?_⟩
  rw [processMessage_continues hskips, Tier1.processUngated, Env.eval_bind_ok hnow.eval,
    Env.eval_bind_ok hid.eval, show c.deps.defaultUnmatchedAction = c.defaultUnmatchedAction
      from rfl, hdeps, Env.eval_bind_ok hevaluate]
  cases hbranch : (Env.obliging answers).eval (Tier1.runBranch c.deps message (answers .now)
      (declaredVerdict message rules c.defaultUnmatchedAction
        (answers (.classify message)).category)) w₁ with
  | mk r w₂ =>
    cases r with
    | error e => rw [Env.eval_bind_error hbranch]; rfl
    | ok u => rw [Env.eval_bind_ok hbranch]; rfl

/-- **What Tier 1 raises, with collaborators that never fail.**  A message that is not skipped is
handled exactly if the deciding action is not a `move` or a `tag` without a mailbox, and a receipt
has a company and a date unless this is a dry run.  If it is not, the exception says which of the
two it was; it is never about a missing route or an unset field. -/
theorem processMessage_outcome (c : Tier1Config) (hclassifier : c.classifier = true)
    (force : Bool) (rules : List Rule) :
    ((((Env.obliging answers).eval (processMessage c.deps force message rules) w).1.isOk = true ↔
      (force = false ∧ w.db.hasProcessed message.messageId = true) ∨
        (deciding answers message rules c.defaultUnmatchedAction).Executable ∧
          ((deciding answers message rules c.defaultUnmatchedAction).type = .archiveReceipt →
            c.dryRun = true ∨ (foundReceipt answers c.domainLookup message w.db).Complete))) ∧
    ∀ e, ((Env.obliging answers).eval (processMessage c.deps force message rules) w).1 = .error e →
      e.cls = .actionExecutionError ∧
          ¬(deciding answers message rules c.defaultUnmatchedAction).Executable ∨
        e.cls = .valueError ∧
          (deciding answers message rules c.defaultUnmatchedAction).type = .archiveReceipt ∧
          ¬(foundReceipt answers c.domainLookup message w.db).Complete := by
  by_cases hskips : force = false ∧ w.db.hasProcessed message.messageId = true
  · obtain ⟨rfl, hseen⟩ := hskips
    rw [processMessage_skips hseen]
    exact ⟨iff_of_true rfl (.inl ⟨rfl, hseen⟩), fun e h => by cases h⟩
  · obtain ⟨r, houtcome, heval⟩ :=
      processMessage_branch answers message w c hclassifier hskips rules
    rw [heval]
    cases r with
    | ok u =>
      exact ⟨iff_of_true rfl (.inr (houtcome.isOk_iff.1 rfl)), fun e he => by cases he⟩
    | error e =>
      refine ⟨iff_of_false (fun h => by cases h) ?_, ?_⟩
      · rintro (h | h)
        · exact hskips h
        · cases houtcome.isOk_iff.2 h
      · rintro _ ⟨⟩
        exact houtcome.cause

end Outcome

/-! ### A rules file -/

/-- Tier 1 with a classifier and receipt archiving. -/
def fullTier1 : Tier1Config := { quietTier1 with classifier := true }

/-- A rules file whose one rule moves every message, and does not say where to. -/
def moveNowhere : String :=
  "[[rule]]\nid = \"R1\"\nwhen = \x7b always = true \x7d\naction = \x7b type = \"move\" \x7d\n"

/-- A rule that files `letter` is executed. -/
theorem processMessage_outcome_filed :
    ((Env.obliging quietAnswer).eval (processMessage fullTier1.deps false letter
      [always { type := .move, mailbox := some "Archive" }]) ⟨.empty, []⟩).1.isOk = true :=
  (processMessage_outcome quietAnswer letter ⟨.empty, []⟩ fullTier1 rfl false
    [always { type := .move, mailbox := some "Archive" }]).1.2
      (.inr ⟨fun _ => rfl, fun h => by cases h⟩)

/-- **A rules file that is accepted and cannot be executed.** -/
theorem loaded_move_rejected : loadRules (some moveNowhere) = .ok [always { type := .move }] ∧
    (Env.obliging quietAnswer).NeverRaises ∧
    ∃ e, ((Env.obliging quietAnswer).eval (processMessage fullTier1.deps false letter
        [always { type := .move }]) ⟨.empty, []⟩).1 = .error e ∧
      e.cls = .actionExecutionError := by
  refine ⟨by decide +kernel, Env.obliging_neverRaises quietAnswer, ?_⟩
  have hcls : (match ((Env.obliging quietAnswer).eval (processMessage fullTier1.deps false letter
      [always { type := .move }]) ⟨.empty, []⟩).1 with
    | .ok _ => none
    | .error e => some e.cls) = some ExnClass.actionExecutionError := by decide +kernel
  split at hcls
  · cases hcls
  · exact ⟨_, ‹_›, Option.some_inj.1 hcls⟩

end Spork
