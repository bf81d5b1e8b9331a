import Spork.Daemon.Loop
import Spork.Guarantees.Backfill

/-!
# The daemon and the commands

Three call sites assemble the pipeline: the daemon's loop, `_backfill` and `_reclassify`.  They are
compared here on one message that has no row yet, in one and the same world, by everything the
outcome of a message consists of (`SameOutcome`).

The commands leave the receipt components out, so a rule that archives receipts is a wiring error
for them, and it shows when the daemon gets as far as tagging a receipt.  And behind an escalation
the daemon's loop looks whether the day's budget is gone, and alerts, so it raises where the alert
does.  There is no other difference (`commands_handle_alike_iff`).

A reclassified message is not asked about at the gate.  Collaborators that answer by what has been
called before must not see that one call, so their answers here depend on the rest (`Env.blind`).
-/

set_option autoImplicit false

namespace Spork

open Effects

/-! ## Outcomes -/

/-- The calls of the mail provider. -/
def Op.callsProvider : Op → Bool
  | .apply _ _ | .createDraft _ _ | .applyKeywords _ _ | .fetchAttachments _ | .getThreadContext _
  | .listMailboxes | .poll | .pollBatch | .queryMessages _ _ _ => true
  | _ => false

/-- The calls that were made to the mail provider, in order. -/
def World.providerCalls (w : World) : List Op := (w.trace.map Event.op).filter Op.callsProvider

theorem Env.providerCalls_answer (env : Env) (w : World) (op : Op) :
    (env.answer w op).2.providerCalls = w.providerCalls ++ [op].filter Op.callsProvider := by
  rw [World.providerCalls, env.trace_answer, List.map_append, List.filter_append]
  rfl

/-- A call to the provider is there to stay. -/
theorem Env.providerCalls_eval (env : Env) {α : Type} (p : Proc α) (w : World) :
    w.providerCalls <+: (env.eval p w).2.providerCalls := by
  refine (Prog.only_true p).eval_keeps
    (I := fun w' : World => w.providerCalls <+: w'.providerCalls) ?_ (List.prefix_refl _)
  intro w₁ op _ hprefix
  rw [env.providerCalls_answer]
  exact hprefix.trans (List.prefix_append _ _)

theorem Env.providerCalls_call_bind (env : Env) {op : Op} {α : Type} (f : op.Ret → Proc α)
    (w : World) : w.providerCalls ++ [op].filter Op.callsProvider
      <+: (env.eval (call op >>= f) w).2.providerCalls := by
  rw [← env.providerCalls_answer]
  exact env.providerCalls_eval (Prog.onValue f (env.answer w op).1) (env.answer w op).2

/-- How a message was handled, and the world that left. -/
abbrev Outcome : Type := Except Exn (Option RuleVerdict × Option EscalationResult) × World

/-- Two ways of handling a message come to the same. -/
structure SameOutcome (message : NormalizedMessage) (x y : Outcome) : Prop where
  /-- Both raise, or both return, and then the same verdicts. -/
  verdict : x.1.toOption = y.1.toOption
  providerCalls : x.2.providerCalls = y.2.providerCalls
  row : x.2.db.processedMessages message.messageId = y.2.db.processedMessages message.messageId
  audit : x.2.db.auditLog.entries = y.2.db.auditLog.entries

section SameOutcome

variable {message : NormalizedMessage} {x y z : Outcome}

theorem SameOutcome.refl (message : NormalizedMessage) (x : Outcome) : SameOutcome message x x :=
  ⟨rfl, rfl, rfl, rfl⟩

theorem SameOutcome.symm (h : SameOutcome message x y) : SameOutcome message y x :=
  ⟨h.verdict.symm, h.providerCalls.symm, h.row.symm, h.audit.symm⟩

theorem SameOutcome.trans (h : SameOutcome message x y) (h' : SameOutcome message y z) :
    SameOutcome message x z :=
  ⟨h.verdict.trans h'.verdict, h.providerCalls.trans h'.providerCalls, h.row.trans h'.row,
    h.audit.trans h'.audit⟩

/-- What comes to the same may be exchanged for it. -/
theorem SameOutcome.congr {x' y' : Outcome} (hx : SameOutcome message x x')
    (hy : SameOutcome message y y') : SameOutcome message x y ↔ SameOutcome message x' y' :=
  ⟨fun h => hx.symm.trans (h.trans hy), fun h => hx.trans (h.trans hy.symm)⟩

end SameOutcome

/-! ## Collaborators that do not see the gate -/

/-- A world without the questions of the gate. -/
def World.blind (w : World) : World := ⟨w.db, w.trace.filter fun e => e.op.gate.isNone⟩

/-- Collaborators that answer by everything but the questions of the gate. -/
def Env.blind (env : Env) : Env := fun w op => env w.blind op

section Blind

variable {w w' : World}

@[simp] theorem World.db_blind (w : World) : w.blind.db = w.db := rfl

theorem World.blind_record (w : World) (op : Op) (r : Except Exn op.Ret) (db : StateDB) :
    (w.record op r db).blind =
      ⟨db, w.blind.trace ++ [(⟨op, r⟩ : Event)].filter fun e => e.op.gate.isNone⟩ := by
  simp [World.blind, World.record, List.filter_append]

theorem World.providerCalls_blind (w : World) : w.blind.providerCalls = w.providerCalls := by
  rw [providerCalls, providerCalls, blind, List.filter_map, List.filter_map, List.filter_filter]
  refine congrArg _ (List.filter_congr fun e _ => ?_)
  obtain ⟨op, r⟩ := e
  cases op <;> rfl

/-- One call. -/
theorem Env.answer_blind (env : Env) (h : w.blind = w'.blind) (op : Op) :
    (env.blind.answer w op).1 = (env.blind.answer w' op).1 ∧
      (env.blind.answer w op).2.blind = (env.blind.answer w' op).2.blind := by
  have hdb : w.db = w'.db := by rw [← w.db_blind, h, w'.db_blind]
  have htrace : w.blind.trace = w'.blind.trace := congrArg World.trace h
  have hreply : env.blind w op = env.blind w' op := congrArg (fun w => env w op) h
  rw [answer, answer]
  cases hop : op.onDb with
  | none =>
    simp only [hreply, hdb, World.blind_record, htrace, and_self]
  | some g =>
    simp only [hdb]
    cases g w'.db <;> simp only [World.blind_record, htrace, and_self]

/-- **A program cannot tell how often the gate was asked.** -/
theorem Env.eval_blind (env : Env) {α : Type} : ∀ (p : Proc α) {w w' : World}, w.blind = w'.blind →
    (env.blind.eval p w).1 = (env.blind.eval p w').1 ∧
      (env.blind.eval p w).2.blind = (env.blind.eval p w').2.blind
  | .done _, _, _, h => ⟨rfl, h⟩
  | .call op k, w, w', h => by
    obtain ⟨hreply, hleft⟩ := env.answer_blind h op
    have hrest := env.eval_blind (k (env.blind.answer w op).1) hleft
    have hstep : ∀ w, env.blind.eval (.call op k) w =
        env.blind.eval (k (env.blind.answer w op).1) (env.blind.answer w op).2 := fun _ => rfl
    rw [hstep, hstep, ← hreply]
    exact hrest

theorem sameOutcome_of_blind {message : NormalizedMessage} {x y : Outcome} (hr : x.1 = y.1)
    (hw : x.2.blind = y.2.blind) : SameOutcome message x y where
  verdict := congrArg Except.toOption hr
  providerCalls := by rw [← World.providerCalls_blind, hw, World.providerCalls_blind]
  row := by rw [← x.2.db_blind, hw, y.2.db_blind]
  audit := by rw [← x.2.db_blind, hw, y.2.db_blind]

/-- A message without a row is handled as it is reclassified. -/
theorem handleMessage_same (env : Env) (deps : MessageDeps) (rules : List Rule)
    {message : NormalizedMessage} {w : World}
    (hnew : w.db.hasProcessed message.messageId = false) :
    SameOutcome message (env.blind.eval (handleMessage deps rules message) w)
      (env.blind.eval (reclassifyMessage deps rules message) w) := by
  have hgate := env.blind.does_hasProcessed (w := w) message.messageId
  rw [hnew] at hgate
  rw [handleMessage_eq_reclassifyMessage, Env.eval_bind_ok hgate.eval, if_neg Bool.false_ne_true]
  have hblind : (w.record (.hasProcessed message.messageId) (.ok false) w.db).blind = w.blind := by
    rw [World.blind_record]
    exact congrArg (World.mk w.db) (List.append_nil _)
  obtain ⟨hr, hw⟩ := env.eval_blind (reclassifyMessage deps rules message) hblind
  exact sameOutcome_of_blind hr hw

end Blind

/-! ## What Tier 1 decides -/

/-- Everything behind the gate up to the verdict of the rules. -/
def decideVerdict (deps : Tier1Deps) (rules : List Rule) (message : NormalizedMessage) :
    Proc (String × RuleVerdict) := do
  let ts ← call .now
  let _ ← call .newCorrelationId
  let verdict ← evaluate message rules deps.defaultUnmatchedAction deps.classifier
  pure (ts, verdict)

/-- Everything behind the verdict of the rules. -/
def carryOut (deps : MessageDeps) (message : NormalizedMessage) (ts : String)
    (verdict : RuleVerdict) : Proc (Option RuleVerdict × Option EscalationResult) := do
  Tier1.runBranch deps.tier1 message ts verdict
  if verdict.action.type = .escalate then
    let result ← escalateMessageOrQuarantine deps.escalation message
    pure (some verdict, some result)
  else pure (some verdict, none)

theorem reclassifyMessage_decide (deps : MessageDeps) (rules : List Rule)
    (message : NormalizedMessage) : reclassifyMessage deps rules message = (do
      let (ts, verdict) ← decideVerdict deps.tier1 rules message
      carryOut deps message ts verdict) := by
  rw [reclassifyMessage_eq, decideVerdict]
  simp only [bind_assoc, pure_bind]
  rfl

/-- Receipts are archived, the rules say that `message` is one, and it has a company and a date. -/
def ArchivesReceipt (env : Env) (d : Deployment) (rules : List Rule) (message : NormalizedMessage)
    (w : World) : Prop :=
  ∃ ts verdict w₁, env.eval (decideVerdict d.tier1 rules message) w = (.ok (ts, verdict), w₁) ∧
    ∃ config ∈ d.receiptArchive, verdict.action.type = .archiveReceipt ∧ ∃ extraction,
      (env.eval (resolveReceipt config.components message (some ts)) w₁).1 = .ok extraction

/-! ## Where the two part -/

section Parting

variable {env : Env} {d : Deployment} {message : NormalizedMessage} {w : World}

/-- The calls of looking for company and date. -/
inductive ResolvingCall : Op → Prop where
  | getKnownSender {fromDomain : String} : ResolvingCall (.getKnownSender fromDomain)
  | lookupDomain {domain : String} : ResolvingCall (.lookupDomain domain)
  | extractReceipt {request : ReceiptExtractionRequest} : ResolvingCall (.extractReceipt request)
  | learnKnownSender {sender : KnownSender} : ResolvingCall (.learnKnownSender sender)

theorem resolveReceipt_resolving (message : NormalizedMessage) (config : ReceiptArchiveConfig)
    (ts : Option String) :
    (resolveReceipt config.components message ts).Only ResolvingCall := by
  refine resolveReceipt_only (fun _ => .getKnownSender) (fun _ => .learnKnownSender)
    (fun l hl d => ?_) (fun _ => Prog.only_perform.2 .extractReceipt) message ts
  unfold ReceiptArchiveConfig.components ReceiptArchiveComponents.live at hl
  cases hlookup : config.domainLookup with
  | false => simp [hlookup] at hl
  | true =>
    simp only [hlookup, if_true, Option.mem_def, Option.some_inj] at hl
    subst hl
    exact Prog.only_perform.2 .lookupDomain

/-- Looking for company and date is no part of an outcome. -/
theorem same_resolving (env : Env) (message : NormalizedMessage) {α : Type} {p : Proc α}
    (hp : p.Only ResolvingCall) (w : World) (e e' : Exn) :
    SameOutcome message (.error e, (env.eval p w).2) (.error e', w) := by
  refine hp.eval_keeps (I := fun w' : World => SameOutcome message (.error e, w') (.error e', w)) ?_
    ⟨rfl, rfl, rfl, rfl⟩
  rintro w₁ op hop ⟨hverdict, hcalls, hrow, haudit⟩
  refine ⟨hverdict, ?_, ?_, ?_⟩
  · rw [env.providerCalls_answer]
    cases hop <;> exact (List.append_nil _).trans hcalls
  · cases hop <;> exact hrow
  · cases hop <;> exact haudit

/-- Except for receipts, nothing is carried out with the receipt components. -/
theorem carryOut_reclassify (ts : String) {verdict : RuleVerdict}
    (h : verdict.action.type ≠ .archiveReceipt) :
    carryOut d.reclassifyDeps message ts verdict = carryOut d.deps message ts verdict := by
  rw [carryOut, carryOut]
  congr 1
  rw [Tier1.runBranch, Tier1.runBranch]
  cases ht : verdict.action.type with
  | archiveReceipt => exact absurd ht h
  | _ => rfl

/-- Carrying out a receipt without its components is a wiring error. -/
theorem carryOut_reclassify_archive (d : Deployment) (message : NormalizedMessage) (ts : String)
    {verdict : RuleVerdict}
    (h : verdict.action.type = .archiveReceipt) :
    ∃ e, carryOut d.reclassifyDeps message ts verdict = Prog.raise e := by
  rw [carryOut, Tier1.runBranch, h]
  exact ⟨_, rfl⟩

/-- Carrying out a receipt with them starts with company and date, and the tags. -/
theorem carryOut_archive (message : NormalizedMessage) {config : ReceiptArchiveConfig}
    (hd : d.receiptArchive = some config) (ts : String) {verdict : RuleVerdict}
    (h : verdict.action.type = .archiveReceipt) :
    ∃ f : ReceiptExtraction → Proc (Option RuleVerdict × Option EscalationResult),
      carryOut d.deps message ts verdict = (do
      let extraction ← resolveReceipt config.components message (some ts)
      let _ ← call (.applyKeywords message (receiptKeywords extraction))
      f extraction) := by
  rw [carryOut, Tier1.runBranch, h]
  simp only [Deployment.deps, Deployment.tier1, hd, Option.map_some, archiveReceipt, bind_assoc]
  exact ⟨_, rfl⟩

/-- **The commands and the daemon part over the receipts, and nowhere else.** -/
theorem carryOut_same_iff (ts : String) (verdict : RuleVerdict) :
    SameOutcome message (env.eval (carryOut d.reclassifyDeps message ts verdict) w)
        (env.eval (carryOut d.deps message ts verdict) w) ↔
      ¬∃ config ∈ d.receiptArchive, verdict.action.type = .archiveReceipt ∧
        ∃ extraction, (env.eval (resolveReceipt config.components message (some ts)) w).1
          = .ok extraction := by
  by_cases ht : verdict.action.type = .archiveReceipt
  · cases hd : d.receiptArchive with
    | none =>
      have hdeps : d.reclassifyDeps = d.deps := by
        simp [Deployment.reclassifyDeps, Deployment.deps, Deployment.tier1, hd]
      rw [hdeps]
      simp [SameOutcome.refl]
    | some config =>
      obtain ⟨e, he⟩ := carryOut_reclassify_archive d message ts ht
      obtain ⟨f, hf⟩ := carryOut_archive message hd ts ht
      have hraise : env.eval (Prog.raise e : Proc (Option RuleVerdict × Option EscalationResult)) w
          = (.error e, w) := rfl
      rw [he, hf, hraise]
      have hsame := fun e' => same_resolving env message
        (resolveReceipt_resolving message config (some ts)) w e' e
      cases hresolve : env.eval (resolveReceipt config.components message (some ts)) w with
      | mk r w₁ =>
        rw [hresolve] at hsame
        cases r with
        | error e' =>
          rw [Env.eval_bind_error hresolve]
          refine ⟨fun _ => ?_, fun _ => (hsame e').symm⟩
          rintro ⟨_, hconfig, _, extraction, hextraction⟩
          obtain rfl := Option.some.inj hconfig
          rw [hresolve] at hextraction
          cases hextraction
        | ok extraction =>
          rw [Env.eval_bind_ok hresolve]
          refine ⟨fun h => ?_, fun h => absurd ⟨config, rfl, ht, extraction, by rw [hresolve]⟩ h⟩
          -- the tags are a call to the provider that the command has not made
          have hkeywords := env.providerCalls_call_bind
            (fun _ : (Op.applyKeywords message (receiptKeywords extraction)).Ret => f extraction) w₁
          have hcalls : w.providerCalls = _ := h.providerCalls
          have hw₁ : w₁.providerCalls = w.providerCalls := (hsame e).providerCalls
          rw [← hcalls, hw₁] at hkeywords
          have hle := hkeywords.length_le
          rw [List.length_append] at hle
          exact absurd hle (Nat.not_succ_le_self _)
  · rw [carryOut_reclassify ts ht]
    refine ⟨fun _ hex => ?_, fun _ => .refl _ _⟩
    obtain ⟨_, _, h, _⟩ := hex
    exact ht h

/-- A message is reclassified as the daemon handles it, or it is a receipt. -/
theorem reclassifyMessage_same_iff (env : Env) (d : Deployment) (rules : List Rule)
    (message : NormalizedMessage) (w : World) :
    SameOutcome message (env.eval (reclassifyMessage d.reclassifyDeps rules message) w)
        (env.eval (reclassifyMessage d.deps rules message) w) ↔
      ¬ArchivesReceipt env d rules message w := by
  rw [reclassifyMessage_decide, reclassifyMessage_decide, ArchivesReceipt]
  change SameOutcome message (env.eval (decideVerdict d.tier1 rules message >>= _) w)
    (env.eval (decideVerdict d.tier1 rules message >>= _) w) ↔ _
  cases heval : env.eval (decideVerdict d.tier1 rules message) w with
  | mk r w₁ =>
    cases r with
    | error e =>
      rw [Env.eval_bind_error heval, Env.eval_bind_error heval]
      exact ⟨fun _ ⟨_, _, _, h, _⟩ => (by cases h), fun _ => .refl _ _⟩
    | ok decided =>
      obtain ⟨ts, verdict⟩ := decided
      rw [Env.eval_bind_ok heval, Env.eval_bind_ok heval]
      refine (carryOut_same_iff ts verdict).trans
        (not_congr ⟨fun h => ⟨ts, verdict, w₁, rfl, h⟩, ?_⟩)
      rintro ⟨_, _, _, h, hfound⟩
      cases h
      exact hfound

end Parting

/-! ## Behind the handling -/

/-- What `_run_message_loop` does to a message, with the verdicts it gets. -/
def loopMessage (config : LoopConfig) (rules : List Rule) (message : NormalizedMessage) :
    Proc (Option RuleVerdict × Option EscalationResult) := do
  let result ← handleMessage config.deps rules message
  if result.2.isSome then do
    checkDailyBudgetAlert config.deps.escalation.tier2.tiering config.deps.tier1.ops
    pure result
  else pure result

/-- The loop throws the verdicts away. -/
theorem processOne_eq_loopMessage {config : LoopConfig} (hobserve : config.observe = false)
    (rules : List Rule) (message : NormalizedMessage) :
    processOne config rules message = loopMessage config rules message >>= fun _ => pure () := by
  rw [processOne_eq config hobserve, loopMessage, bind_assoc]
  refine bind_congr fun result => ?_
  cases result.2.isSome with
  | true => simp
  | false => simp

/-- The message was escalated, and the look at the budget behind it raises. -/
def AlertFails (env : Env) (config : LoopConfig) (rules : List Rule) (message : NormalizedMessage)
    (w : World) : Prop :=
  ∃ result w₁, env.eval (handleMessage config.deps rules message) w = (.ok result, w₁) ∧
    result.2.isSome = true ∧
    ∃ e, (env.eval (checkDailyBudgetAlert config.deps.escalation.tier2.tiering
      config.deps.tier1.ops) w₁).1 = .error e

section Behind

variable {env : Env} {d : Deployment} {config : LoopConfig} {rules : List Rule}
  {message : NormalizedMessage} {w : World}

/-- The calls of a look at the budget. -/
inductive LookingCall : Op → Prop where
  | now : LookingCall .now
  | newCorrelationId : LookingCall .newCorrelationId
  | getLlmUsage {date : String} : LookingCall (.getLlmUsage date)
  | notify {title body : String} {urgency : AlertUrgency} : LookingCall (.notify title body urgency)
  | budgetAlertDate : LookingCall .budgetAlertDate
  | setBudgetAlertDate {date : String} : LookingCall (.setBudgetAlertDate date)

theorem checkDailyBudgetAlert_looking (d : Deployment) (tiering : TieringConfig) :
    (checkDailyBudgetAlert tiering d.tier1.ops).Only LookingCall := by
  have hcall : ∀ {op : Op}, LookingCall op → (call op).Only LookingCall :=
    fun h => Prog.only_perform.2 h
  refine (hcall .now).bind fun ts => (hcall .budgetAlertDate).bind fun alerted => .ite trivial ?_
  refine (hcall .getLlmUsage).bind fun usage => .ite trivial ?_
  refine (hcall .setBudgetAlertDate).bind fun _ => (hcall .newCorrelationId).bind fun _ => ?_
  exact hcall (.notify)

/-- A look at the budget is no part of an outcome. -/
theorem same_looking (env : Env) (d : Deployment) (message : NormalizedMessage)
    (tiering : TieringConfig) (r : Except Exn (Option RuleVerdict × Option EscalationResult))
    (w : World) : SameOutcome message (r, w)
      (r, (env.eval (checkDailyBudgetAlert tiering d.tier1.ops) w).2) := by
  refine (checkDailyBudgetAlert_looking d tiering).eval_keeps
    (I := fun w' : World => SameOutcome message (r, w) (r, w')) ?_ (.refl _ _)
  rintro w₁ op hop ⟨hverdict, hcalls, hrow, haudit⟩
  refine ⟨hverdict, ?_, ?_, ?_⟩
  · rw [env.providerCalls_answer]
    cases hop <;> exact hcalls.trans (List.append_nil _).symm
  · cases hop <;> exact hrow
  · cases hop <;> exact haudit

/-- **Behind the handling the loop only adds a look at the budget**, and the outcome is another one
exactly if that raises. -/
theorem loopMessage_same_iff (env : Env) (d : Deployment) (accountId : Option String)
    (rules : List Rule) (message : NormalizedMessage) (w : World) :
    SameOutcome message (env.eval (handleMessage d.deps rules message) w)
        (env.eval (loopMessage (d.runDaemon false accountId) rules message) w) ↔
      ¬AlertFails env (d.runDaemon false accountId) rules message w := by
  have hloop : loopMessage (d.runDaemon false accountId) rules message = (do
      let result ← handleMessage d.deps rules message
      if result.2.isSome then do
        checkDailyBudgetAlert d.tiering d.tier1.ops
        pure result
      else pure result) := rfl
  rw [hloop, AlertFails]
  change _ ↔ ¬∃ result w₁, env.eval (handleMessage d.deps rules message) w = (.ok result, w₁) ∧
    result.2.isSome = true ∧ ∃ e, (env.eval (checkDailyBudgetAlert d.tiering d.tier1.ops) w₁).1
      = .error e
  cases heval : env.eval (handleMessage d.deps rules message) w with
  | mk r w₁ =>
    cases r with
    | error e =>
      rw [Env.eval_bind_error heval]
      exact ⟨fun _ ⟨_, _, h, _⟩ => (by cases h), fun _ => .refl _ _⟩
    | ok result =>
      rw [Env.eval_bind_ok heval]
      cases hescalated : result.2.isSome with
      | false =>
        refine ⟨fun _ ⟨_, _, h, hsome, _⟩ => ?_, fun _ => .refl _ _⟩
        cases h
        exact Bool.false_ne_true (hescalated.symm.trans hsome)
      | true =>
        rw [if_pos rfl]
        have hsame := fun r => same_looking env d message d.tiering r w₁
        cases hlook : env.eval (checkDailyBudgetAlert d.tiering d.tier1.ops) w₁ with
        | mk r w₂ =>
          rw [hlook] at hsame
          cases r with
          | ok u =>
            rw [Env.eval_bind_ok hlook]
            refine ⟨fun _ ⟨_, _, h, _, e, he⟩ => ?_, fun _ => hsame _⟩
            cases h
            rw [hlook] at he
            cases he
          | error e =>
            rw [Env.eval_bind_error hlook]
            refine ⟨fun h => absurd h.verdict (by simp [Except.toOption]), fun h => ?_⟩
            exact absurd ⟨result, w₁, rfl, hescalated, e, by rw [hlook]⟩ h

/-- A receipt is not escalated. -/
theorem not_escalated_of_archives (harchives : ArchivesReceipt env d rules message w)
    {result : Option RuleVerdict × Option EscalationResult}
    (h : (env.eval (reclassifyMessage d.deps rules message) w).1 = .ok result) :
    result.2 = none := by
  obtain ⟨ts, verdict, w₁, hdecide, config, hconfig, ht, -⟩ := harchives
  have hne : verdict.action.type ≠ .escalate := by
    rw [ht]
    simp
  rw [reclassifyMessage_decide, Env.eval_bind_ok (p := decideVerdict d.deps.tier1 rules message)
    hdecide] at h
  simp only [carryOut, if_neg hne] at h
  cases hrun : env.eval (Tier1.runBranch d.deps.tier1 message ts verdict) w₁ with
  | mk r w₂ =>
    cases r with
    | error e =>
      rw [Env.eval_bind_error hrun] at h
      cases h
    | ok u =>
      rw [Env.eval_bind_ok hrun] at h
      cases h
      rfl

end Behind

/-- What differs from what the daemon does up to its look at the budget, or in that. -/
theorem same_loop_iff (env : Env) (d : Deployment) (accountId : Option String) (rules : List Rule)
    {message : NormalizedMessage} {w : World} (hnew : w.db.hasProcessed message.messageId = false)
    {x : Outcome} (hx : SameOutcome message x
        (env.blind.eval (reclassifyMessage d.reclassifyDeps rules message) w)) :
    SameOutcome message x
        (env.blind.eval (loopMessage (d.runDaemon false accountId) rules message) w) ↔
      ¬ArchivesReceipt env.blind d rules message w ∧
        ¬AlertFails env.blind (d.runDaemon false accountId) rules message w := by
  have hdaemon := handleMessage_same env d.deps rules hnew
  have hiff : SameOutcome message x (env.blind.eval (handleMessage d.deps rules message) w) ↔
      ¬ArchivesReceipt env.blind d rules message w :=
    (hx.congr hdaemon).trans (reclassifyMessage_same_iff env.blind d rules message w)
  have hloop := loopMessage_same_iff env.blind d accountId rules message w
  have hescalated : AlertFails env.blind (d.runDaemon false accountId) rules message w →
      ¬ArchivesReceipt env.blind d rules message w := by
    rintro ⟨result, w₁, heval, hsome, -⟩ harchives
    have hverdict := hdaemon.verdict
    rw [show env.blind.eval (handleMessage d.deps rules message) w = (.ok result, w₁) from heval]
      at hverdict
    cases hr : (env.blind.eval (reclassifyMessage d.deps rules message) w).1 with
    | error e =>
      rw [hr] at hverdict
      cases hverdict
    | ok result' =>
      rw [hr] at hverdict
      cases hverdict
      rw [not_escalated_of_archives harchives hr] at hsome
      cases hsome
  constructor
  · intro h
    have hlooks : ¬AlertFails env.blind (d.runDaemon false accountId) rules message w :=
      fun hfails => hloop.1 ((hiff.2 (hescalated hfails)).symm.trans h) hfails
    exact ⟨hiff.1 (h.trans (hloop.2 hlooks).symm), hlooks⟩
  · rintro ⟨hreceipt, hlooks⟩
    exact (hiff.2 hreceipt).trans (hloop.2 hlooks)

/-- **The commands handle a message as the daemon's loop does**, unless it is a receipt to be
archived: once its company and date are found the daemon tags it, when the commands have long
raised; or the alert behind its escalation raises, which the commands do not send. -/
theorem commands_handle_alike_iff (env : Env) (d : Deployment) (accountId : Option String)
    (rules : List Rule) (message : NormalizedMessage) (w : World)
    (hnew : w.db.hasProcessed message.messageId = false) :
    processOne (d.runDaemon false accountId) rules message
        = loopMessage (d.runDaemon false accountId) rules message >>= (fun _ => pure ()) ∧
    (SameOutcome message (env.blind.eval (handleMessage d.backfillDeps rules message) w)
        (env.blind.eval (loopMessage (d.runDaemon false accountId) rules message) w) ↔
      ¬ArchivesReceipt env.blind d rules message w ∧
        ¬AlertFails env.blind (d.runDaemon false accountId) rules message w) ∧
    (SameOutcome message (env.blind.eval (reclassifyMessage d.reclassifyDeps rules message) w)
        (env.blind.eval (loopMessage (d.runDaemon false accountId) rules message) w) ↔
      ¬ArchivesReceipt env.blind d rules message w ∧
        ¬AlertFails env.blind (d.runDaemon false accountId) rules message w) :=
  ⟨processOne_eq_loopMessage rfl rules message,
    same_loop_iff env d accountId rules hnew (handleMessage_same env d.backfillDeps rules hnew),
    same_loop_iff env d accountId rules hnew (.refl _ _)⟩

/-- A deployment that archives receipts. -/
def archiving : Deployment :=
  { oneCall with receiptArchive := some { outputDir := PyPath.parse "/srv/receipts" } }

/-- A rule that takes every message for a receipt. -/
def receiptRule : Rule := always { type := .archiveReceipt }

/-- A day on which everything is filed, and the alerter does not work. -/
def Env.silenced : Env := fun _ op =>
  match op with
  | .getVerdict _ => .ok ⟨filingVerdict, ⟨10, 10⟩⟩
  | .notify _ _ _ => .error ⟨.other "SMTPServerDisconnected", "Connection unexpectedly closed"⟩
  | op => .ok (quietAnswer op)

/-- **Two messages that the commands handle otherwise**: a receipt that the daemon archives and they
raise on, and an escalation that uses up the day's budget, on which the daemon raises behind it. -/
theorem commands_lack_receipts :
    (¬SameOutcome letter
        (Env.quiet.blind.eval (handleMessage archiving.backfillDeps [receiptRule] letter)
          ⟨.empty, []⟩)
        (Env.quiet.blind.eval (loopMessage (archiving.runDaemon false none) [receiptRule] letter)
          ⟨.empty, []⟩) ∧
      ¬SameOutcome letter
        (Env.quiet.blind.eval (reclassifyMessage archiving.reclassifyDeps [receiptRule] letter)
          ⟨.empty, []⟩)
        (Env.quiet.blind.eval (loopMessage (archiving.runDaemon false none) [receiptRule] letter)
          ⟨.empty, []⟩)) ∧
    ¬SameOutcome letter
        (Env.silenced.blind.eval (handleMessage oneCall.backfillDeps [] letter) ⟨.empty, []⟩)
        (Env.silenced.blind.eval (loopMessage (oneCall.runDaemon false none) [] letter)
          ⟨.empty, []⟩) ∧
      ¬SameOutcome letter
        (Env.silenced.blind.eval (reclassifyMessage oneCall.reclassifyDeps [] letter) ⟨.empty, []⟩)
        (Env.silenced.blind.eval (loopMessage (oneCall.runDaemon false none) [] letter)
          ⟨.empty, []⟩) := by
  have hcalls : (Env.quiet.blind.eval (loopMessage (archiving.runDaemon false none) [receiptRule]
      letter) ⟨.empty, []⟩).2.providerCalls.length = 2 := rfl
  have hraises : (Env.silenced.blind.eval (loopMessage (oneCall.runDaemon false none) [] letter)
      ⟨.empty, []⟩).1.toOption.isSome = false := by decide +kernel
  refine ⟨⟨fun h => ?_, fun h => ?_⟩, fun h => ?_, fun h => ?_⟩
  · have hlength := congrArg List.length h.providerCalls
    rw [hcalls] at hlength
    cases hlength
  · have hlength := congrArg List.length h.providerCalls
    rw [hcalls] at hlength
    cases hlength
  · rw [← h.verdict] at hraises
    exact absurd hraises (by decide +kernel)
  · rw [← h.verdict] at hraises
    exact absurd hraises (by decide +kernel)

/-- On a quiet day both commands handle an escalated letter as the daemon does. -/
theorem commands_handle_alike_letter :
    SameOutcome letter
        (Env.quiet.blind.eval (handleMessage oneCall.backfillDeps [] letter) ⟨.empty, []⟩)
        (Env.quiet.blind.eval (loopMessage (oneCall.runDaemon false none) [] letter)
          ⟨.empty, []⟩) ∧
      SameOutcome letter
        (Env.quiet.blind.eval (reclassifyMessage oneCall.reclassifyDeps [] letter) ⟨.empty, []⟩)
        (Env.quiet.blind.eval (loopMessage (oneCall.runDaemon false none) [] letter)
          ⟨.empty, []⟩) := by
  obtain ⟨-, hbackfill, hreclassify⟩ :=
    commands_handle_alike_iff Env.quiet oneCall none [] letter ⟨.empty, []⟩ rfl
  have hreceipt : ¬ArchivesReceipt Env.quiet.blind oneCall [] letter ⟨.empty, []⟩ := by
    rintro ⟨_, _, _, _, config, hconfig, -⟩
    cases hconfig
  have hlooks : ¬AlertFails Env.quiet.blind (oneCall.runDaemon false none) [] letter
      ⟨.empty, []⟩ := by
    rintro ⟨result, w₁, heval, -, e, he⟩
    have hafter : (Env.quiet.blind.eval (handleMessage (oneCall.runDaemon false none).deps []
        letter) ⟨.empty, []⟩).2 = w₁ := by rw [heval]
    have hlook : (Env.quiet.blind.eval (checkDailyBudgetAlert oneCall.tiering oneCall.tier1.ops)
        (Env.quiet.blind.eval (handleMessage (oneCall.runDaemon false none).deps [] letter)
          ⟨.empty, []⟩).2).1.isOk = true := by decide +kernel
    rw [hafter] at hlook
    have hraised : (Env.quiet.blind.eval (checkDailyBudgetAlert oneCall.tiering oneCall.tier1.ops)
        w₁).1 = .error e := he
    rw [hraised] at hlook
    cases hlook
  exact ⟨hbackfill.2 ⟨hreceipt, hlooks⟩, hreclassify.2 ⟨hreceipt, hlooks⟩⟩

end Spork
