import Spork.Guarantees.Markup
import Spork.Guarantees.Tier1Table

/-!
# The Tier 2 decision table

What `process_tier2_message` is for, as a table: budget gone or not, the band, the urgency, the
action's type and whether there is a draft decide which effects happen, and the rest is one audit
row and one mark (`Tier2.Decides`).  The pipeline computes it in fifteen stages; the table says it
in a few lines (`actionEffects`, `alertEffects`, `draftEffects`).

The table is kept for every message, store, clock, configuration and verdict but two kinds
(`tier2_decision_table_iff`): the body may be one that the HTML parser refuses, and the tokens of
the day may be too many for a 64-bit integer, and are then no longer added exactly.
-/

set_option autoImplicit false

namespace Spork

open Effects

/-! ## The table -/

/-- The model's result is one that the rest of the pipeline accepts. -/
structure LLMResult.Welcome (result : LLMResult) (tiering : TieringConfig)
    (mailboxes : List String) : Prop where
  admissible : result.verdict.Admissible tiering.allowedCategories mailboxes
  executable : result.verdict.suggestedAction.Executable
  recordable : result.usage.Recordable

namespace Tier2

/-- The action is applied unless the band only alerts or there is nothing to do. -/
def actionEffects (message : NormalizedMessage) (verdict : Verdict) (band : ConfidenceBand) :
    List Op :=
  if band ≠ .alertOnly ∧ verdict.suggestedAction.type ≠ .ignore then
    [.apply message verdict.suggestedAction]
  else []

/-- The title of a band's alert. -/
def alertTitle (verdict : Verdict) : ConfidenceBand → String
  | .alertOnly => "Needs review: " ++ verdict.category
  | _ => "Action taken: " ++ verdict.category

/-- There is an alert unless the model is sure and nothing is urgent. -/
def alertEffects (message : NormalizedMessage) (verdict : Verdict) (band : ConfidenceBand) :
    List Op :=
  if band ≠ .autoact ∨ verdict.urgency = .high then
    [.notify (alertTitle verdict band) (Tier1.alertBody message) (alertUrgency verdict.urgency)]
  else []

/-- There is a draft if the verdict has one. -/
def draftEffects (message : NormalizedMessage) (verdict : Verdict) : List Op :=
  match verdict.draftReply with
  | none => []
  | some body => [.createDraft message body]

end Tier2

/-- The store after one more call of `date`, with exactly its tokens. -/
def StateDB.withLlmCall (db : StateDB) (date : String) (usage : LLMCallUsage) : StateDB :=
  db.countCall date ((db.getLlmUsage date).tokensIn + usage.tokensIn)
    ((db.getLlmUsage date).tokensOut + usage.tokensOut)

/-- What `record_llm_call` leaves. -/
def StateDB.withStoredCall (db : StateDB) (date : String) (usage : LLMCallUsage) : StateDB :=
  db.countCall date (StateDB.sqlAdd (db.getLlmUsage date).tokensIn usage.tokensIn)
    (StateDB.sqlAdd (db.getLlmUsage date).tokensOut usage.tokensOut)

theorem StateDB.recordLlmCall_recordable (db : StateDB) (date : String) {usage : LLMCallUsage}
    (h : usage.Recordable) :
    db.recordLlmCall date usage.tokensIn usage.tokensOut = .ok (db.withStoredCall date usage) := by
  rcases db.recordLlmCall_cases date usage.tokensIn usage.tokensOut with ⟨_, _, _, hn⟩ | ⟨hok, _⟩
  · exact absurd h hn
  · exact hok

/-- An addition loses nothing: both numbers and their sum are 64-bit integers, or it comes out right
in doubles. -/
def AddsExactly (a b : Int) : Prop :=
  (StateDB.fitsSqlite a = true ∧ StateDB.fitsSqlite b = true ∧ StateDB.fitsSqlite (a + b) = true) ∨
    StateDB.toDouble (StateDB.toDouble a + StateDB.toDouble b) = a + b

theorem sqlAdd_eq_iff (a b : Int) : StateDB.sqlAdd a b = a + b ↔ AddsExactly a b := by
  rw [StateDB.sqlAdd, AddsExactly, ← and_assoc, ← Bool.and_eq_true, ← Bool.and_eq_true]
  split
  · next h => exact iff_of_true rfl (.inl h)
  · next h => exact (or_iff_right h).symm

/-- The tokens of a call can be added to those of its day. -/
def LLMUsage.AddsExactly (usage : LLMUsage) (call : LLMCallUsage) : Prop :=
  Spork.AddsExactly usage.tokensIn call.tokensIn ∧
    Spork.AddsExactly usage.tokensOut call.tokensOut

theorem withStoredCall_eq {db : StateDB} {date : String} {usage : LLMCallUsage}
    (h : (db.getLlmUsage date).AddsExactly usage) :
    db.withStoredCall date usage = db.withLlmCall date usage := by
  rw [StateDB.withStoredCall, StateDB.withLlmCall, (sqlAdd_eq_iff _ _).2 h.1,
    (sqlAdd_eq_iff _ _).2 h.2]

/-- Only what can be added is added. -/
theorem addsExactly_of_stored {db : StateDB} {date : String} {usage : LLMCallUsage}
    (h : (db.withStoredCall date usage).llmUsage = (db.withLlmCall date usage).llmUsage) :
    (db.getLlmUsage date).AddsExactly usage := by
  have hrow := congrFun h date
  simp only [StateDB.withStoredCall, StateDB.withLlmCall, StateDB.countCall,
    Function.update_self, Option.some.injEq, LLMUsage.mk.injEq] at hrow
  exact ⟨(sqlAdd_eq_iff _ _).1 hrow.2.2.1, (sqlAdd_eq_iff _ _).1 hrow.2.2.2⟩

/-- **The table**, for a run at `ts` in which the model's answer is `result`.  If the day's budget
is gone there is one critical alert and no other effect, one audit row and one mark, and no
verdict.  Otherwise the model is asked once and its call recorded, the effects are those of the
table, and there is one audit row and one mark. -/
def Tier2.Decides (d : Deployment) (input : Tier2Input) (env : Env) (w : World) (ts : String)
    (result : LLMResult) : Prop :=
  ∃ w' es, w'.trace = w.trace ++ es ∧
    if d.tiering.dailyCallBudget ≤ (w.db.getLlmUsage (dateOf ts)).calls then
      env.eval (processTier2Message d.tier2 input) w = (.ok none, w') ∧
        effects es = [.notify "Tier 2 skipped: daily budget exhausted"
          (Tier1.alertBody input.message) .critical] ∧
        w'.db = (w.db.writeAuditEntry ts input.message.messageId "tier2_budget_exhausted"
          none).markProcessed input.message.messageId
            (Tier2.processedRow input.message ts none none)
    else
      ∃ request json, ∃ band, band = bandOf result.verdict.confidence
            d.tiering.alertThreshold d.tiering.autoactThreshold ∧
        (⟨.getVerdict request, .ok result⟩ : Event) ∈ es ∧
        (⟨.modelDumpJson result.verdict, .ok json⟩ : Event) ∈ es ∧
        env.eval (processTier2Message d.tier2 input) w = (.ok (some result.verdict), w') ∧
        effects es = .getVerdict request ::
          (Tier2.actionEffects input.message result.verdict band ++
            Tier2.alertEffects input.message result.verdict band ++
            Tier2.draftEffects input.message result.verdict) ∧
        w'.db = ((w.db.withLlmCall (dateOf ts) result.usage).writeAuditEntry ts
          input.message.messageId (Tier2.bandEvent band)
          (some (Tier2.bandDetail result.verdict band))).markProcessed input.message.messageId
            (Tier2.processedRow input.message ts (some json)
              (some result.verdict.suggestedAction.type))

/-! ## What each part does -/

section Parts

open Tier2

variable {env : Env} {d : Deployment} (message : NormalizedMessage) (w : World)

theorem perform_does (hnever : env.NeverRaises) (verdict : Verdict)
    (hexec : verdict.suggestedAction.Executable) (band : ConfidenceBand) :
    ∃ w' es, env.Does (perform d.tier2 message verdict band) w () w' es ∧ w'.db = w.db ∧
      effects es = actionEffects message verdict band ++ alertEffects message verdict band := by
  have hact : ∀ (c : Prop) [Decidable c] t b u, ∃ w' es, env.Does (do
        d.tier2.executor.execute message verdict.suggestedAction
        if c then d.tier2.ops.alert t b u else pure ()) w () w' es ∧ w'.db = w.db ∧
      effects es = (if verdict.suggestedAction.type = .ignore then []
        else [.apply message verdict.suggestedAction]) ++ if c then [.notify t b u] else [] := by
    intro c _ t b u
    obtain ⟨w₁, es, hexecute, hdb, hes⟩ :=
      execute_does message w hnever verdict.suggestedAction hexec
        verdict.terminal
    by_cases hc : c
    · obtain ⟨w₂, fs, halert, hdb', hfs⟩ := alert_does w₁ hnever t b u
      refine ⟨w₂, es ++ fs, hexecute.bind (by rw [if_pos hc]; exact halert), hdb'.trans hdb, ?_⟩
      rw [effects_append, hes, hfs, if_pos hc]
    · refine ⟨w₁, es ++ [], hexecute.bind (by rw [if_neg hc]; exact Env.does_pure ()), hdb, ?_⟩
      rw [effects_append, hes, if_neg hc]
      rfl
  cases band with
  | alertOnly => exact alert_does w hnever _ _ _
  | autoact =>
    obtain ⟨w', es, hdoes, hdb, hes⟩ := hact (alerts verdict .autoact = true)
      ("Action taken: " ++ verdict.category) (Tier1.alertBody message)
      (alertUrgency verdict.urgency)
    refine ⟨w', es, hdoes, hdb, hes.trans ?_⟩
    simp [actionEffects, alertEffects, alerts, alertTitle]
  | autoactAlert =>
    obtain ⟨w', es, hdoes, hdb, hes⟩ := hact (alerts verdict .autoactAlert = true)
      ("Action taken: " ++ verdict.category) (Tier1.alertBody message)
      (alertUrgency verdict.urgency)
    refine ⟨w', es, hdoes, hdb, hes.trans ?_⟩
    simp [actionEffects, alertEffects, alerts, alertTitle]

theorem draft_does (hnever : env.NeverRaises) (verdict : Verdict) :
    ∃ w' es, env.Does (draft d.tier2 message verdict) w () w' es ∧ w'.db = w.db ∧
      effects es = draftEffects message verdict := by
  rw [draft, draftEffects]
  cases verdict.draftReply with
  | none => exact ⟨_, _, Env.does_pure (), rfl, rfl⟩
  | some body =>
    obtain ⟨_, h⟩ := hnever w (.createDraft message body) rfl
    exact ⟨_, _, Env.does_external rfl h, rfl, rfl⟩

/-- From an accepted verdict on: the effects of the table, one audit row, one mark. -/
theorem settle_does (hnever : env.NeverRaises) (ts : String) (verdict : Verdict)
    (hexec : verdict.suggestedAction.Executable) (band : ConfidenceBand) :
    ∃ w' es json, env.Does (settle d.tier2 message ts verdict band) w () w' es ∧
      (⟨.modelDumpJson verdict, .ok json⟩ : Event) ∈ es ∧
      w'.db = (w.db.writeAuditEntry ts message.messageId (bandEvent band)
        (some (bandDetail verdict band))).markProcessed message.messageId
          (processedRow message ts (some json) (some verdict.suggestedAction.type)) ∧
      effects es = actionEffects message verdict band ++ alertEffects message verdict band ++
        draftEffects message verdict := by
  obtain ⟨w₁, es₁, hperform, hdb₁, hes₁⟩ := perform_does (d := d) message w
    hnever verdict hexec band
  obtain ⟨w₂, es₂, hdraft, hdb₂, hes₂⟩ := draft_does (d := d) message w₁
    hnever verdict
  obtain ⟨json, hjson⟩ := hnever (w₂.record (.writeAuditEntry ts message.messageId (bandEvent band)
    (some (bandDetail verdict band))) (.ok ()) (w₂.db.writeAuditEntry ts message.messageId
      (bandEvent band) (some (bandDetail verdict band)))) (.modelDumpJson verdict) rfl
  refine ⟨_, _, json, hperform.bind (hdraft.bind ((Env.does_writeAuditEntry _ _ _ _).bind
    ((Env.does_external rfl hjson).bind (Env.does_markProcessed _ _)))), ?_, ?_, ?_⟩
  · simp
  · simp [hdb₁, hdb₂]
  · rw [effects_append, effects_append, hes₁, hes₂, ← List.append_assoc]
    exact List.append_nil _

theorem recordLlmCall_does (date : String) {usage : LLMCallUsage} (h : usage.Recordable) :
    env.Does (call (.recordLlmCall date usage.tokensIn usage.tokensOut)) w ()
      (w.record (.recordLlmCall date usage.tokensIn usage.tokensOut) (.ok ())
        (w.db.withStoredCall date usage))
      [⟨.recordLlmCall date usage.tokensIn usage.tokensOut, .ok ()⟩] :=
  Env.does_store rfl (by rw [StateDB.recordLlmCall_recordable _ _ h]; rfl)

/-- Asking the model about a body that the parser accepts is one call, and one more in the day's
usage. -/
theorem askModel_does (hnever : env.NeverRaises) {html5 : Html5}
    (hparses : env.Parses (htmlParser html5)) {result : LLMResult}
    (hmodel : ∀ w request, env w (.getVerdict request) = .ok result)
    (hrecordable : result.usage.Recordable) (input : Tier2Input)
    (haccepted : ∀ piece ∈ HtmlParser.pieces input.message.bodyText.toList, piece.Accepted)
    (ts : String) :
    ∃ w' es request, env.Does (askModel d.tier2 input ts) w result.verdict w' es ∧
      (⟨.getVerdict request, .ok result⟩ : Event) ∈ es ∧
      w'.db = w.db.withStoredCall (dateOf ts) result.usage ∧
      effects es = [.getVerdict request] := by
  obtain ⟨context, hcontext⟩ := hnever w (.getContext input.message) rfl
  have hctx := Env.does_external (w := w) rfl hcontext
  obtain ⟨chunks, hfeed⟩ := (feed_ok_iff_accepted html5 _).2 haccepted
  have hstripped : env (w.record (.getContext input.message) (.ok context) w.db)
      (.feedHtml input.message.bodyText) = .ok (String.join chunks) := by
    rw [hparses, stripHtml, hfeed]
    rfl
  have hclean : env.Does (Tier2.cleanBody input.message.bodyText d.tier2.tiering.maxBodyChars)
      (w.record (.getContext input.message) (.ok context) w.db)
      (cleanStripped (String.join chunks) d.tiering.maxBodyChars) _ _ :=
    (Env.does_external rfl hstripped).map
  have hask := Env.does_external
    (w := (w.record (.getContext input.message) (.ok context) w.db).record
      (.feedHtml input.message.bodyText) (.ok (String.join chunks)) w.db) rfl
    (hmodel _ (verdictRequest input.toMeta context
      (cleanStripped (String.join chunks) d.tiering.maxBodyChars) d.tiering.allowedCategories))
  exact ⟨_, _, _, hctx.bind (hclean.bind (hask.bind
    (recordLlmCall_does _ (dateOf ts) hrecordable).map)), by simp, rfl, rfl⟩

/-- A body that the parser refuses is not asked about. -/
theorem askModel_refused (hnever : env.NeverRaises) {html5 : Html5}
    (hparses : env.Parses (htmlParser html5)) (input : Tier2Input)
    (hrefused : ¬∀ piece ∈ HtmlParser.pieces input.message.bodyText.toList, piece.Accepted)
    (ts : String) : ∃ e w', env.eval (askModel d.tier2 input ts) w = (.error e, w') := by
  obtain ⟨context, hcontext⟩ := hnever w (.getContext input.message) rfl
  have hctx := Env.does_external (w := w) rfl hcontext
  have hfeed : ∃ e, (htmlParser html5).feed input.message.bodyText = .error e := by
    rw [← feed_ok_iff_accepted html5] at hrefused
    cases hfed : (htmlParser html5).feed input.message.bodyText with
    | ok chunks => exact absurd ⟨chunks, hfed⟩ hrefused
    | error e => exact ⟨e, rfl⟩
  obtain ⟨e, he⟩ := hfeed
  have hclean : env.eval (Tier2.cleanBody input.message.bodyText d.tier2.tiering.maxBodyChars)
      (w.record (.getContext input.message) (.ok context) w.db) = (.error e,
        (w.record (.getContext input.message) (.ok context) w.db).record
          (.feedHtml input.message.bodyText) (.error e) w.db) := by
    rw [hparses.cleanBody_eval, Spork.cleanBody, stripHtml, he]
    rfl
  exact ⟨e, _, (Env.eval_bind_ok hctx.eval).trans (Env.eval_bind_error hclean)⟩

/-- The budget is gone: one alert, one audit row, one mark. -/
theorem skipModel_does (hnever : env.NeverRaises) (ts : String) :
    ∃ w' es, env.Does (skipModel d.tier2 message ts) w () w' es ∧
      w'.db = (w.db.writeAuditEntry ts message.messageId "tier2_budget_exhausted"
        none).markProcessed message.messageId (processedRow message ts none none) ∧
      effects es = [.notify "Tier 2 skipped: daily budget exhausted" (Tier1.alertBody message)
        .critical] := by
  obtain ⟨w₁, es, halert, hdb, hes⟩ := alert_does w hnever
    "Tier 2 skipped: daily budget exhausted" (Tier1.alertBody message) .critical
  refine ⟨_, _, halert.bind ((Env.does_writeAuditEntry _ _ _ _).bind
    (Env.does_markProcessed _ _)), ?_, ?_⟩
  · simp [hdb]
  · rw [effects_append, hes]
    rfl

/-- What follows the start of a run: one of the two branches. -/
def Tier2.afterGate (d : Deployment) (input : Tier2Input) (ts : String) (usage : LLMUsage) :
    Proc (Option Verdict) :=
  if hasBudgetRemaining usage d.tiering.dailyCallBudget then do
    let verdict ← askModel d.tier2 input ts
    let (validated, band) ← ofExcept (accept d.tier2 input verdict)
    settle d.tier2 input.message ts validated band
    pure (some validated)
  else do
    skipModel d.tier2 input.message ts
    pure none

/-- The start of a run: the clock, an id and the day's usage. -/
theorem processTier2Message_starts (hnever : env.NeverRaises) (input : Tier2Input) {ts : String}
    (hts : env w .now = .ok ts) :
    ∃ w₀ es₀, w₀.db = w.db ∧ w₀.trace = w.trace ++ es₀ ∧ effects es₀ = [] ∧
      env.eval (processTier2Message d.tier2 input) w
        = env.eval (Tier2.afterGate d input ts (w.db.getLlmUsage (dateOf ts))) w₀ := by
  have hnow := Env.does_external (w := w) rfl hts
  obtain ⟨id, hid⟩ := hnever (w.record .now (.ok ts) w.db) .newCorrelationId rfl
  have hcorrelation := Env.does_external rfl hid
  have husage : env.Does _ ((w.record .now (.ok ts) w.db).record .newCorrelationId (.ok id) w.db)
      _ _ _ := Env.does_getLlmUsage (dateOf ts)
  refine ⟨((w.record .now (.ok ts) w.db).record .newCorrelationId (.ok id) w.db).record
    (.getLlmUsage (dateOf ts)) (.ok (w.db.getLlmUsage (dateOf ts))) w.db,
      [⟨.now, .ok ts⟩, ⟨.newCorrelationId, .ok id⟩,
    ⟨.getLlmUsage (dateOf ts), .ok (w.db.getLlmUsage (dateOf ts))⟩], rfl, by simp, rfl, ?_⟩
  rw [processTier2Message_eq]
  exact (Env.eval_bind_ok hnow.eval).trans ((Env.eval_bind_ok hcorrelation.eval).trans
    (Env.eval_bind_ok husage.eval))

end Parts

/-! ## The pipeline is the table -/

/-- The gates let a verdict through that answers with a category and a mailbox on offer. -/
theorem accept_of_admissible {d : Deployment} {input : Tier2Input} {verdict : Verdict}
    (hadm : verdict.Admissible d.tiering.allowedCategories input.availableMailboxes)
    (hle : d.tiering.alertThreshold.le d.tiering.autoactThreshold = true) :
    Tier2.accept d.tier2 input verdict = .ok (verdict,
      bandOf verdict.confidence d.tiering.alertThreshold d.tiering.autoactThreshold) := by
  rcases Tier2.accept_cases d.tier2 input verdict with ⟨hok, _⟩ | ⟨_, _, _, hn⟩ | ⟨_, _, _, hn⟩
  · exact hok
  · exact absurd hadm hn
  · exact absurd (hle.symm.trans hn) (by simp)

section Decides

variable {d : Deployment} {input : Tier2Input} {env : Env} {html5 : Html5} {w : World} {ts : String}
  {result : LLMResult}

/-- The model's accepted answer is settled. -/
theorem settled_does (hnever : env.NeverRaises)
    (hwelcome : result.Welcome d.tiering input.availableMailboxes)
    (hle : d.tiering.alertThreshold.le d.tiering.autoactThreshold = true) (w : World) :
    ∃ w' es json, ∃ band, band = bandOf result.verdict.confidence d.tiering.alertThreshold
        d.tiering.autoactThreshold ∧
      env.Does (ofExcept (Tier2.accept d.tier2 input result.verdict) >>= fun p =>
        Tier2.settle d.tier2 input.message ts p.1 p.2 >>= fun _ => pure (some p.1)) w
        (some result.verdict) w' es ∧
      (⟨.modelDumpJson result.verdict, .ok json⟩ : Event) ∈ es ∧
      w'.db = (w.db.writeAuditEntry ts input.message.messageId (Tier2.bandEvent band)
        (some (Tier2.bandDetail result.verdict band))).markProcessed input.message.messageId
          (Tier2.processedRow input.message ts (some json)
            (some result.verdict.suggestedAction.type)) ∧
      effects es = Tier2.actionEffects input.message result.verdict band ++
        Tier2.alertEffects input.message result.verdict band ++
        Tier2.draftEffects input.message result.verdict := by
  obtain ⟨w', es, json, hsettle, hdumped, hdb, hes⟩ := settle_does (d := d) input.message w
    hnever ts result.verdict hwelcome.executable
    (bandOf result.verdict.confidence d.tiering.alertThreshold d.tiering.autoactThreshold)
  refine ⟨w', es, json, _, rfl, ?_, hdumped, hdb, hes⟩
  rw [accept_of_admissible hwelcome.admissible hle]
  exact hsettle.map

/-- What the gate lets through. -/
theorem afterGate_of_left
    (hleft : ¬d.tiering.dailyCallBudget ≤ (w.db.getLlmUsage (dateOf ts)).calls) :
    Tier2.afterGate d input ts (w.db.getLlmUsage (dateOf ts)) = (do
      let verdict ← Tier2.askModel d.tier2 input ts
      let (validated, band) ← ofExcept (Tier2.accept d.tier2 input verdict)
      Tier2.settle d.tier2 input.message ts validated band
      pure (some validated)) :=
  if_pos (by simpa [hasBudgetRemaining] using hleft)

/-- When the budget is gone, the table is kept. -/
theorem decides_of_gone (hnever : env.NeverRaises) (hts : env w .now = .ok ts)
    (hgone : d.tiering.dailyCallBudget ≤ (w.db.getLlmUsage (dateOf ts)).calls) :
    Tier2.Decides d input env w ts result := by
  obtain ⟨w₀, es₀, hdb₀, htrace₀, hes₀, hstart⟩ :=
    processTier2Message_starts (d := d) w hnever input hts
  obtain ⟨w', es, hskip, hdb, hes⟩ := skipModel_does (d := d) input.message w₀ hnever ts
  have hskips : Tier2.afterGate d input ts (w.db.getLlmUsage (dateOf ts)) = (do
      Tier2.skipModel d.tier2 input.message ts
      pure none) := if_neg (by simpa [hasBudgetRemaining] using hgone)
  refine ⟨w', es₀ ++ es, by rw [hskip.trace, htrace₀, List.append_assoc], ?_⟩
  rw [if_pos hgone, hstart, hskips]
  exact ⟨hskip.map.eval, by rw [effects_append, hes₀, hes, List.nil_append], by rw [hdb, hdb₀]⟩

/-- When there is a call left and the parser accepts the body, the run is that of the table but for
the sums of the tokens. -/
theorem decides_but_for_sums (hnever : env.NeverRaises) (hparses : env.Parses (htmlParser html5))
    (hmodel : ∀ w request, env w (.getVerdict request) = .ok result)
    (hwelcome : result.Welcome d.tiering input.availableMailboxes)
    (hle : d.tiering.alertThreshold.le d.tiering.autoactThreshold = true)
    (hts : env w .now = .ok ts)
    (hleft : ¬d.tiering.dailyCallBudget ≤ (w.db.getLlmUsage (dateOf ts)).calls)
    (haccepted : ∀ piece ∈ HtmlParser.pieces input.message.bodyText.toList, piece.Accepted) :
    ∃ w' es request json, ∃ band, band = bandOf result.verdict.confidence
        d.tiering.alertThreshold d.tiering.autoactThreshold ∧ w'.trace = w.trace ++ es ∧
      (⟨.getVerdict request, .ok result⟩ : Event) ∈ es ∧
      (⟨.modelDumpJson result.verdict, .ok json⟩ : Event) ∈ es ∧
      env.eval (processTier2Message d.tier2 input) w = (.ok (some result.verdict), w') ∧
      effects es = .getVerdict request ::
        (Tier2.actionEffects input.message result.verdict band ++
          Tier2.alertEffects input.message result.verdict band ++
          Tier2.draftEffects input.message result.verdict) ∧
      w'.db = ((w.db.withStoredCall (dateOf ts) result.usage).writeAuditEntry ts
        input.message.messageId (Tier2.bandEvent band)
        (some (Tier2.bandDetail result.verdict band))).markProcessed input.message.messageId
          (Tier2.processedRow input.message ts (some json)
            (some result.verdict.suggestedAction.type)) := by
  obtain ⟨w₀, es₀, hdb₀, htrace₀, hes₀, hstart⟩ :=
    processTier2Message_starts (d := d) w hnever input hts
  obtain ⟨w₁, es₁, request, hask, hasked, hdb₁, hes₁⟩ :=
    askModel_does (d := d) w₀ hnever hparses hmodel hwelcome.recordable input haccepted ts
  obtain ⟨w', es₂, json, band, hband, hsettle, hdumped, hdb₂, hes₂⟩ :=
    settled_does hnever hwelcome hle w₁
  have hdoes : env.Does (do
      let verdict ← Tier2.askModel d.tier2 input ts
      let (validated, band) ← ofExcept (Tier2.accept d.tier2 input verdict)
      Tier2.settle d.tier2 input.message ts validated band
      pure (some validated)) w₀ (some result.verdict) w' (es₁ ++ es₂) := hask.bind hsettle
  refine ⟨w', es₀ ++ (es₁ ++ es₂), request, json, band, hband, ?_, ?_, ?_, ?_, ?_, ?_⟩
  · rw [hdoes.trace, htrace₀, List.append_assoc]
  · simp [hasked]
  · simp [hdumped]
  · rw [hstart, afterGate_of_left hleft]
    exact hdoes.eval
  · rw [effects_append, effects_append, hes₀, hes₁, hes₂]
    rfl
  · rw [hdb₂, hdb₁, hdb₀]

/-- When there is a call left and the parser refuses the body, nothing is returned. -/
theorem raises_of_refused (hnever : env.NeverRaises) (hparses : env.Parses (htmlParser html5))
    (hts : env w .now = .ok ts)
    (hleft : ¬d.tiering.dailyCallBudget ≤ (w.db.getLlmUsage (dateOf ts)).calls)
    (hrefused : ¬∀ piece ∈ HtmlParser.pieces input.message.bodyText.toList, piece.Accepted) :
    ∃ e, (env.eval (processTier2Message d.tier2 input) w).1 = .error e := by
  obtain ⟨w₀, es₀, -, -, -, hstart⟩ := processTier2Message_starts (d := d) w hnever input hts
  obtain ⟨e, w', hask⟩ := askModel_refused (d := d) w₀ hnever hparses input hrefused ts
  refine ⟨e, ?_⟩
  rw [hstart, afterGate_of_left hleft, Env.eval_bind_error hask]

/-- A table that is kept names exactly the sums that the code stores. -/
theorem Tier2.Decides.sums (h : Tier2.Decides d input env w ts result)
    (hleft : ¬d.tiering.dailyCallBudget ≤ (w.db.getLlmUsage (dateOf ts)).calls) :
    (env.eval (processTier2Message d.tier2 input) w).1 = .ok (some result.verdict) ∧
      (env.eval (processTier2Message d.tier2 input) w).2.db.llmUsage
        = (w.db.withLlmCall (dateOf ts) result.usage).llmUsage := by
  obtain ⟨w', es, -, h⟩ := h
  rw [if_neg hleft] at h
  obtain ⟨request, json, band, -, -, -, heval, -, hdb⟩ := h
  rw [heval]
  refine ⟨rfl, ?_⟩
  show w'.db.llmUsage = _
  rw [hdb]
  rfl

/-- **When the decision table is kept**: nothing raises, the thresholds are in order and the model's
result is welcome; and the budget is gone, or the parser accepts the body and the tokens of the call
can be added to those of the day. -/
theorem tier2_decision_table_iff (d : Deployment) (input : Tier2Input) (env : Env) (html5 : Html5)
    (w : World) (ts : String) (result : LLMResult) (hnever : env.NeverRaises)
    (hparses : env.Parses (htmlParser html5)) (hts : env w .now = .ok ts)
    (hmodel : ∀ w request, env w (.getVerdict request) = .ok result)
    (hwelcome : result.Welcome d.tiering input.availableMailboxes)
    (hle : d.tiering.alertThreshold.le d.tiering.autoactThreshold = true) :
    Tier2.Decides d input env w ts result ↔
      d.tiering.dailyCallBudget ≤ (w.db.getLlmUsage (dateOf ts)).calls ∨
        (∀ piece ∈ HtmlParser.pieces input.message.bodyText.toList, piece.Accepted) ∧
          (w.db.getLlmUsage (dateOf ts)).AddsExactly result.usage := by
  by_cases hgone : d.tiering.dailyCallBudget ≤ (w.db.getLlmUsage (dateOf ts)).calls
  · exact iff_of_true (decides_of_gone hnever hts hgone) (.inl hgone)
  rw [or_iff_right hgone]
  by_cases haccepted : ∀ piece ∈ HtmlParser.pieces input.message.bodyText.toList, piece.Accepted
  · obtain ⟨w', es, request, json, band, hband, htrace, hasked, hdumped, heval, hes, hdb⟩ :=
      decides_but_for_sums hnever hparses hmodel hwelcome hle hts hgone haccepted
    refine ⟨fun h => ⟨haccepted, ?_⟩, fun h => ⟨w', es, htrace, ?_⟩⟩
    · have hsums := (h.sums hgone).2
      rw [heval, hdb] at hsums
      exact addsExactly_of_stored hsums
    · rw [if_neg hgone, ← withStoredCall_eq h.2]
      exact ⟨request, json, band, hband, hasked, hdumped, heval, hes, hdb⟩
  · obtain ⟨e, he⟩ := raises_of_refused (d := d) hnever hparses hts hgone haccepted
    refine iff_of_false (fun h => ?_) fun h => haccepted h.1
    exact nomatch he.symm.trans (h.sums hgone).1

end Decides

/-! ### A quiet day at the desk -/

/-- A quiet day, with the HTML parser that there is. -/
def quietDesk : Env := fun w op =>
  match op with
  | .feedHtml text => stripHtml (htmlParser commonCharrefs) text
  | op => Env.quiet w op

theorem quietDesk_neverRaises : quietDesk.NeverRaises := by
  intro w op h
  cases op <;> first | exact ⟨_, rfl⟩ | cases h

/-- What is resolved about a message on a quiet day. -/
def quietInput (message : NormalizedMessage) : Tier2Input := ⟨message, [], none, false, ["Inbox"]⟩

/-- What the model says on a quiet day. -/
def quietResult : LLMResult := ⟨quietVerdict, ⟨10, 10⟩⟩

/-- A day that already has as many tokens as a 64-bit integer can count. -/
def fullDay : StateDB := StateDB.empty.countCall "2026-01-05" (2 ^ 63 - 1) 0

/-- A deployment with a budget of two calls. -/
def twoQuietCalls : Deployment where
  tiering := { oneCall.tiering with dailyCallBudget := 2 }

/-- **Two runs that are not in the table though nothing raises**: a body with an unknown marked
section, and ten more tokens than the day's row has room for. -/
theorem tier2_table_missed :
    quietDesk.NeverRaises ∧ quietDesk.Parses (htmlParser commonCharrefs) ∧
    ¬Tier2.Decides twoQuietCalls (quietInput { letter with bodyText := "<![foo]>" }) quietDesk
      ⟨.empty, []⟩ "2026-01-05T09:00:00+00:00" quietResult ∧
    ¬Tier2.Decides twoQuietCalls (quietInput letter) quietDesk ⟨fullDay, []⟩
      "2026-01-05T09:00:00+00:00" quietResult := by
  refine ⟨quietDesk_neverRaises, fun _ _ => rfl, fun h => ?_, fun h => ?_⟩
  · have hraises : (quietDesk.eval (processTier2Message twoQuietCalls.tier2
        (quietInput { letter with bodyText := "<![foo]>" })) ⟨.empty, []⟩).1.isOk = false := by
      decide +kernel
    rw [(h.sums (by decide +kernel)).1] at hraises
    cases hraises
  · have hrow := congrFun (h.sums (by decide +kernel)).2 "2026-01-05"
    exact absurd hrow (by decide +kernel)

/-- On a quiet day with a call left, `letter` goes through the lower half of the table. -/
theorem tier2_decision_table_iff_quiet :
    Tier2.Decides oneCall (quietInput letter) quietDesk ⟨.empty, []⟩ "2026-01-05T09:00:00+00:00"
      quietResult :=
  (tier2_decision_table_iff oneCall (quietInput letter) quietDesk commonCharrefs ⟨.empty, []⟩
    "2026-01-05T09:00:00+00:00" quietResult quietDesk_neverRaises (fun _ _ => rfl) rfl
    (fun _ _ => rfl) ⟨by decide +kernel, by decide +kernel, by decide +kernel⟩
    (by decide +kernel)).2 (.inr
      ⟨(feed_ok_iff_accepted commonCharrefs "Hello").1 ⟨["Hello"], by decide +kernel⟩,
      .inl (by decide +kernel), .inl (by decide +kernel)⟩)

end Spork
