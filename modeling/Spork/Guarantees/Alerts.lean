import Spork.Effects.Retry
import Spork.Guarantees.Tier2Table

/-!
# What a lost alert does to triage

An alert is fired between the mutation of a message and its mark, and `PipelineObserver.alert` lets
the delivery error through.  A message whose alert is lost is therefore handled again, as if nothing
had been done to it.

Two handlings of one message are compared here.  Everything but the alerter answers them alike
(`Env.Steady`): the model by the number of calls so far, the others by what they are asked, the
clock within one day.  `Surroundings.turn` is what one attempt comes to, read off the answers of the
parser and the model and the configuration alone, and `handleMessage_ends` is that an attempt of the
code is such a turn.
Whether lost alerts show is then a question about turns (`Turn.harmless_iff`).
-/

set_option autoImplicit false

namespace Spork

open Effects Machine

/-! ## What the handlings have in common -/

/-- What the collaborators say about one message, the same to every attempt at it. -/
structure Surroundings where
  /-- A reading of the clock. -/
  clock : String
  classification : ClassificationResult
  thread : ThreadContext
  mailboxes : List String
  context : ContextResult
  /-- What `html.parser` makes of the body: its text, or an exception. -/
  stripped : Except Exn String
  /-- How the model answers its calls, first to last. -/
  model : Nat → VerdictRequest → Except Exn LLMResult

/-- The calendar date. -/
def Surroundings.date (s : Surroundings) : String := dateOf s.clock

/-- A call of the model client. -/
def Op.isModelCall : Op → Bool
  | .getVerdict _ => true
  | _ => false

/-- A call that changes the mailbox on behalf of a verdict. -/
def Op.isMutation : Op → Bool
  | .apply _ _ | .createDraft _ _ => true
  | _ => false

/-- How often the model has been asked. -/
def World.modelCalls (w : World) : Nat := w.trace.countP fun e => e.op.isModelCall

/-- The mutations so far, in order. -/
def World.mutations (w : World) : List Op := (w.trace.map Event.op).filter Op.isMutation

/-- Every collaborator but the alerter works, and says what it says in `s`. -/
structure Env.Steady (env : Env) (s : Surroundings) (message : NormalizedMessage) : Prop where
  lawful : env.Lawful
  now : ∀ w, ∃ ts, env w .now = .ok ts ∧ dateOf ts = s.date
  newCorrelationId : ∀ w, ∃ id, env w .newCorrelationId = .ok id
  classify : ∀ w, env w (.classify message) = .ok s.classification
  getThreadContext : ∀ w, env w (.getThreadContext message) = .ok s.thread
  listMailboxes : ∀ w, env w .listMailboxes = .ok s.mailboxes
  getContext : ∀ w, env w (.getContext message) = .ok s.context
  feedHtml : ∀ w, env w (.feedHtml message.bodyText) = s.stripped
  getVerdict : ∀ w request, env w (.getVerdict request) = s.model w.modelCalls request
  modelDumpJson : ∀ w verdict, ∃ json, env w (.modelDumpJson verdict) = .ok json
  apply : ∀ w action, env w (.apply message action) = .ok ()
  createDraft : ∀ w body, env w (.createDraft message body) = .ok ()

/-- Every alert is delivered. -/
def Env.Delivers (env : Env) : Prop :=
  ∀ w title body urgency, env w (.notify title body urgency) = .ok ()

/-- An alert that is not delivered raises a transport error, nothing that Tier 2 quarantines. -/
def Env.MayLose (env : Env) : Prop :=
  ∀ w title body urgency e, env w (.notify title body urgency) = .error e →
    e.cls.quarantinable = false

/-- The rules hand the message on to Tier 2. -/
def Surroundings.Escalates (s : Surroundings) (d : Deployment) (rules : List Rule)
    (message : NormalizedMessage) : Prop :=
  ∀ env : Env, env.Steady s message → ∀ w, ∃ verdict,
    (env.eval (evaluate message rules d.tier1.defaultUnmatchedAction d.tier1.classifier) w).1
      = .ok verdict ∧ verdict.action.type = .escalate

/-! ## Turns -/

namespace Surroundings

/-- What Tier 2 is given. -/
def input (s : Surroundings) (message : NormalizedMessage) : Tier2Input :=
  tier2Input message s.thread s.mailboxes

/-- What the model is asked, given the text of the body. -/
def request (s : Surroundings) (d : Deployment) (message : NormalizedMessage) (stripped : String) :
    VerdictRequest :=
  Tier2.verdictRequest (s.input message).toMeta s.context
    (cleanStripped stripped d.tiering.maxBodyChars) d.tiering.allowedCategories

/-- A verdict that cannot be used is quarantined, or takes the attempt down. -/
def rejected (e : Exn) (next : Nat × Nat) : Turn (Nat × Nat) Op :=
  if e.cls.quarantinable then .ends [] else .fails next

/-- A verdict that can be used: the alert, if there is one, stands between the action and the
draft. -/
def settled (message : NormalizedMessage) (verdict : Verdict) (band : ConfidenceBand)
    (next : Nat × Nat) : Turn (Nat × Nat) Op :=
  if band ≠ .alertOnly ∧ ¬verdict.suggestedAction.Executable then .ends []
  else if band ≠ .autoact ∨ verdict.urgency = .high then
    .exposed (Tier2.actionEffects message verdict band) (Tier2.draftEffects message verdict) next
  else .ends (Tier2.actionEffects message verdict band ++ Tier2.draftEffects message verdict)

/-- An attempt that asks the model. -/
def asked (s : Surroundings) (d : Deployment) (message : NormalizedMessage) (stripped : String)
    (p : Nat × Nat) : Turn (Nat × Nat) Op :=
  match s.model p.1 (s.request d message stripped) with
  | .error e => rejected e (p.1 + 1, p.2)
  | .ok result =>
    if result.usage.Recordable then
      match Tier2.accept d.tier2 (s.input message) result.verdict with
      | .error e => rejected e (p.1 + 1, p.2 + 1)
      | .ok (verdict, band) => settled message verdict band (p.1 + 1, p.2 + 1)
    else .fails (p.1 + 1, p.2)

/-- What an attempt comes to, by the number of calls made so far and the number recorded today. -/
def turn (s : Surroundings) (d : Deployment) (message : NormalizedMessage) (p : Nat × Nat) :
    Turn (Nat × Nat) Op :=
  if d.tiering.dailyCallBudget ≤ p.2 then .ends []
  else
    match s.stripped with
    | .error e => rejected e p
    | .ok stripped => s.asked d message stripped p

section Turn

variable {s : Surroundings} {d : Deployment} {message : NormalizedMessage} {p q : Nat × Nat}

/-- An exposed turn applies first and drafts last. -/
theorem turn_exposed {a b : List Op} (h : s.turn d message p = .exposed a b q) :
    ∃ verdict band, a = Tier2.actionEffects message verdict band ∧
      b = Tier2.draftEffects message verdict ∧ q = (p.1 + 1, p.2 + 1) := by
  unfold turn asked rejected settled at h
  repeat' split at h
  all_goals cases h
  exact ⟨_, _, rfl, rfl, rfl⟩

/-- A turn that is followed by another one has found budget. -/
theorem turn_retries (h : Turn.Retries (s.turn d message) p q) :
    ¬d.tiering.dailyCallBudget ≤ p.2 ∧ p.1 ≤ q.1 ∧ p.2 ≤ q.2 := by
  by_cases hbudget : d.tiering.dailyCallBudget ≤ p.2
  · rw [Turn.Retries, turn, if_pos hbudget] at h
    rcases h with h | ⟨a, b, h⟩
    · cases h
    · cases h
  · refine ⟨hbudget, ?_⟩
    rcases h with h | ⟨a, b, h⟩
    · unfold turn asked rejected settled at h
      repeat' split at h
      all_goals cases h
      all_goals simp
    · obtain ⟨_, _, -, -, rfl⟩ := turn_exposed h
      exact ⟨Nat.le_succ _, Nat.le_succ _⟩

theorem retries_le (h : Relation.ReflTransGen (Turn.Retries (s.turn d message)) p q) :
    p.2 ≤ q.2 := by
  induction h with
  | refl => exact Nat.le_refl _
  | tail _ hs ih => exact ih.trans (turn_retries hs).2.2

end Turn

end Surroundings

/-- A call of `ActionApplier.apply`. -/
def Op.IsApply : Op → Prop
  | .apply _ _ => True
  | _ => False

/-- What comes before the alert is an application, and what comes after it is not. -/
theorem Surroundings.turn_halves {s : Surroundings} {d : Deployment} {message : NormalizedMessage}
    (p : Nat × Nat) (a b : List Op) (q : Nat × Nat) (h : s.turn d message p = .exposed a b q) :
    (∀ op ∈ a, op.IsApply) ∧ ∀ op ∈ b, ¬op.IsApply := by
  obtain ⟨verdict, band, rfl, rfl, -⟩ := turn_exposed h
  constructor
  · intro op hop
    rw [Tier2.actionEffects] at hop
    split at hop
    · rw [List.mem_singleton] at hop
      subst hop
      trivial
    · cases hop
  · intro op hop
    rw [Tier2.draftEffects] at hop
    split at hop
    · cases hop
    · rw [List.mem_singleton] at hop
      subst hop
      exact id

/-! ## One attempt -/

/-- The call changes nothing that a turn depends on. -/
def Op.Indifferent : Op → Prop
  | .getVerdict _ | .recordLlmCall _ _ _ | .markProcessed _ _ | .apply _ _ | .createDraft _ _ =>
    False
  | _ => True

/-- Where a handling stands: the model has been asked `p.1` times, `p.2` calls of today are
recorded, the mutations so far are `ops`, and the message is still to be handled. -/
structure At (s : Surroundings) (message : NormalizedMessage) (p : Nat × Nat) (ops : List Op)
    (w : World) : Prop where
  modelCalls : w.modelCalls = p.1
  calls : (w.db.getLlmUsage s.date).calls = p.2
  fresh : w.db.hasProcessed message.messageId = false
  mutations : w.mutations = ops

/-- The title of an alert about the outcome of a verdict. -/
def isOutcomeTitle (title : String) : Bool :=
  "Action taken: ".toList.isPrefixOf title.toList || "Needs review: ".toList.isPrefixOf title.toList

/-- Some outcome alert after the `n`th model call comes back with `r`. -/
def Env.Announces (env : Env) (n : Nat) (isOk : Bool) : Prop :=
  ∃ w title body urgency, isOutcomeTitle title = true ∧ w.modelCalls = n ∧
    (env w (.notify title body urgency)).isOk = isOk

/-- Some other alert is lost. -/
def Env.LosesOther (env : Env) : Prop :=
  ∃ w title body urgency, isOutcomeTitle title = false ∧
    (env w (.notify title body urgency)).isOk = false

section Spec

variable {env : Env} {s : Surroundings} {d : Deployment} {message : NormalizedMessage}
  {p : Nat × Nat} {ops : List Op} {w : World} {α : Type}

/-- A call that no turn depends on. -/
theorem At.indifferent {op : Op} (h : At s message p ops w) (hlaw : env.Lawful)
    (hop : op.Indifferent) :
    At s message p ops (env.answer w op).2 := by
  have hr : Responds anything w op (env.answer w op).1 (env.answer w op).2 :=
    env.responds hlaw trivial
  have htrace := hr.trace
  refine ⟨?_, ?_, ?_, ?_⟩
  · rw [World.modelCalls, htrace, List.countP_append, List.countP_singleton, ← h.modelCalls]
    cases op <;> first | exact hop.elim | rfl
  · have husage : (env.answer w op).2.db.llmUsage = w.db.llmUsage :=
      hr.llmUsage (by cases op <;> first | exact hop.elim | rfl)
    rw [StateDB.getLlmUsage, husage]
    exact h.calls
  · have hrows : (env.answer w op).2.db.processedMessages = w.db.processedMessages :=
      hr.processedMessages (by cases op <;> first | exact hop.elim | rfl)
    rw [StateDB.hasProcessed, hrows]
    exact h.fresh
  · rw [World.mutations, htrace, List.map_append, List.filter_append, ← h.mutations]
    cases op <;> first | exact hop.elim | exact List.append_nil _

/-- A program that makes only such calls. -/
theorem At.only {q : Proc α} (hq : q.Only Op.Indifferent) (hlaw : env.Lawful) :
    ∀ {w : World}, At s message p ops w → env.Ends q w fun _ => At s message p ops := by
  induction q with
  | done r => exact fun h => h
  | call op k ih => exact fun h => ih _ (hq.2 _) (h.indifferent hlaw hq.1)

theorem Op.Supporting.indifferent {op : Op} (h : op.Supporting) : op.Indifferent := by
  cases op <;> first | exact h.elim | trivial

/-- One such call that comes back with a value. -/
theorem At.call {op : Op} {a : op.Ret} {f : op.Ret → Proc α} {Q : Except Exn α → World → Prop}
    (h : At s message p ops w) (hlaw : env.Lawful) (hop : op.Indifferent)
    (hok : (env.answer w op).1 = .ok a)
    (hf : ∀ w', At s message p ops w' → env.Ends (f a) w' Q) :
    env.Ends (Spork.call op >>= f) w Q :=
  Env.ends_call_bind hok (hf _ (h.indifferent hlaw hop))

/-- The model has been asked once more. -/
theorem At.ask {request : VerdictRequest} (h : At s message p ops w) :
    At s message (p.1 + 1, p.2) ops (env.answer w (.getVerdict request)).2 := by
  refine ⟨?_, h.calls, h.fresh, ?_⟩
  · exact (List.countP_append).trans (by rw [← h.modelCalls]; rfl)
  · refine Eq.trans ?_ h.mutations
    show List.filter _ (List.map _ (w.trace ++ _)) = _
    rw [List.map_append, List.filter_append]
    exact List.append_nil _

/-- A call of today has been recorded. -/
theorem At.recorded {usage : LLMCallUsage} (h : At s message p ops w) (env : Env)
    (hrec : usage.Recordable) :
    (env.answer w (.recordLlmCall s.date usage.tokensIn usage.tokensOut)).1 = .ok () ∧
      At s message (p.1, p.2 + 1) ops
        (env.answer w (.recordLlmCall s.date usage.tokensIn usage.tokensOut)).2 := by
  have hanswer : env.answer w (.recordLlmCall s.date usage.tokensIn usage.tokensOut)
      = (.ok (), w.record (.recordLlmCall s.date usage.tokensIn usage.tokensOut) (.ok ())
        (w.db.withStoredCall s.date usage)) := by
    simp [Env.answer, Op.onDb, StateDB.recordLlmCall_recordable _ _ hrec, Except.map]
  rw [hanswer]
  refine ⟨rfl, ?_, ?_, h.fresh, ?_⟩
  · rw [World.modelCalls, World.trace_record, List.countP_append, ← h.modelCalls]
    rfl
  · rw [World.db_record, StateDB.withStoredCall, StateDB.calls_countCall, if_pos rfl, h.calls]
  · rw [World.mutations, World.trace_record, List.map_append, List.filter_append, ← h.mutations]
    exact List.append_nil _

/-- A call whose counts the store rejects has not been. -/
theorem At.unrecorded {usage : LLMCallUsage} (h : At s message p ops w) (env : Env)
    (hrec : ¬usage.Recordable) : ∃ e, e.cls.quarantinable = false ∧
      (env.answer w (.recordLlmCall s.date usage.tokensIn usage.tokensOut)).1 = .error e ∧
      At s message p ops
        (env.answer w (.recordLlmCall s.date usage.tokensIn usage.tokensOut)).2 := by
  rcases w.db.recordLlmCall_cases s.date usage.tokensIn usage.tokensOut with
    ⟨e, he, hcls, -⟩ | ⟨-, hok⟩
  · have hanswer : env.answer w (.recordLlmCall s.date usage.tokensIn usage.tokensOut)
        = (.error e, w.record (.recordLlmCall s.date usage.tokensIn usage.tokensOut) (.error e)
          w.db) := by
      simp [Env.answer, Op.onDb, he, Except.map]
    rw [hanswer]
    refine ⟨e, by rcases hcls with h | h <;> rw [h] <;> rfl, rfl, ?_, h.calls, h.fresh, ?_⟩
    · rw [World.modelCalls, World.trace_record, List.countP_append, ← h.modelCalls]
      rfl
    · rw [World.mutations, World.trace_record, List.map_append, List.filter_append, ← h.mutations]
      exact List.append_nil _
  · exact absurd hok hrec

/-- A body that the parser rejects never gets to the model. -/
theorem askModel_unparsed (hs : env.Steady s message) (hat : At s message p ops w) {ts : String}
    {e : Exn} (hstripped : s.stripped = .error e) :
    env.Ends (Tier2.askModel d.tier2 (s.input message) ts) w fun r w' =>
      r = .error e ∧ At s message p ops w' := by
  refine hat.call hs.lawful trivial (hs.getContext w) fun w₁ h₁ => ?_
  rw [Tier2.cleanBody, bind_assoc]
  exact Env.ends_raise_bind ((hs.feedHtml w₁).trans hstripped)
    ⟨rfl, h₁.indifferent hs.lawful trivial⟩

/-- The model is asked once, and the answer recorded if it can be. -/
theorem askModel_ends (hs : env.Steady s message) (hat : At s message p ops w) {ts : String}
    (hts : dateOf ts = s.date) {stripped : String} (hstripped : s.stripped = .ok stripped) :
    env.Ends (Tier2.askModel d.tier2 (s.input message) ts) w fun r w' =>
      match s.model p.1 (s.request d message stripped) with
      | .error e => r = .error e ∧ At s message (p.1 + 1, p.2) ops w'
      | .ok result =>
        if result.usage.Recordable then
          r = .ok result.verdict ∧ At s message (p.1 + 1, p.2 + 1) ops w'
        else ∃ e, r = .error e ∧ e.cls.quarantinable = false ∧
          At s message (p.1 + 1, p.2) ops w' := by
  refine hat.call hs.lawful trivial (hs.getContext w) fun w₁ h₁ => ?_
  rw [Tier2.cleanBody, bind_assoc]
  refine h₁.call hs.lawful trivial ((hs.feedHtml w₁).trans hstripped) fun w₂ h₂ => ?_
  rw [pure_bind]
  have hmodel : (env.answer w₂ (.getVerdict (s.request d message stripped))).1
      = s.model p.1 (s.request d message stripped) := by
    rw [← h₂.modelCalls]
    exact hs.getVerdict w₂ _
  cases hresult : s.model p.1 (s.request d message stripped) with
  | error e =>
    exact Env.ends_raise_bind (hmodel.trans hresult) ⟨rfl, h₂.ask⟩
  | ok result =>
    refine Env.ends_call_bind (hmodel.trans hresult) ?_
    have h₃ : At s message (p.1 + 1, p.2) ops
        (env.answer w₂ (.getVerdict (s.request d message stripped))).2 := h₂.ask
    rw [hts]
    dsimp only
    split
    · rename_i hrec
      obtain ⟨hrecorded, h₄⟩ := h₃.recorded env hrec
      exact Env.ends_call_bind hrecorded ⟨rfl, h₄⟩
    · rename_i hrec
      obtain ⟨e, he, hraise, h₄⟩ := h₃.unrecorded env hrec
      exact Env.ends_raise_bind hraise ⟨e, rfl, he, h₄⟩

/-- A mutation, and the mutations that come with it. -/
theorem At.mutates {op : Op} (h : At s message p ops w) (hop : op.isMutation = true) :
    At s message p (ops ++ [op]) (env.answer w op).2 := by
  have hanswer : env.answer w op = (env w op, w.record op (env w op) w.db) := by
    cases op <;> first | rfl | cases hop
  rw [hanswer]
  refine ⟨?_, h.calls, h.fresh, ?_⟩
  · rw [World.modelCalls, World.trace_record, List.countP_append, ← h.modelCalls]
    cases op <;> first | rfl | cases hop
  · rw [World.mutations, World.trace_record, List.map_append, List.filter_append, ← h.mutations]
    exact congrArg (World.mutations w ++ ·) (List.filter_cons_of_pos hop)

/-- The action of a verdict: nothing, one call, or a quarantine. -/
theorem execute_ends (hs : env.Steady s message) (hat : At s message p ops w) (verdict : Verdict) :
    env.Ends (d.tier2.executor.execute message verdict.suggestedAction) w fun r w' =>
      (r = .ok () ∧ verdict.suggestedAction.Executable ∧
        At s message p (ops ++ if verdict.suggestedAction.type ≠ .ignore then
          [.apply message verdict.suggestedAction] else []) w') ∨
      ∃ e, r = .error e ∧ e.cls.quarantinable = true ∧
        ¬verdict.suggestedAction.Executable ∧ At s message p ops w' := by
  rcases d.tier2.executor.execute_cases message verdict.suggestedAction with
    ⟨he, hacts⟩ | ⟨he, hignore⟩ | ⟨e, he, hcls, hnot, hne⟩ <;> rw [he]
  · refine .inl ⟨hs.apply w _, fun _ => hacts.2, ?_⟩
    rw [if_pos (by rcases hacts.1 with h | h <;> rw [h] <;> decide)]
    exact hat.mutates rfl
  · refine .inl ⟨rfl, (fun h => by rw [hignore] at h; cases h), ?_⟩
    rw [if_neg (by simp [hignore]), List.append_nil]
    exact hat
  · refine .inr ⟨e, rfl, by rw [hcls]; rfl, fun hexec => ?_, hat⟩
    rcases verdict.terminal with ht | ht | ht
    · exact hnot ⟨.inl ht, hexec (by rw [ht]; rfl)⟩
    · exact hnot ⟨.inr ht, hexec (by rw [ht]; rfl)⟩
    · exact hne ht

/-- The alert of a band's outcome. -/
theorem alert_ends (hs : env.Steady s message) (hlose : env.MayLose)
    (hat : At s message p ops w) {title body : String} {urgency : AlertUrgency}
    (htitle : isOutcomeTitle title = true) :
    env.Ends (d.tier2.ops.alert title body urgency) w fun r w' => At s message p ops w' ∧
      (r = .ok () ∧ env.Announces p.1 true ∨
        ∃ e, r = .error e ∧ e.cls.quarantinable = false ∧ env.Announces p.1 false) := by
  have hann : ∀ b, (env w (.notify title body urgency)).isOk = b → env.Announces p.1 b :=
    fun b hb => ⟨w, title, body, urgency, htitle, hat.modelCalls, hb⟩
  refine ⟨hat.indifferent hs.lawful trivial, ?_⟩
  show (env w (.notify title body urgency) = .ok () ∧ _) ∨ _
  cases h : env w (.notify title body urgency) with
  | ok u => exact .inl ⟨rfl, hann true (by rw [h]; rfl)⟩
  | error e => exact .inr ⟨e, h, hlose _ _ _ _ _ h, hann false (by rw [h]; rfl)⟩

/-- Any other alert. -/
theorem otherAlert_ends (hs : env.Steady s message) (hlose : env.MayLose)
    (hat : At s message p ops w) {title body : String} {urgency : AlertUrgency}
    (htitle : isOutcomeTitle title = false) :
    env.Ends (d.tier2.ops.alert title body urgency) w fun r w' => At s message p ops w' ∧
      (r = .ok () ∨ ∃ e, r = .error e ∧ e.cls.quarantinable = false ∧ env.LosesOther) := by
  refine ⟨hat.indifferent hs.lawful trivial, ?_⟩
  show (env w (.notify title body urgency) = .ok ()) ∨ _
  cases h : env w (.notify title body urgency) with
  | ok u => exact .inl rfl
  | error e =>
    exact .inr ⟨e, h, hlose _ _ _ _ _ h, w, title, body, urgency, htitle, by rw [h]; rfl⟩

/-- From the draft on nothing can go wrong. -/
theorem finish_ends (hs : env.Steady s message) (hat : At s message p ops w) (ts : String)
    (verdict : Verdict) (band : ConfidenceBand) :
    env.Ends (do
      Tier2.draft d.tier2 message verdict
      call (.writeAuditEntry ts message.messageId (Tier2.bandEvent band)
        (some (Tier2.bandDetail verdict band)))
      let json ← call (.modelDumpJson verdict)
      call (.markProcessed message.messageId (Tier2.processedRow message ts (some json)
        (some verdict.suggestedAction.type)))) w fun r w' =>
      r = .ok () ∧ w'.mutations = ops ++ Tier2.draftEffects message verdict := by
  have hrest : ∀ w ops, At s message p ops w → env.Ends (do
      call (.writeAuditEntry ts message.messageId (Tier2.bandEvent band)
        (some (Tier2.bandDetail verdict band)))
      let json ← call (.modelDumpJson verdict)
      call (.markProcessed message.messageId (Tier2.processedRow message ts (some json)
        (some verdict.suggestedAction.type)))) w fun r w' => r = .ok () ∧ w'.mutations = ops := by
    intro w ops hat
    refine hat.call hs.lawful trivial rfl fun w₁ h₁ => ?_
    obtain ⟨json, hjson⟩ := hs.modelDumpJson w₁ verdict
    refine h₁.call hs.lawful trivial hjson fun w₂ h₂ => ⟨rfl, ?_⟩
    refine Eq.trans ?_ h₂.mutations
    show List.filter _ (List.map _ (w₂.trace ++ _)) = _
    rw [List.map_append, List.filter_append]
    exact List.append_nil _
  rw [Tier2.draft, Tier2.draftEffects]
  cases verdict.draftReply with
  | none =>
    rw [List.append_nil]
    exact hrest w ops hat
  | some body => exact Env.ends_call_bind (hs.createDraft w body) (hrest _ _ (hat.mutates rfl))

/-- How an attempt that stood at `p`, and whose turn is `t`, may come back. -/
inductive Attempted (env : Env) (s : Surroundings) (message : NormalizedMessage) (p : Nat × Nat)
    (ops : List Op) (t : Turn (Nat × Nat) Op) : Except Exn α → World → Prop where
  /-- An alert other than the outcome's is lost, and nothing has happened. -/
  | stutters {e : Exn} {w : World} (he : e.cls.quarantinable = false) (hlost : env.LosesOther)
      (hat : At s message p ops w) : Attempted env s message p ops t (.error e) w
  | ends {a : α} {l : List Op} {w : World} (ht : t = .ends l) (hops : w.mutations = ops ++ l) :
      Attempted env s message p ops t (.ok a) w
  /-- The alert of a quarantine is lost, but the message has its mark. -/
  | announced {e : Exn} {l : List Op} {w : World} (he : e.cls.quarantinable = false)
      (hlost : env.LosesOther) (ht : t = .ends l) (hops : w.mutations = ops ++ l)
      (hseen : w.db.hasProcessed message.messageId = true) :
      Attempted env s message p ops t (.error e) w
  /-- The verdict is still to be quarantined. -/
  | rejected {e : Exn} {q : Nat × Nat} {w : World} (he : e.cls.quarantinable = true)
      (ht : t = .ends []) (hat : At s message q ops w) :
      Attempted env s message p ops t (.error e) w
  | fails {e : Exn} {q : Nat × Nat} {w : World} (he : e.cls.quarantinable = false)
      (ht : t = .fails q) (hat : At s message q ops w) :
      Attempted env s message p ops t (.error e) w
  | through {x : α} {a b : List Op} {q : Nat × Nat} {w : World} (ht : t = .exposed a b q)
      (hdelivered : env.Announces q.1 true) (hops : w.mutations = ops ++ (a ++ b)) :
      Attempted env s message p ops t (.ok x) w
  | interrupted {e : Exn} {a b : List Op} {q : Nat × Nat} {w : World}
      (he : e.cls.quarantinable = false) (ht : t = .exposed a b q)
      (hlost : env.Announces q.1 false) (hat : At s message q (ops ++ a) w) :
      Attempted env s message p ops t (.error e) w

/-- The value of an attempt does not matter. -/
theorem Attempted.map {β : Type} {c : Proc α} {f : α → β} {t : Turn (Nat × Nat) Op}
    (h : env.Ends c w (Attempted env s message p ops t)) :
    env.Ends (c >>= fun a => pure (f a)) w (Attempted env s message p ops t) := by
  refine h.bind (fun a w' h => ?_) (fun e w' h => ?_)
  · cases h with
    | ends ht hops => exact .ends ht hops
    | through ht hdelivered hops => exact .through ht hdelivered hops
  · cases h with
    | stutters he hlost hat => exact .stutters he hlost hat
    | announced he hlost ht hops hseen => exact .announced he hlost ht hops hseen
    | rejected he ht hat => exact .rejected he ht hat
    | fails he ht hat => exact .fails he ht hat
    | interrupted he ht hlost hat => exact .interrupted he ht hlost hat

/-- A verdict that cannot be used. -/
theorem Attempted.of_rejected {e : Exn} {q : Nat × Nat} (hat : At s message q ops w) :
    Attempted env s message p ops (Surroundings.rejected e q) (.error e : Except Exn α) w := by
  cases he : e.cls.quarantinable with
  | true => exact .rejected he (if_pos he) hat
  | false => exact .fails he (if_neg (by simp [he])) hat

theorem isOutcomeTitle_acted (category : String) :
    isOutcomeTitle ("Action taken: " ++ category) = true := by
  simp [isOutcomeTitle, String.toList_append]

theorem isOutcomeTitle_review (category : String) :
    isOutcomeTitle ("Needs review: " ++ category) = true := by
  simp [isOutcomeTitle, String.toList_append]

theorem isOutcomeTitle_escalated (reason : String) :
    isOutcomeTitle ("Escalated: " ++ reason) = false := by
  rw [isOutcomeTitle, String.toList_append]
  rfl

/-- An acting band, from the action on. -/
theorem act_ends (hs : env.Steady s message) (hlose : env.MayLose) {q : Nat × Nat}
    (hat : At s message q ops w) (ts : String) (verdict : Verdict) {band : ConfidenceBand}
    (hband : band ≠ .alertOnly) :
    env.Ends (Tier2.settle d.tier2 message ts verdict band) w
      (Attempted env s message p ops (Surroundings.settled message verdict band q)) := by
  have hperform : Tier2.perform d.tier2 message verdict band = (do
      d.tier2.executor.execute message verdict.suggestedAction
      if Tier2.alerts verdict band then
        d.tier2.ops.alert ("Action taken: " ++ verdict.category) (Tier1.alertBody message)
          (Tier2.alertUrgency verdict.urgency)
      else pure ()) := by
    cases band <;> first | exact absurd rfl hband | rfl
  have halerts : Tier2.alerts verdict band = true ↔ band ≠ .autoact ∨ verdict.urgency = .high := by
    cases band <;> simp_all [Tier2.alerts]
  rw [Tier2.settle, hperform, bind_assoc]
  refine (execute_ends hs hat verdict).bind ?_ ?_
  · rintro a w₁ (⟨-, hexec, h₁⟩ | ⟨e, he, -⟩)
    · have hacts : (if verdict.suggestedAction.type ≠ .ignore then
          [Op.apply message verdict.suggestedAction] else [])
            = Tier2.actionEffects message verdict band := by
        simp only [Tier2.actionEffects, hband, ne_eq, not_false_eq_true, true_and]
      rw [hacts] at h₁
      by_cases hc : band ≠ .autoact ∨ verdict.urgency = .high
      · have hsettled : Surroundings.settled message verdict band q
            = .exposed (Tier2.actionEffects message verdict band)
              (Tier2.draftEffects message verdict) q := by
          rw [Surroundings.settled, if_neg fun h => h.2 hexec, if_pos hc]
        rw [if_pos (halerts.2 hc)]
        refine (alert_ends hs hlose h₁ (isOutcomeTitle_acted _)).bind ?_ ?_
        · rintro a w₂ ⟨h₂, ⟨-, hann⟩ | ⟨e, he, -⟩⟩
          · refine (finish_ends hs h₂ ts verdict band).mono ?_
            rintro r w₃ ⟨rfl, hops⟩
            exact .through hsettled hann (hops.trans (List.append_assoc _ _ _))
          · cases he
        · rintro e w₂ ⟨h₂, ⟨he, -⟩ | ⟨e', he', hcls, hann⟩⟩
          · cases he
          · cases he'
            exact .interrupted hcls hsettled hann h₂
      · have hsettled : Surroundings.settled message verdict band q
            = .ends (Tier2.actionEffects message verdict band ++
              Tier2.draftEffects message verdict) := by
          rw [Surroundings.settled, if_neg fun h => h.2 hexec, if_neg hc]
        rw [if_neg fun h => hc (halerts.1 h), pure_bind]
        refine (finish_ends hs h₁ ts verdict band).mono ?_
        rintro r w₃ ⟨rfl, hops⟩
        exact .ends hsettled (hops.trans (List.append_assoc _ _ _))
    · cases he
  · rintro e w₁ (⟨he, -⟩ | ⟨e', he', hcls, hexec, h₁⟩)
    · cases he
    · cases he'
      exact .rejected hcls (by rw [Surroundings.settled, if_pos ⟨hband, hexec⟩]) h₁

/-- From an accepted verdict on, an attempt is what its turn says. -/
theorem settle_ends (hs : env.Steady s message) (hlose : env.MayLose) {q : Nat × Nat}
    (hat : At s message q ops w) (ts : String) (verdict : Verdict) (band : ConfidenceBand) :
    env.Ends (Tier2.settle d.tier2 message ts verdict band) w
      (Attempted env s message p ops (Surroundings.settled message verdict band q)) := by
  cases band with
  | autoact => exact act_ends hs hlose hat ts verdict (by decide)
  | autoactAlert => exact act_ends hs hlose hat ts verdict (by decide)
  | alertOnly =>
    refine (alert_ends hs hlose hat (isOutcomeTitle_review _)).bind ?_ ?_
    · rintro a w₁ ⟨h₁, ⟨-, hann⟩ | ⟨e, he, -⟩⟩
      · refine (finish_ends hs h₁ ts verdict .alertOnly).mono ?_
        rintro r w₂ ⟨rfl, hops⟩
        exact .through rfl hann hops
      · cases he
    · rintro e w₁ ⟨h₁, ⟨he, -⟩ | ⟨e', he', hcls, hann⟩⟩
      · cases he
      · cases he'
        refine .interrupted (q := q) (a := []) hcls rfl hann ?_
        rw [List.append_nil]
        exact h₁

/-- An audit row and a mark. -/
theorem auditThenMark_ends (hs : env.Steady s message) (hat : At s message p ops w)
    (ts event : String) (detail : Option String) (row : ProcessedRow) :
    env.Ends (Tier1.auditThenMark message ts event detail row) w fun r w' =>
      r = .ok () ∧ w'.mutations = ops ∧ w'.db.hasProcessed message.messageId = true := by
  refine hat.call hs.lawful trivial rfl fun w₁ h₁ => ⟨rfl, ?_, ?_⟩
  · refine Eq.trans ?_ h₁.mutations
    show List.filter _ (List.map _ (w₁.trace ++ _)) = _
    rw [List.map_append, List.filter_append]
    exact List.append_nil _
  · show (w₁.db.markProcessed message.messageId row).hasProcessed message.messageId = true
    rw [StateDB.hasProcessed, StateDB.processedMessages_markProcessed, Function.update_self]
    rfl

theorem skipModel_ends (hs : env.Steady s message) (hlose : env.MayLose)
    (hat : At s message p ops w) (ts : String) :
    env.Ends (Tier2.skipModel d.tier2 message ts) w (Attempted env s message p ops (.ends [])) := by
  refine (otherAlert_ends hs hlose hat (by decide)).bind ?_ ?_
  · rintro a w₁ ⟨h₁, -⟩
    refine (auditThenMark_ends hs h₁ ts _ _ _).mono ?_
    rintro r w₂ ⟨rfl, hops, -⟩
    exact .ends rfl (hops.trans (List.append_nil _).symm)
  · rintro e w₁ ⟨h₁, he | ⟨e', he', hcls, hlost⟩⟩
    · cases he
    · cases he'
      exact .stutters hcls hlost h₁

/-- Once the message is marked, only the alert of its quarantine is left. -/
theorem quarantine_ends (hs : env.Steady s message) (hlose : env.MayLose)
    (hat : At s message p ops w) (e : Exn) :
    env.Ends (quarantine d.tier2.ops message e) w fun r w' =>
      w'.mutations = ops ∧ w'.db.hasProcessed message.messageId = true ∧
        ((∃ a, r = .ok a) ∨ ∃ e', r = .error e' ∧ e'.cls.quarantinable = false ∧
          env.LosesOther) := by
  have hplain : ∀ (w : World) (op : Op) (reply : Except Exn op.Ret), op.isMutation = false →
      (w.record op reply w.db).mutations = w.mutations := by
    intro w op reply hop
    rw [World.mutations, World.trace_record, List.map_append, List.filter_append]
    refine Eq.trans (congrArg (w.mutations ++ ·) ?_) (List.append_nil _)
    exact List.filter_cons_of_neg (by simp [hop])
  obtain ⟨ts, hts, -⟩ := hs.now w
  refine hat.call hs.lawful trivial hts fun w₁ h₁ => ?_
  have hmark := auditThenMark_ends hs h₁ ts "tier2_quarantined" (some (quarantineDetail e))
    (quarantinedRow message ts)
  rw [Tier1.auditThenMark] at hmark
  rw [← bind_assoc]
  refine hmark.bind ?_ (fun e' w' h => by cases h.1)
  rintro a w₂ ⟨-, hops, hseen⟩
  obtain ⟨id, hid⟩ := hs.newCorrelationId w₂
  refine Env.ends_call_bind hid ?_
  have hafter : (env.answer w₂ .newCorrelationId).2 = w₂.record .newCorrelationId
    (env w₂ .newCorrelationId) w₂.db := rfl
  rw [hafter]
  cases h : env (w₂.record .newCorrelationId (env w₂ .newCorrelationId) w₂.db)
      (.notify "Tier 2 verdict quarantined"
        (pyRepr message.subject ++ " from " ++ message.fromAddress ++ ": " ++ e.message)
        .critical) with
  | ok u =>
    refine Env.ends_call_bind h ⟨?_, hseen, .inl ⟨_, rfl⟩⟩
    exact (hplain _ _ _ rfl).trans ((hplain _ _ _ rfl).trans hops)
  | error e' =>
    refine Env.ends_raise_bind h ⟨?_, hseen, .inr ⟨e', rfl, hlose _ _ _ _ _ h,
      _, "Tier 2 verdict quarantined", _, _, by decide, by rw [h]; rfl⟩⟩
    exact (hplain _ _ _ rfl).trans ((hplain _ _ _ rfl).trans hops)

/-- Within the budget, a body that can be read goes to the model. -/
theorem asked_ends (hs : env.Steady s message) (hlose : env.MayLose) (hat : At s message p ops w)
    {ts : String} (hts : dateOf ts = s.date) {stripped : String}
    (hstripped : s.stripped = .ok stripped) :
    env.Ends (do
        let verdict ← Tier2.askModel d.tier2 (s.input message) ts
        let (validated, band) ← ofExcept (Tier2.accept d.tier2 (s.input message) verdict)
        Tier2.settle d.tier2 message ts validated band
        pure (some validated)) w
      (Attempted env s message p ops (s.asked d message stripped p)) := by
  rw [Surroundings.asked]
  have hasked := askModel_ends (d := d) hs hat hts hstripped
  cases hmodel : s.model p.1 (s.request d message stripped) with
  | error e =>
    simp only [hmodel] at hasked
    refine hasked.bind ?_ ?_
    · rintro verdict w' ⟨hraised, -⟩
      cases hraised
    · rintro e' w' ⟨hraised, h⟩
      cases hraised
      exact Attempted.of_rejected h
  | ok result =>
    by_cases hrec : result.usage.Recordable
    · simp only [hmodel, if_pos hrec] at hasked ⊢
      refine hasked.bind ?_ ?_
      · rintro verdict w' ⟨hverdict, h⟩
        cases hverdict
        cases haccept : Tier2.accept d.tier2 (s.input message) result.verdict with
        | error e => exact Attempted.of_rejected h
        | ok accepted => exact Attempted.map (settle_ends hs hlose h ts accepted.1 accepted.2)
      · rintro e w' ⟨hraised, -⟩
        cases hraised
    · simp only [hmodel, if_neg hrec] at hasked ⊢
      refine hasked.bind ?_ ?_
      · rintro verdict w' ⟨e, hraised, -⟩
        cases hraised
      · rintro e w' ⟨e', hraised, hcls, h⟩
        cases hraised
        exact .fails hcls rfl h

/-- Tier 2 is the turn its budget, the parser and its model make it. -/
theorem processTier2Message_ends (hs : env.Steady s message) (hlose : env.MayLose)
    (hat : At s message p ops w) :
    env.Ends (processTier2Message d.tier2 (s.input message)) w
      (Attempted env s message p ops (s.turn d message p)) := by
  rw [processTier2Message_eq]
  obtain ⟨ts, hts, hdate⟩ := hs.now w
  refine hat.call hs.lawful trivial hts fun w₁ h₁ => ?_
  obtain ⟨id, hid⟩ := hs.newCorrelationId w₁
  refine h₁.call hs.lawful trivial hid fun w₂ h₂ => ?_
  have husage : (env.answer w₂ (.getLlmUsage (dateOf ts))).1
      = .ok (w₂.db.getLlmUsage (dateOf ts)) := rfl
  refine h₂.call hs.lawful trivial husage fun w₃ h₃ => ?_
  have hbudget : hasBudgetRemaining (w₂.db.getLlmUsage (dateOf ts)) d.tier2.tiering.dailyCallBudget
      = true ↔ ¬d.tiering.dailyCallBudget ≤ p.2 := by
    rw [hasBudgetRemaining, decide_eq_true_iff, hdate, h₂.calls, not_le]
    rfl
  by_cases hgone : d.tiering.dailyCallBudget ≤ p.2
  · have hturn : s.turn d message p = .ends [] := by rw [Surroundings.turn, if_pos hgone]
    rw [if_neg fun h => hbudget.1 h hgone, hturn]
    exact Attempted.map (skipModel_ends hs hlose h₃ ts)
  · rw [if_pos (hbudget.2 hgone), Surroundings.turn, if_neg hgone]
    cases hstripped : s.stripped with
    | error e =>
      refine (askModel_unparsed (d := d) hs h₃ hstripped).bind ?_ ?_
      · rintro verdict w₄ ⟨hraised, -⟩
        cases hraised
      · rintro e' w₄ ⟨hraised, h₄⟩
        cases hraised
        exact Attempted.of_rejected h₄
    | ok stripped => exact asked_ends hs hlose h₃ hdate hstripped

/-- An escalation is the same turn; what is to be quarantined has been. -/
theorem escalateMessageOrQuarantine_ends (hs : env.Steady s message) (hlose : env.MayLose)
    (hat : At s message p ops w) :
    env.Ends (escalateMessageOrQuarantine d.escalation message) w fun r w' =>
      Attempted env s message p ops (s.turn d message p) r w' ∧
        ∀ e, r = .error e → e.cls.quarantinable = false := by
  have htry : env.Ends (escalateMessage d.escalation message) w
      (Attempted env s message p ops (s.turn d message p)) := by
    refine hat.call hs.lawful trivial (hs.getThreadContext w) fun w₁ h₁ => ?_
    refine h₁.call hs.lawful trivial (hs.listMailboxes w₁) fun w₂ h₂ => ?_
    exact processTier2Message_ends hs hlose h₂
  refine (Attempted.map (f := EscalationResult.ofOption) htry).tryCatch ?_ ?_
  · exact fun a w' h => ⟨h, fun e he => by cases he⟩
  · intro e w' h
    have hraise : e.cls.quarantinable = false → env.Ends
        (if e.cls.quarantinable then quarantine d.escalation.tier2.ops message e else Prog.raise e)
        w' fun r w'' => Attempted env s message p ops (s.turn d message p) r w'' ∧
          ∀ e, r = .error e → e.cls.quarantinable = false := by
      intro hcls
      rw [if_neg (by simp [hcls])]
      exact ⟨h, fun e' he => by cases he; exact hcls⟩
    cases h with
    | rejected he ht hat =>
      rw [if_pos he]
      refine (quarantine_ends (d := d) hs hlose hat e).mono ?_
      rintro r w'' ⟨hops, hseen, ⟨a, rfl⟩ | ⟨e', rfl, hcls, hlost⟩⟩
      · exact ⟨.ends ht (hops.trans (List.append_nil _).symm), fun e he => by cases he⟩
      · exact ⟨.announced hcls hlost ht (hops.trans (List.append_nil _).symm) hseen,
          fun e he => by cases he; exact hcls⟩
    | stutters he _ _ => exact hraise he
    | announced he _ _ _ _ => exact hraise he
    | fails he _ _ => exact hraise he
    | interrupted he _ _ _ => exact hraise he

/-- **An attempt at an escalated message is its turn.** -/
theorem handleMessage_ends (hs : env.Steady s message) (hlose : env.MayLose) {rules : List Rule}
    (hesc : s.Escalates d rules message) (hat : At s message p ops w) :
    env.Ends (handleMessage d.deps rules message) w fun r w' =>
      Attempted env s message p ops (s.turn d message p) r w' ∧
        ∀ e, r = .error e → e.cls.quarantinable = false := by
  rw [handleMessage_eq]
  refine hat.call hs.lawful trivial (a := false) (congrArg Except.ok hat.fresh) fun w₁ h₁ => ?_
  rw [if_neg Bool.false_ne_true]
  obtain ⟨ts, hts, -⟩ := hs.now w₁
  refine h₁.call hs.lawful trivial hts fun w₂ h₂ => ?_
  obtain ⟨id, hid⟩ := hs.newCorrelationId w₂
  refine h₂.call hs.lawful trivial hid fun w₃ h₃ => ?_
  have hevaluate : env.Ends (evaluate message rules d.tier1.defaultUnmatchedAction
      d.tier1.classifier) w₃ fun r w' => (∃ v, r = .ok v ∧ v.action.type = .escalate) ∧
        At s message p ops w' := by
    refine ⟨hesc env hs w₃, At.only ?_ hs.lawful h₃⟩
    refine (evaluate_only (fun c hc => d.tier1_wired.classify c hc message) rules _).mono ?_
    exact fun _ => Op.Supporting.indifferent
  refine hevaluate.bind ?_ ?_
  · rintro verdict w₄ ⟨⟨v, hv, htype⟩, h₄⟩
    cases hv
    rw [Tier1.runBranch, htype, if_pos rfl, bind_assoc, Tier1.alertIfImmediate]
    have hrest : ∀ w, At s message p ops w → env.Ends (do
        call (.writeAuditEntry ts message.messageId "escalated_pending_tier2" none)
        let result ← escalateMessageOrQuarantine d.escalation message
        pure (some verdict, some result)) w fun r w' =>
          Attempted env s message p ops (s.turn d message p) r w' ∧
            ∀ e, r = .error e → e.cls.quarantinable = false := by
      intro w hat
      refine hat.call hs.lawful trivial rfl fun w₅ h₅ => ?_
      have hesc := escalateMessageOrQuarantine_ends (d := d) hs hlose h₅
      refine ⟨Attempted.map hesc.1, fun e he => ?_⟩
      cases heval : env.eval (escalateMessageOrQuarantine d.escalation message) w₅ with
      | mk r w' =>
        rw [Env.Ends, heval] at hesc
        cases r with
        | ok a =>
          rw [Env.eval_bind_ok heval] at he
          cases he
        | error e' =>
          rw [Env.eval_bind_error heval] at he
          cases he
          exact hesc.2 e rfl
    cases verdict.action.alertImmediately with
    | false => exact hrest w₄ h₄
    | true =>
      have htitle := isOutcomeTitle_escalated (Tier1.escalationReason verdict)
      refine (otherAlert_ends (d := d) hs hlose h₄ htitle).bind ?_ ?_
      · exact fun a w₅ h₅ => hrest w₅ h₅.1
      · rintro e w₅ ⟨h₅, he | ⟨e', he', hcls, hlost⟩⟩
        · cases he
        · cases he'
          exact ⟨.stutters hcls hlost h₅, fun e he => by cases he; exact hcls⟩
  · rintro e w₄ ⟨⟨v, hv, -⟩, -⟩
    cases hv

end Spec

/-! ## Handlings -/

/-- The message is handled, again and again until the handling returns. -/
def Env.Handles (env : Env) (d : Deployment) (rules : List Rule) (message : NormalizedMessage) :
    World → World → Prop := Prog.Retried env.answer (handleMessage d.deps rules message)

/-- The collaborators of `s`, with an alerter that loses every outcome alert before the model's
`n`th call. -/
def Surroundings.env (s : Surroundings) (n : Nat) : Env := fun w op =>
  match op with
  | .now => .ok s.clock
  | .classify _ => .ok s.classification
  | .getThreadContext _ => .ok s.thread
  | .listMailboxes => .ok s.mailboxes
  | .getContext _ => .ok s.context
  | .feedHtml _ => s.stripped
  | .getVerdict request => s.model w.modelCalls request
  | .notify title _ _ =>
    if isOutcomeTitle title && decide (w.modelCalls < n) then
      .error ⟨.other "SMTPServerDisconnected", "Connection unexpectedly closed"⟩
    else .ok ()
  | op => .ok (quietAnswer op)

section Handle

variable {env : Env} {s : Surroundings} {d : Deployment} {rules : List Rule}
  {message : NormalizedMessage} {p : Nat × Nat} {ops l : List Op} {w w' : World}

theorem Surroundings.env_steady (n : Nat) : (s.env n).Steady s message where
  lawful w op e h := by cases op <;> trivial
  now _ := ⟨_, rfl, rfl⟩
  newCorrelationId _ := ⟨_, rfl⟩
  classify _ := rfl
  getThreadContext _ := rfl
  listMailboxes _ := rfl
  getContext _ := rfl
  feedHtml _ := rfl
  getVerdict _ _ := rfl
  modelDumpJson _ _ := ⟨_, rfl⟩
  apply _ _ := rfl
  createDraft _ _ := rfl

theorem Surroundings.env_notify (n : Nat) (w : World) (title body : String)
    (urgency : AlertUrgency) : (s.env n w (.notify title body urgency)).isOk
      = !(isOutcomeTitle title && decide (w.modelCalls < n)) := by
  show Except.isOk (if _ then _ else _) = _
  split
  · rename_i h
    rw [h]
    rfl
  · rename_i h
    rw [Bool.eq_false_iff.2 h]
    rfl

theorem Surroundings.env_mayLose (n : Nat) : (s.env n).MayLose := by
  intro w title body urgency e h
  have herror : (if isOutcomeTitle title && decide (w.modelCalls < n) then
      (.error ⟨.other "SMTPServerDisconnected", "Connection unexpectedly closed"⟩ : Except Exn Unit)
    else .ok ()) = .error e := h
  split at herror
  · cases herror
    rfl
  · cases herror

theorem Surroundings.env_delivers : (s.env 0).Delivers := by
  intro w title body urgency
  show (if _ then _ else _) = _
  rw [if_neg (by simp)]

theorem Surroundings.not_losesOther (n : Nat) : ¬(s.env n).LosesOther := by
  rintro ⟨w, title, body, urgency, htitle, hlost⟩
  rw [env_notify, htitle] at hlost
  cases hlost

theorem Surroundings.lt_of_lost {n k : Nat} (h : (s.env n).Announces k false) : k < n := by
  obtain ⟨w, title, body, urgency, htitle, rfl, hlost⟩ := h
  rw [env_notify, htitle] at hlost
  simpa using hlost

theorem Surroundings.le_of_delivered {n k : Nat} (h : (s.env n).Announces k true) : n ≤ k := by
  obtain ⟨w, title, body, urgency, htitle, rfl, hdelivered⟩ := h
  rw [env_notify, htitle] at hdelivered
  simpa using hdelivered

theorem Env.Delivers.mayLose (h : env.Delivers) : env.MayLose := by
  intro w title body urgency e he
  rw [h w title body urgency] at he
  cases he

theorem Env.Delivers.not_announces (h : env.Delivers) {k : Nat} : ¬env.Announces k false := by
  rintro ⟨w, title, body, urgency, -, -, hlost⟩
  rw [h w title body urgency] at hlost
  cases hlost

/-- A message that has its row is not touched again. -/
theorem eval_handleMessage_seen (hseen : w.db.hasProcessed message.messageId = true) :
    (env.eval (handleMessage d.deps rules message) w).1.isOk = true ∧
      (env.eval (handleMessage d.deps rules message) w).2.mutations = w.mutations := by
  have hgate : env.Ends (handleMessage d.deps rules message) w fun r w' =>
      r.isOk = true ∧ w'.mutations = w.mutations := by
    rw [handleMessage_eq]
    refine Env.ends_call_bind (a := true) (congrArg Except.ok hseen) ⟨rfl, ?_⟩
    show List.filter _ (List.map _ (w.trace ++ _)) = _
    rw [List.map_append, List.filter_append]
    exact List.append_nil _
  exact hgate

/-- **What a handling does is an outcome of its turns.** -/
theorem Env.Handles.outcome (hs : env.Steady s message) (hlose : env.MayLose)
    (hesc : s.Escalates d rules message) {may : Prop} (hmay : ∀ n, env.Announces n false → may)
    (h : env.Handles d rules message w w') :
    (∀ p ops, At s message p ops w → ∃ l, Turn.Outcome (s.turn d message) may p l ∧
      w'.mutations = ops ++ l) ∧
      (w.db.hasProcessed message.messageId = true → w'.mutations = w.mutations) := by
  induction h with
  | @returns w h =>
    refine ⟨fun p ops hat => ?_, fun hseen => (eval_handleMessage_seen hseen).2⟩
    have hattempt := (handleMessage_ends hs hlose hesc hat).1
    cases heval : env.eval (handleMessage d.deps rules message) w with
    | mk r w' =>
      have heval' : Prog.eval env.answer (handleMessage d.deps rules message) w = (r, w') := heval
      rw [heval] at hattempt
      rw [heval'] at h ⊢
      cases hattempt with
      | ends ht hops => exact ⟨_, .ends ht, hops⟩
      | through ht _ hops => exact ⟨_, .through ht, hops⟩
      | stutters | announced | rejected | fails | interrupted => cases h
  | @again w w' h _ ih =>
    constructor
    · intro p ops hat
      have hattempt := handleMessage_ends hs hlose hesc hat
      cases heval : env.eval (handleMessage d.deps rules message) w with
      | mk r w₁ =>
        have heval' : Prog.eval env.answer (handleMessage d.deps rules message) w = (r, w₁) := heval
        rw [Env.Ends, heval] at hattempt
        rw [heval'] at h ih
        obtain ⟨hattempt, hquarantined⟩ := hattempt
        cases hattempt with
        | ends | through => cases h
        | stutters he hlost hat => exact ih.1 p ops hat
        | announced he hlost ht hops hseen => exact ⟨_, .ends ht, (ih.2 hseen).trans hops⟩
        | rejected he => rw [hquarantined _ rfl] at he; cases he
        | fails he ht hat =>
          obtain ⟨l, ho, hops⟩ := ih.1 _ ops hat
          exact ⟨l, .fails ht ho, hops⟩
        | interrupted he ht hlost hat =>
          obtain ⟨l, ho, hops⟩ := ih.1 _ _ hat
          exact ⟨_, .interrupted ht (hmay _ hlost) ho, hops.trans (List.append_assoc _ _ _)⟩
    · intro hseen
      have hok : (env.eval (handleMessage d.deps rules message) w).1.isOk = true :=
        (eval_handleMessage_seen hseen).1
      rw [Env.eval, h] at hok
      cases hok

/-- In `s.env n` an attempt has no choice. -/
theorem Surroundings.attempt_env (hesc : s.Escalates d rules message) (n : Nat)
    (hat : At s message p ops w) :
    (s.env n).Ends (handleMessage d.deps rules message) w fun r w' =>
      match s.turn d message p with
      | .ends l => r.isOk = true ∧ w'.mutations = ops ++ l
      | .fails q => r.isOk = false ∧ At s message q ops w'
      | .exposed a b q =>
        if q.1 < n then r.isOk = false ∧ At s message q (ops ++ a) w'
        else r.isOk = true ∧ w'.mutations = ops ++ (a ++ b) := by
  refine (handleMessage_ends (s.env_steady n) (s.env_mayLose n) hesc hat).mono ?_
  rintro r w' ⟨hattempt, hquarantined⟩
  cases hattempt with
  | stutters _ hlost => exact absurd hlost (s.not_losesOther n)
  | announced _ hlost => exact absurd hlost (s.not_losesOther n)
  | rejected he => rw [hquarantined _ rfl] at he; cases he
  | ends ht hops =>
    rw [ht]
    exact ⟨rfl, hops⟩
  | fails _ ht hat =>
    rw [ht]
    exact ⟨rfl, hat⟩
  | through ht hdelivered hops =>
    rw [ht]
    dsimp only
    rw [if_neg (Nat.not_lt.2 (le_of_delivered hdelivered))]
    exact ⟨rfl, hops⟩
  | interrupted _ ht hlost hat =>
    rw [ht]
    dsimp only
    rw [if_pos (lt_of_lost hlost)]
    exact ⟨rfl, hat⟩

/-- **Every outcome of the turns is what some handling does.**  The alerts are lost up to the turn
that is to go through, which is known by the number of calls the model has answered. -/
theorem Surroundings.handles_of_outcome (hesc : s.Escalates d rules message) {may : Prop}
    (ho : Turn.Outcome (s.turn d message) may p l) :
    ∃ n, (¬may → n = 0) ∧ (may → p.1 + 1 ≤ n) ∧ ∀ w ops, At s message p ops w →
      ∃ w', (s.env n).Handles d rules message w w' ∧ w'.mutations = ops ++ l := by
  classical
  have hstart : ∀ k : Nat, ∃ n, (¬may → n = 0) ∧ (may → k ≤ n) ∧ n ≤ k := by
    intro k
    by_cases hmay : may
    · exact ⟨k, fun h => absurd hmay h, fun _ => Nat.le_refl k, Nat.le_refl k⟩
    · exact ⟨0, fun _ => rfl, fun h => absurd h hmay, Nat.zero_le k⟩
  induction ho with
  | @ends p l hturn =>
    obtain ⟨n, hzero, hle, -⟩ := hstart (p.1 + 1)
    refine ⟨n, hzero, hle, fun w ops hat => ?_⟩
    have hattempt := attempt_env hesc n hat
    rw [hturn] at hattempt
    exact ⟨_, .returns hattempt.1, hattempt.2⟩
  | @fails p q l hturn _ ih =>
    obtain ⟨n, hzero, hle, hrest⟩ := ih
    refine ⟨n, hzero, fun hmay => ?_, fun w ops hat => ?_⟩
    · obtain ⟨-, hasked, -⟩ := turn_retries (.inl hturn)
      have hn := hle hmay
      omega
    · have hattempt := attempt_env hesc n hat
      rw [hturn] at hattempt
      obtain ⟨w', hhandles, hops⟩ := hrest _ ops hattempt.2
      exact ⟨w', .again hattempt.1 hhandles, hops⟩
  | @through p q a b hturn =>
    obtain ⟨n, hzero, hle, hn⟩ := hstart (p.1 + 1)
    refine ⟨n, hzero, hle, fun w ops hat => ?_⟩
    have hattempt := attempt_env hesc n hat
    obtain ⟨_, _, -, -, hq⟩ := turn_exposed hturn
    have hlt : ¬q.1 < n := by
      rw [hq]
      exact Nat.not_lt.2 hn
    simp only [hturn, if_neg hlt] at hattempt
    exact ⟨_, .returns hattempt.1, hattempt.2⟩
  | @interrupted p q a b l hturn hmay _ ih =>
    obtain ⟨n, hzero, hle, hrest⟩ := ih
    obtain ⟨_, _, -, -, hq⟩ := turn_exposed hturn
    have hn := hle hmay
    have hnext : q.1 = p.1 + 1 := by rw [hq]
    refine ⟨n, hzero, fun _ => by omega, fun w ops hat => ?_⟩
    have hattempt := attempt_env hesc n hat
    have hlt : q.1 < n := by omega
    simp only [hturn, if_pos hlt] at hattempt
    obtain ⟨w', hhandles, hops⟩ := hrest _ _ hattempt.2
    exact ⟨w', .again hattempt.1 hhandles, hops.trans (List.append_assoc _ _ _)⟩

end Handle

/-! ## Lost alerts and triage -/

/-- Two handlings of the message that differ in their alerter alone make the same mutations. -/
def Surroundings.TriageUnaffected (s : Surroundings) (d : Deployment) (rules : List Rule)
    (message : NormalizedMessage) (db : StateDB) : Prop :=
  ∀ (good bad : Env) (w w' : World), good.Steady s message → good.Delivers →
    bad.Steady s message → bad.MayLose → good.Handles d rules message ⟨db, []⟩ w →
    bad.Handles d rules message ⟨db, []⟩ w' → w.mutations = w'.mutations

/-- **When lost alerts do not show.**  The mutations of an escalated message are the same whether
its alerts are delivered or not exactly if interruptions of its turns are harmless. -/
theorem lost_alerts_harmless_iff (d : Deployment) (rules : List Rule) (message : NormalizedMessage)
    (s : Surroundings) (db : StateDB) (hesc : s.Escalates d rules message)
    (hfresh : db.hasProcessed message.messageId = false) :
    s.TriageUnaffected d rules message db ↔
      Turn.Harmless (s.turn d message) (0, (db.getLlmUsage s.date).calls) := by
  have hat : At s message (0, (db.getLlmUsage s.date).calls) [] ⟨db, []⟩ := ⟨rfl, rfl, hfresh, rfl⟩
  rw [← Turn.harmless_iff Surroundings.turn_halves]
  constructor
  · intro h l l' ho ho'
    obtain ⟨n, hzero, -, hgood⟩ := Surroundings.handles_of_outcome hesc ho
    obtain ⟨n', -, -, hbad⟩ := Surroundings.handles_of_outcome hesc ho'
    obtain ⟨w, hw, hops⟩ := hgood _ _ hat
    obtain ⟨w', hw', hops'⟩ := hbad _ _ hat
    have hsame := h (s.env n) (s.env n') w w' (s.env_steady n)
      (hzero id ▸ s.env_delivers) (s.env_steady n') (s.env_mayLose n') hw hw'
    rwa [hops, hops', List.nil_append, List.nil_append] at hsame
  · intro h good bad w w' hgood hdelivers hbad hlose hw hw'
    obtain ⟨l, ho, hops⟩ := (hw.outcome hgood hdelivers.mayLose hesc
      fun _ hn => hdelivers.not_announces hn).1 _ _ hat
    obtain ⟨l', ho', hops'⟩ := (hw'.outcome hbad hlose hesc fun _ _ => trivial).1 _ _ hat
    rw [hops, hops', h l l' ho ho']

/-! ### A model that does not change its mind -/

section Alike

variable {s : Surroundings} {d : Deployment} {message : NormalizedMessage}

/-- The model answers every attempt alike. -/
def Surroundings.Alike (s : Surroundings) (d : Deployment) (message : NormalizedMessage) : Prop :=
  ∀ n stripped, s.model n (s.request d message stripped) = s.model 0 (s.request d message stripped)

/-- While there is budget, all turns are of one kind. -/
theorem Surroundings.turn_alike (halike : s.Alike d message) {p q : Nat × Nat}
    (hp : ¬d.tiering.dailyCallBudget ≤ p.2) (hq : ¬d.tiering.dailyCallBudget ≤ q.2) :
    (∀ l, s.turn d message p = .ends l → s.turn d message q = .ends l) ∧
      (∀ t, s.turn d message p = .fails t → ∃ t', s.turn d message q = .fails t') ∧
      ∀ a b t, s.turn d message p = .exposed a b t →
        s.turn d message q = .exposed a b (q.1 + 1, q.2 + 1) := by
  unfold turn
  rw [if_neg hp, if_neg hq]
  cases s.stripped with
  | error e =>
    dsimp only [rejected]
    split
    · exact ⟨fun l h => h, fun t h => (by cases h), fun a b t h => (by cases h)⟩
    · exact ⟨fun l h => (by cases h), fun t _ => ⟨_, rfl⟩, fun a b t h => (by cases h)⟩
  | ok stripped =>
    dsimp only [asked, rejected, settled]
    rw [halike p.1, halike q.1]
    split
    · split
      · exact ⟨fun l h => h, fun t h => (by cases h), fun a b t h => (by cases h)⟩
      · exact ⟨fun l h => (by cases h), fun t _ => ⟨_, rfl⟩,
          fun a b t h => (by cases h)⟩
    · split
      · split
        · split
          · exact ⟨fun l h => h, fun t h => (by cases h), fun a b t h => (by cases h)⟩
          · exact ⟨fun l h => (by cases h), fun t _ => ⟨_, rfl⟩,
              fun a b t h => (by cases h)⟩
        · split
          · exact ⟨fun l h => h, fun t h => (by cases h), fun a b t h => (by cases h)⟩
          · split
            · refine ⟨fun l h => (by cases h), fun t h => (by cases h), fun a b t h => ?_⟩
              injection h with ha hb
              rw [ha, hb]
            · exact ⟨fun l h => h, fun t h => (by cases h), fun a b t h => (by cases h)⟩
      · exact ⟨fun l h => (by cases h), fun t _ => ⟨_, rfl⟩,
          fun a b t h => (by cases h)⟩

theorem Surroundings.turn_exhausted {p : Nat × Nat} (h : d.tiering.dailyCallBudget ≤ p.2) :
    s.turn d message p = .ends [] := by
  rw [turn, if_pos h]

/-- Retrying an exposed turn uses up the budget. -/
theorem Surroundings.exists_exhausted (halike : s.Alike d message) {p q : Nat × Nat} {a b : List Op}
    (h : s.turn d message p = .exposed a b q) :
    ∃ t, Relation.ReflTransGen (Turn.Retries (s.turn d message)) q t ∧
      d.tiering.dailyCallBudget ≤ t.2 := by
  obtain ⟨hp, -⟩ := turn_retries (.inr ⟨a, b, h⟩)
  have hreach : ∀ k : Nat, ∃ t, Relation.ReflTransGen (Turn.Retries (s.turn d message)) q t ∧
      (k ≤ t.2 ∨ d.tiering.dailyCallBudget ≤ t.2) := by
    intro k
    induction k with
    | zero => exact ⟨q, .refl, .inl (Nat.zero_le _)⟩
    | succ k ih =>
      obtain ⟨t, ht, hcalls⟩ := ih
      by_cases hgone : d.tiering.dailyCallBudget ≤ t.2
      · exact ⟨t, ht, .inr hgone⟩
      · have hnext := (turn_alike halike hp hgone).2.2 a b q h
        exact ⟨_, ht.tail (.inr ⟨a, b, hnext⟩),
          .inl (Nat.succ_le_succ (hcalls.resolve_right hgone))⟩
  obtain ⟨t, ht, hcalls⟩ := hreach d.tiering.dailyCallBudget.toNat
  exact ⟨t, ht, by omega⟩

/-- Only the first turn can be the first exposed one. -/
theorem Surroundings.eq_of_fails (halike : s.Alike d message) {p p' q : Nat × Nat} {a b : List Op}
    (hfails : Relation.ReflTransGen (Turn.Fails (s.turn d message)) p p')
    (h : s.turn d message p' = .exposed a b q) : p' = p := by
  rcases Relation.ReflTransGen.cases_head hfails with heq | ⟨t, hfirst, -⟩
  · exact heq.symm
  · obtain ⟨hp, -⟩ := turn_retries (.inl hfirst)
    obtain ⟨hp', -⟩ := turn_retries (.inr ⟨a, b, h⟩)
    obtain ⟨t', ht'⟩ := (turn_alike halike hp hp').2.1 t hfirst
    rw [h] at ht'
    cases ht'

/-- For such a model lost alerts do not show exactly if no alert is due, or there is no draft and
either nothing is applied or this is the last call of the day. -/
theorem Surroundings.harmless_iff_of_alike (halike : s.Alike d message) (p : Nat × Nat) :
    Turn.Harmless (s.turn d message) p ↔ ∀ a b q, s.turn d message p = .exposed a b q →
      b = [] ∧ (a = [] ∨ d.tiering.dailyCallBudget ≤ p.2 + 1) := by
  constructor
  · intro h a b q hturn
    obtain ⟨hp, -⟩ := turn_retries (.inr ⟨a, b, hturn⟩)
    obtain ⟨_, _, -, -, hq⟩ := turn_exposed hturn
    have hnil : b = [] := by
      obtain ⟨t, ht, hgone⟩ := exists_exhausted halike hturn
      exact (h p q a b .refl hturn t [] ht (by rw [turn_exhausted hgone]; rfl)).symm
    refine ⟨hnil, ?_⟩
    by_cases hlast : d.tiering.dailyCallBudget ≤ p.2 + 1
    · exact .inr hlast
    · have hnext := (turn_alike halike hp (q := q) (by rw [hq]; exact hlast)).2.2 a b q hturn
      have hab := h p q a b .refl hturn q (a ++ b) .refl (by rw [hnext]; rfl)
      rw [hnil, List.append_nil] at hab
      exact .inl hab
  · intro h p' q a b hfails hexposed t l ht hl
    obtain rfl := eq_of_fails halike hfails hexposed
    obtain ⟨hnil, hlast⟩ := h a b q hexposed
    obtain ⟨hp, -⟩ := turn_retries (.inr ⟨a, b, hexposed⟩)
    have hlater : p'.2 + 1 ≤ t.2 := by
      obtain ⟨_, _, -, -, rfl⟩ := turn_exposed hexposed
      exact retries_le ht
    by_cases hgone : d.tiering.dailyCallBudget ≤ t.2
    · rw [turn_exhausted hgone] at hl
      cases hl
      exact hnil.symm
    · rw [(turn_alike halike hp hgone).2.2 a b q hexposed] at hl
      cases hl
      rcases hlast with ha | hlast
      · rw [ha, List.nil_append]
      · omega

end Alike

/-! ### An urgent letter -/

/-- A verdict that the message belongs in the archive, and that somebody should know. -/
def urgentVerdict : Verdict := { filingVerdict with urgency := .high }

/-- A model that is sure of it. -/
def urgentSurroundings : Surroundings where
  clock := "2026-01-05T09:00:00+00:00"
  classification := { category := "newsletter" }
  thread := ⟨none, false⟩
  mailboxes := ["Inbox", "Archive"]
  context := ⟨[]⟩
  stripped := .ok "Hello"
  model _ _ := .ok ⟨urgentVerdict, ⟨10, 10⟩⟩

/-- With one call a day the letter is filed once, alert or no alert. -/
theorem lost_alerts_harmless_iff_letter :
    urgentSurroundings.TriageUnaffected oneCall [] letter .empty := by
  refine (lost_alerts_harmless_iff oneCall [] letter urgentSurroundings .empty
    (fun _ _ _ => ⟨_, rfl, rfl⟩) rfl).2 ?_
  refine (Surroundings.harmless_iff_of_alike (fun _ _ => rfl) _).2 ?_
  intro a b q hturn
  have hdraft : (match urgentSurroundings.turn oneCall letter
      (0, (StateDB.empty.getLlmUsage urgentSurroundings.date).calls) with
    | .exposed _ b _ => b.isEmpty
    | _ => true) = true := by decide +kernel
  rw [hturn] at hdraft
  exact ⟨List.isEmpty_iff.1 hdraft, .inr (by decide)⟩

/-- A deployment with a budget of two calls. -/
def twoCalls : Deployment :=
  { oneCall with tiering := { oneCall.tiering with dailyCallBudget := 2 } }

/-- **With a second call left, a letter whose first alert is lost is filed twice.** -/
theorem lost_alert_applies_twice :
    ¬∀ (d : Deployment) (rules : List Rule) (message : NormalizedMessage) (s : Surroundings)
        (db : StateDB), s.Escalates d rules message →
      db.hasProcessed message.messageId = false → s.TriageUnaffected d rules message db := by
  intro hclaim
  have hsame := hclaim twoCalls [] letter urgentSurroundings .empty (fun _ _ _ => ⟨_, rfl, rfl⟩) rfl
    (urgentSurroundings.env 0) (urgentSurroundings.env 2) _ _ (Surroundings.env_steady 0)
    Surroundings.env_delivers (Surroundings.env_steady 2) (Surroundings.env_mayLose 2)
    (.returns (by decide +kernel)) (.again (by decide +kernel) (.returns (by decide +kernel)))
  exact absurd (congrArg List.length hsame) (by decide +kernel)

end Spork
