import Spork.Guarantees.Handling
import Spork.Guarantees.Markup
import Spork.Llm.LiteLLM

/-!
# A bad response is quarantined

Whatever the completion call raises, and whatever object it returns,
`escalate_message_or_quarantine` is to come back with a result and leave a row behind.  The argument
is a bookkeeping of exceptions (`Machine.RaisesOnly`): up to the mark, only the three quarantinable
classes are raised, and the handler raises nothing.

Three things have to be kept out.  Thresholds in the wrong order are rejected for every verdict, on
purpose, and that is a `ValueError`.  A response may be unreadable in a way the client does not
translate, or carry token counts the store cannot take (`CompletionResponse.Readable`).  And the
HTML parser may refuse the body before the model is asked.
-/

set_option autoImplicit false

namespace Spork

open Effects Machine

/-- The deployment's escalation, with the in-process LiteLLM client. -/
def Deployment.liteLLM (d : Deployment) : EscalateDeps :=
  { d.escalation with tier2 := { d.tier2 with llmClient := liteLLMClient } }

/-- Reading the response gives token counts that can be recorded, or an exception of one of the
classes the client translates. -/
def CompletionResponse.Readable (response : CompletionResponse) : Prop :=
  match readResponse response with
  | .ok result => result.usage.Recordable
  | .error e => e.cls.invalidResponse = true

/-- Only the model may fail, and it does so in a way the client translates; and the HTML parser may,
but for `body`. -/
def modelMisbehaves (body : String) : Allowed
  | .completion _, r => ∀ response, r = .ok response → response.Readable
  | .feedHtml text, r => text = body → r.isOk = true
  | .recordLlmCall _ i o, r => (⟨i, o⟩ : LLMCallUsage).Recordable → r.isOk = true
  | _, r => r.isOk = true

/-- The machine in which `message` is handled while the model misbehaves. -/
abbrev misbehaving (message : NormalizedMessage) : Machine sig World :=
  machine (modelMisbehaves message.bodyText)

section Raises

variable {d : Deployment} {message : NormalizedMessage} {body : String} {E : Exn → Prop}

/-- A call that is not allowed to fail. -/
theorem raisesOnly_works (op : Op) (h : ∀ e, ¬modelMisbehaves body op (.error e)) :
    (machine (modelMisbehaves body)).RaisesOnly E (call op) :=
  raisesOnly_call op fun _ e hA _ => absurd hA (h e)

/-- The client raises its own error only, and what it returns can be recorded. -/
theorem getVerdict_raises (request : VerdictRequest) (w : World) :
    (machine (modelMisbehaves body)).wp (fun _ => True) (LiteLLMClient.getVerdict request)
      (fun r _ => (∀ e, r = .error e → e.cls = .liteLLMClientError) ∧
        ∀ result, r = .ok result → result.usage.Recordable) w := by
  refine wp_bind.2 (wp_tryCatch.2 (wp_call trivial (fun response db' hA _ => ⟨trivial, trivial, ?_⟩)
    fun e _ _ => ⟨trivial, trivial, ⟨trivial, fun _ h => by cases h; rfl, fun _ h => by cases h⟩⟩))
  have hreadable : response.Readable := hA response rfl
  rw [CompletionResponse.Readable] at hreadable
  show (machine (modelMisbehaves body)).wp _ (ofExcept (parseResponse response)) _ _
  rw [parseResponse]
  cases hread : readResponse response with
  | ok result =>
    rw [hread] at hreadable
    exact ⟨trivial, (fun _ h => by cases h), fun _ h => by cases h; exact hreadable⟩
  | error e =>
    rw [hread] at hreadable
    dsimp only at hreadable ⊢
    rw [if_pos hreadable]
    exact ⟨trivial, (fun _ h => by cases h; rfl), fun _ h => by cases h⟩

/-- Asking the model raises the client's error only. -/
theorem askModel_raises (input : Tier2Input) (ts : String) :
    (misbehaving input.message).RaisesOnly (fun e => e.cls.quarantinable = true)
      (Tier2.askModel d.liteLLM.tier2 input ts) := by
  have hcontext : (misbehaving input.message).RaisesOnly (fun e => e.cls.quarantinable = true)
      (d.liteLLM.tier2.contextProvider.getContext input.message) :=
    raisesOnly_works _ fun _ h => by cases h
  have hcleaned : (misbehaving input.message).RaisesOnly (fun e => e.cls.quarantinable = true)
      (Tier2.cleanBody input.message.bodyText d.liteLLM.tier2.tiering.maxBodyChars) :=
    (raisesOnly_works _ fun _ h => by cases h rfl).bind fun _ => raisesOnly_pure
  refine hcontext.bind fun context => hcleaned.bind fun cleaned => fun w => ?_
  refine wp_bind.2 (wp_mono (fun _ h => h) (fun r w' _ hr => ?_) (getVerdict_raises _ w))
  cases r with
  | error e => exact ⟨trivial, fun _ h => by cases h; rw [hr.1 e rfl]; rfl⟩
  | ok result =>
    have hrecord : (misbehaving input.message).RaisesOnly (fun e => e.cls.quarantinable = true)
        (call (.recordLlmCall (dateOf ts) result.usage.tokensIn result.usage.tokensOut)) :=
      raisesOnly_works _ fun _ h => by cases h (hr.2 result rfl)
    exact hrecord.bind (fun _ => raisesOnly_pure) w'

/-- Executing a verdict's action raises the executor's error only. -/
theorem settle_raises (ts : String) (verdict : Verdict) (band : ConfidenceBand) :
    (misbehaving message).RaisesOnly (fun e => e.cls.quarantinable = true)
      (Tier2.settle d.liteLLM.tier2 message ts verdict band) := by
  have halert : ∀ t b u, (misbehaving message).RaisesOnly
      (fun e => e.cls.quarantinable = true) (d.liteLLM.tier2.ops.alert t b u) :=
    fun t b u => raisesOnly_works (.notify t b u) fun _ h => by cases h
  have hexecute : (misbehaving message).RaisesOnly (fun e => e.cls.quarantinable = true)
      (d.liteLLM.tier2.executor.execute message verdict.suggestedAction) := by
    rcases d.liteLLM.tier2.executor.execute_cases message verdict.suggestedAction with
      ⟨he, _⟩ | ⟨he, _⟩ | ⟨e, he, hcls, _⟩ <;> rw [he]
    · exact raisesOnly_works (.apply _ _) fun _ h => by cases h
    · exact raisesOnly_pure
    · exact raisesOnly_raise (by rw [hcls]; rfl)
  have hperform : (misbehaving message).RaisesOnly (fun e => e.cls.quarantinable = true)
      (Tier2.perform d.liteLLM.tier2 message verdict band) := by
    cases band with
    | alertOnly => exact halert _ _ _
    | autoact => exact hexecute.bind fun _ => .ite (halert _ _ _) raisesOnly_pure
    | autoactAlert => exact hexecute.bind fun _ => .ite (halert _ _ _) raisesOnly_pure
  have hdraft : (misbehaving message).RaisesOnly (fun e => e.cls.quarantinable = true)
      (Tier2.draft d.liteLLM.tier2 message verdict) := by
    rw [Tier2.draft]
    split
    · exact raisesOnly_pure
    · exact raisesOnly_works (.createDraft _ _) fun _ h => by cases h
  refine hperform.bind fun _ => hdraft.bind fun _ => ?_
  refine (raisesOnly_works _ fun _ h => by cases h).bind fun _ => ?_
  exact (raisesOnly_works _ fun _ h => by cases h).bind fun _ =>
    raisesOnly_works _ fun _ h => by cases h

/-- With the thresholds in order, an escalation raises quarantinable errors only. -/
theorem escalateMessage_raises
    (hle : d.tiering.alertThreshold.le d.tiering.autoactThreshold = true) :
    (misbehaving message).RaisesOnly (fun e => e.cls.quarantinable = true)
      (escalateMessage d.liteLLM message) := by
  have hcall : ∀ op : Op, (∀ e, ¬modelMisbehaves message.bodyText op (.error e)) →
      (misbehaving message).RaisesOnly (fun e => e.cls.quarantinable = true) (call op) :=
    raisesOnly_works
  refine (hcall (.getThreadContext message) fun _ h => by cases h).bind fun context => ?_
  refine (hcall (.listMailboxes) fun _ h => by cases h).bind fun mailboxes => ?_
  rw [processTier2Message_eq]
  refine (hcall _ fun _ h => by cases h).bind fun ts => (hcall _ fun _ h => by cases h).bind
    fun _ => ?_
  refine (hcall _ fun _ h => by cases h).bind fun usage => .ite ?_ ?_
  · refine (askModel_raises _ ts).bind fun verdict => ?_
    rcases Tier2.accept_cases d.liteLLM.tier2 (tier2Input message context mailboxes) verdict with
      ⟨hok, _⟩ | ⟨e, herr, hcls, _⟩ | ⟨e, _, _, hnot⟩
    · rw [hok, ofExcept_ok, pure_bind]
      exact (settle_raises ts verdict _).bind fun _ => raisesOnly_pure
    · rw [herr]
      exact raisesOnly_raise (by rw [hcls]; rfl)
    · exact absurd (hle.symm.trans hnot) (by simp)
  · refine RaisesOnly.bind ?_ fun _ => raisesOnly_pure
    refine (hcall (.notify _ _ _) fun _ h => by cases h).bind fun _ => ?_
    exact (hcall _ fun _ h => by cases h).bind fun _ => hcall _ fun _ h => by cases h

/-- The handler raises nothing. -/
theorem quarantine_raises (e : Exn) :
    (misbehaving message).RaisesOnly E (quarantine d.liteLLM.tier2.ops message e) := by
  have hcall : ∀ op : Op, (∀ e, ¬modelMisbehaves message.bodyText op (.error e)) →
      (misbehaving message).RaisesOnly E (call op) := raisesOnly_works
  refine (hcall _ fun _ h => by cases h).bind fun ts => (hcall _ fun _ h => by cases h).bind
    fun _ => ?_
  refine (hcall _ fun _ h => by cases h).bind fun _ => (hcall _ fun _ h => by cases h).bind
    fun _ => ?_
  exact (hcall (.notify _ _ _) fun _ h => by cases h).bind fun _ => raisesOnly_pure

end Raises

/-! ## Every response -/

/-- Nothing fails but the completion call, and a response can be read or is turned away. -/
structure Env.OnlyModelFails (env : Env) : Prop where
  works : ∀ w op, (∀ request, op ≠ .completion request) → op.parsesHtml = false →
    (env w op).isOk = true
  readable : ∀ w request response, env w (.completion request) = .ok response → response.Readable

theorem Env.OnlyModelFails.lawful {env : Env} (h : env.OnlyModelFails) : env.Lawful := by
  intro w op e he
  by_cases hop : (∃ request, op = .completion request) ∨ op.parsesHtml = true
  · cases op with
    | completion | feedHtml => trivial
    | _ => simp [Op.parsesHtml] at hop
  · rw [not_or, Bool.not_eq_true] at hop
    have hok := h.works w op (fun request heq => hop.1 ⟨request, heq⟩) hop.2
    rw [he] at hok
    cases hok

theorem Env.OnlyModelFails.allowed {env : Env} (h : env.OnlyModelFails) {body : String}
    (hbody : ∀ w, (env w (.feedHtml body)).isOk = true) (w : World) (op : Op) :
    modelMisbehaves body op (env.answer w op).1 := by
  cases op with
  | completion request => exact fun response hresponse => h.readable w request response hresponse
  | feedHtml text =>
    intro htext
    subst htext
    exact hbody w
  | recordLlmCall date i o =>
    refine fun hrecordable => Env.answer_isOk ?_ fun _ _ _ hop => by cases hop; exact hrecordable
    exact h.works w _ (fun _ h => by cases h) rfl
  | _ =>
    refine Env.answer_isOk ?_ fun _ _ _ hop => by cases hop
    exact h.works w _ (fun _ h => by cases h) rfl

/-- **A bad response is quarantined.**  With the thresholds in order, everything but the model
working and a body that the HTML parser accepts, an escalation over the LiteLLM client returns,
whatever the completion call raises and whatever readable response it returns, and the message has
its row. -/
theorem bad_response_quarantined (d : Deployment) (message : NormalizedMessage) (env : Env)
    (html5 : Html5) (hle : d.tiering.alertThreshold.le d.tiering.autoactThreshold = true)
    (henv : env.OnlyModelFails) (hparses : env.Parses (htmlParser html5))
    (haccepted : ∀ piece ∈ HtmlParser.pieces message.bodyText.toList, piece.Accepted) (w : World) :
    ∃ result w', env.eval (escalateMessageOrQuarantine d.liteLLM message) w = (.ok result, w') ∧
      w'.db.hasProcessed message.messageId = true := by
  have hbody : ∀ w, (env w (.feedHtml message.bodyText)).isOk = true := by
    intro w
    obtain ⟨chunks, hfeed⟩ := (feed_ok_iff_accepted html5 _).2 haccepted
    rw [hparses, stripHtml, hfeed]
    rfl
  have hrun := Env.reaches henv.lawful (henv.allowed hbody)
    (escalateMessageOrQuarantine d.liteLLM message) w
  have hreturns : (misbehaving message).RaisesOnly (fun _ => False)
      (escalateMessageOrQuarantine d.liteLLM message) := by
    refine RaisesOnly.tryCatch ((escalateMessage_raises hle).bind fun _ => raisesOnly_pure)
      fun e he => ?_
    rw [if_pos he]
    exact quarantine_raises e
  have hmarks := (wp_reaches (escalateMessageOrQuarantine_marks d.liteLLM message w) hrun).2
  cases heval : env.eval (escalateMessageOrQuarantine d.liteLLM message) w with
  | mk r w' =>
    cases r with
    | error e => exact ((wp_reaches (hreturns w) hrun).2 e (by rw [heval])).elim
    | ok result =>
      rw [heval] at hmarks
      exact ⟨result, w', rfl, hmarks rfl⟩

/-! ### Responses that get through -/

/-- A day on which the completion call does nothing but raise. -/
def Env.failing : Env := fun _ op =>
  match op with
  | .completion _ => .error ⟨.other "TimeoutError", "timed out"⟩
  | .feedHtml text => stripHtml (htmlParser commonCharrefs) text
  | op => .ok (quietAnswer op)

theorem bad_response_quarantined_failing : ∃ result w',
    Env.failing.eval (escalateMessageOrQuarantine oneCall.liteLLM letter) ⟨.empty, []⟩
      = (.ok result, w') ∧ w'.db.hasProcessed "M1" = true := by
  refine bad_response_quarantined oneCall letter Env.failing commonCharrefs (by decide +kernel)
    ⟨?_, ?_⟩ (fun _ _ => rfl)
    ((feed_ok_iff_accepted commonCharrefs "Hello").1 ⟨["Hello"], by decide +kernel⟩) _
  · intro w op hop hparses
    cases op with
    | completion request => exact absurd rfl (hop request)
    | feedHtml => cases hparses
    | _ => rfl
  · intro w request response h
    cases h

/-- A configuration that alerts later than it acts. -/
def reversed : Deployment where
  tiering :=
    { oneCall.tiering with
      alertThreshold := .fin (9 / 10)
      autoactThreshold := .fin (1 / 10) }

/-- An escalation in which the completion call returns the quiet verdict. -/
structure AnsweredRun where
  deployment : Deployment := oneCall
  body : String := "Hello"
  /-- What the response says of its input. -/
  promptTokens : UsageValue := .int 10
  /-- How the verdict is written down. -/
  json : Except Exn String := .ok "{}"

/-- The collaborators of such a run. -/
def AnsweredRun.env (run : AnsweredRun) : Env := fun _ op =>
  match op with
  | .completion _ => .ok
      { toolCalls := .ok (some [.ok ⟨.ok "deliver_verdict", .ok quietVerdict⟩])
        usage := .ok ⟨.ok run.promptTokens, .ok (.int 10)⟩ }
  | .feedHtml text => stripHtml (htmlParser commonCharrefs) text
  | .modelDumpJson _ => run.json
  | op => .ok (quietAnswer op)

/-- How such a run ends. -/
def AnsweredRun.ends (run : AnsweredRun) : Except Exn EscalationResult × World :=
  run.env.eval (escalateMessageOrQuarantine run.deployment.liteLLM
    { letter with bodyText := run.body }) ⟨.empty, []⟩

/-- The thresholds are reversed; the number of tokens is negative, or infinite, which `int` rejects
with an exception that is not listed; the verdict cannot be written down; the body is refused. -/
def escapingRuns : List AnsweredRun :=
  [{ deployment := reversed }, { promptTokens := .int (-1) }, { promptTokens := .float .posInf },
    { json := .error ⟨.pydanticSerializationError, "Error serializing to JSON"⟩ },
    { body := "<![foo]>" }]

/-- **Five escalations that raise instead, and leave no row**, though the store, the provider, the
context provider and the alerter work. -/
theorem bad_response_escapes :
    (∀ run ∈ escapingRuns, ∀ w op, op.parsesHtml = false →
      (∀ verdict, op ≠ .modelDumpJson verdict) → ∃ a, run.env w op = .ok a) ∧
    ∀ run ∈ escapingRuns, run.ends.1.isOk = false ∧
      run.ends.2.db.hasProcessed letter.messageId = false := by
  refine ⟨fun run _ w op hparses hdump => ?_, by decide +kernel⟩
  cases op with
  | feedHtml => cases hparses
  | modelDumpJson verdict => exact absurd rfl (hdump verdict)
  | _ => exact ⟨_, rfl⟩

end Spork
