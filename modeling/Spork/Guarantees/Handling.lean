import Spork.Cli.Reclassify

/-!
# What handling a message comes to

Three facts about `handleMessage` carry most of what is said about runs of the daemon and the
backfill.

* Its calls are about this message only, and none of them is one of the loop's own
  (`handleMessage_only`).
* When it returns, the message has a row (`handleMessage_marks`): terminal, archived, settled,
  skipped for the budget or quarantined, every branch that ends does so behind a mark.
* On no path does it apply more than one action (`handleMessage_applies`): Tier 1 applies one
  or hands the message on, and a quarantine applies none.

All three are read off the straight-line program, and none depends on what the collaborators
answer.
-/

set_option autoImplicit false

namespace Spork

open Effects Machine

/-! ## What may be called -/

/-- The calls of everything but the gate and the model. -/
inductive SettlingCall (message : NormalizedMessage) : Op → Prop where
  | supporting {op : Op} (h : op.Supporting) : SettlingCall message op
  | apply {action : Action} (h : action.Acts) : SettlingCall message (.apply message action)
  | draft {body : String} : SettlingCall message (.createDraft message body)
  | audit {ts event : String} {detail : Option String} :
      SettlingCall message (.writeAuditEntry ts message.messageId event detail)
  | mark {row : ProcessedRow} : SettlingCall message (.markProcessed message.messageId row)

/-- The calls of asking the model for a verdict. -/
inductive AskingCall : Op → Prop where
  | supporting {op : Op} (h : op.Supporting) : AskingCall op
  | asksModel {op : Op} (h : op.AsksModel) : AskingCall op
  | record {date : String} {i o : Int} : AskingCall (.recordLlmCall date i o)

/-- The calls behind the gate. -/
inductive ProcessingCall (message : NormalizedMessage) : Op → Prop where
  | settling {op : Op} (h : SettlingCall message op) : ProcessingCall message op
  | asking {op : Op} (h : AskingCall op) : ProcessingCall message op

/-- The calls that handling `message` may make. -/
inductive HandlingCall (message : NormalizedMessage) : Op → Prop where
  | settling {op : Op} (h : SettlingCall message op) : HandlingCall message op
  | asking {op : Op} (h : AskingCall op) : HandlingCall message op
  | gate : HandlingCall message (.hasProcessed message.messageId)

section Footprint

variable {α : Type} {message : NormalizedMessage}

theorem only_supporting {p : Proc α} (h : p.Only Op.Supporting) :
    p.Only (SettlingCall message) := h.mono fun _ => .supporting

theorem only_call {op : Op} (h : SettlingCall message op) :
    (call op).Only (SettlingCall message) := Prog.only_perform.2 h

theorem execute_only {executor : ActionExecutor} (h : executor.applier.Wired) (action : Action) :
    (executor.execute message action).Only (SettlingCall message) :=
  ActionExecutor.execute_only fun hacts =>
    (h.only message action).mono fun _ hop => hop ▸ .apply hacts

theorem auditThenMark_only (ts event : String) (detail : Option String) (row : ProcessedRow) :
    (Tier1.auditThenMark message ts event detail row).Only (SettlingCall message) :=
  (only_call .audit).bind fun _ => only_call .mark

theorem Tier1.runBranch_only {deps : Tier1Deps} (hdeps : deps.Wired) (ts : String)
    (verdict : RuleVerdict) :
    (runBranch deps message ts verdict).Only (SettlingCall message) := by
  rw [runBranch]
  split
  · exact (only_supporting (alertIfImmediate_only hdeps.alert message verdict)).bind
      fun _ => only_call .audit
  · split
    · trivial
    · rename_i components hc
      exact (only_supporting (archiveReceipt_only (hdeps.receiptArchive components hc) message
        (some ts))).bind fun _ => auditThenMark_only _ _ _ _
  · exact (execute_only hdeps.applier verdict.action).bind fun _ => auditThenMark_only _ _ _ _

theorem Tier2.settle_only {deps : EscalateDeps} (hdeps : deps.Wired) (ts : String)
    (verdict : Verdict) (band : ConfidenceBand) :
    (settle deps.tier2 message ts verdict band).Only (SettlingCall message) := by
  have hact : ∀ c : Bool, ∀ t b u, Prog.Only (SettlingCall message) (do
      deps.tier2.executor.execute message verdict.suggestedAction
      if c then deps.tier2.ops.alert t b u else pure ()) := fun c t b u =>
    (execute_only hdeps.applier verdict.suggestedAction).bind fun _ =>
      .ite (only_supporting (hdeps.alert t b u)) trivial
  have hperform : (perform deps.tier2 message verdict band).Only (SettlingCall message) := by
    cases band with
    | alertOnly => exact only_supporting (hdeps.alert _ _ _)
    | autoact => exact hact _ _ _ _
    | autoactAlert => exact hact _ _ _ _
  have hdraft : (draft deps.tier2 message verdict).Only (SettlingCall message) := by
    rw [draft]
    split
    · trivial
    · exact (hdeps.createDraft message _).mono fun _ hop => hop ▸ .draft
  refine hperform.bind fun _ => hdraft.bind fun _ => (only_call .audit).bind fun _ => ?_
  exact (only_call (.supporting (by trivial))).bind fun json => only_call .mark

theorem Tier2.skipModel_only {deps : EscalateDeps} (hdeps : deps.Wired) (ts : String) :
    (skipModel deps.tier2 message ts).Only (SettlingCall message) :=
  (only_supporting (hdeps.alert _ _ _)).bind fun _ => auditThenMark_only _ _ _ _

theorem quarantine_only {deps : EscalateDeps} (hdeps : deps.Wired) (e : Exn) :
    (quarantine deps.tier2.ops message e).Only (SettlingCall message) := by
  refine (only_call (.supporting (by trivial))).bind fun ts => (only_call .audit).bind fun _ => ?_
  refine (only_call .mark).bind fun _ => (only_call (.supporting (by trivial))).bind fun _ => ?_
  exact (only_supporting (hdeps.alert _ _ _)).bind fun _ => trivial

theorem Tier2.askModel_only {deps : EscalateDeps} (hdeps : deps.Wired) (input : Tier2Input)
    (ts : String) : (askModel deps.tier2 input ts).Only AskingCall := by
  refine ((hdeps.getContext input.message).mono fun _ => .supporting).bind fun context => ?_
  refine Prog.Only.bind (Prog.Only.bind (Prog.only_perform.2 (.supporting (by trivial)))
    fun _ => trivial) fun cleaned => ?_
  refine ((hdeps.getVerdict _).mono fun _ => .asksModel).bind fun result => ?_
  exact Prog.Only.bind (Prog.only_perform.2 .record) fun _ => trivial

theorem processTier2Message_only {deps : EscalateDeps} (hdeps : deps.Wired) (input : Tier2Input) :
    (processTier2Message deps.tier2 input).Only (ProcessingCall input.message) := by
  have hcall : ∀ {op : Op}, op.Supporting → (call op).Only (ProcessingCall input.message) :=
    fun h => Prog.only_perform.2 (.settling (.supporting h))
  rw [processTier2Message_eq]
  refine (hcall (by trivial)).bind fun ts => (hcall (by trivial)).bind fun _ => ?_
  refine (hcall (by trivial)).bind fun usage => .ite ?_ ?_
  · refine ((Tier2.askModel_only hdeps input ts).mono fun _ => .asking).bind fun verdict => ?_
    refine Prog.Only.bind trivial fun accepted => ?_
    exact ((Tier2.settle_only hdeps ts accepted.1 accepted.2).mono fun _ => .settling).bind
      fun _ => trivial
  · exact ((Tier2.skipModel_only hdeps ts).mono fun _ => .settling).bind fun _ => trivial

theorem escalateMessageOrQuarantine_only {deps : EscalateDeps} (hdeps : deps.Wired) :
    (escalateMessageOrQuarantine deps message).Only (ProcessingCall message) := by
  have hsupporting : ∀ {α : Type} {p : Proc α}, p.Only Op.Supporting →
      p.Only (ProcessingCall message) := fun h => h.mono fun _ h => .settling (.supporting h)
  refine Prog.Only.tryCatch (Prog.Only.bind ?_ fun _ => trivial) fun e =>
    .ite ((quarantine_only hdeps e).mono fun _ => .settling) trivial
  refine (hsupporting (hdeps.getThreadContext message)).bind fun context => ?_
  refine (hsupporting hdeps.listMailboxes).bind fun mailboxes => ?_
  exact processTier2Message_only hdeps (tier2Input message context mailboxes)

theorem reclassifyMessage_only {deps : MessageDeps} (hdeps : deps.Wired) (rules : List Rule) :
    (reclassifyMessage deps rules message).Only (ProcessingCall message) := by
  have hcall : ∀ {op : Op}, op.Supporting → (call op).Only (ProcessingCall message) :=
    fun h => Prog.only_perform.2 (.settling (.supporting h))
  rw [reclassifyMessage_eq]
  refine (hcall (by trivial)).bind fun ts => (hcall (by trivial)).bind fun _ => ?_
  refine ((evaluate_only (fun c hc => hdeps.tier1.classify c hc message) rules
    deps.tier1.defaultUnmatchedAction).mono fun _ h => .settling (.supporting h)).bind
    fun verdict => ?_
  refine ((Tier1.runBranch_only hdeps.tier1 ts verdict).mono fun _ => .settling).bind fun _ => ?_
  exact .ite ((escalateMessageOrQuarantine_only hdeps.escalation).bind fun _ => trivial) trivial

/-- A message is handled behind its gate. -/
theorem handleMessage_gate (message : NormalizedMessage) {deps : MessageDeps} (hdeps : deps.Wired)
    (rules : List Rule) :
    ∃ rest : Bool → Proc (Option RuleVerdict × Option EscalationResult),
      handleMessage deps rules message = call (.hasProcessed message.messageId) >>= rest ∧
        ∀ seen, (rest seen).Only (ProcessingCall message) :=
  ⟨_, handleMessage_eq_reclassifyMessage deps rules message,
    fun _ => .ite trivial (reclassifyMessage_only hdeps rules)⟩

/-- **Handling a message calls nothing that is about another message, or about the loop.** -/
theorem handleMessage_only {deps : MessageDeps} (hdeps : deps.Wired) (rules : List Rule) :
    (handleMessage deps rules message).Only (HandlingCall message) := by
  obtain ⟨rest, heq, hrest⟩ := handleMessage_gate message hdeps rules
  rw [heq]
  refine Prog.Only.bind (Prog.only_perform.2 .gate) fun seen => (hrest seen).mono fun op h => ?_
  cases h with
  | settling h => exact .settling h
  | asking h => exact .asking h

end Footprint

/-! ## A handled message has a row -/

/-- Whenever `p` returns, message `id` has a row. -/
def Marks (A : Allowed) {α : Type} (id : String) (p : Proc α) : Prop :=
  ∀ w, (machine A).wp (fun _ => True) p (fun r w' => r.isOk = true → w'.db.hasProcessed id = true) w

section Marks

variable {A : Allowed} {α β : Type} {id : String}

theorem marks_raise {e : Exn} : Marks A id (Prog.raise e : Proc α) :=
  fun _ => ⟨trivial, fun h => by cases h⟩

/-- The rest marks it. -/
theorem Marks.bind_right {p : Proc α} {f : α → Proc β} (hf : ∀ a, Marks A id (f a)) :
    Marks A id (p >>= f) := wp_bind_right hf fun _ _ h => by cases h

/-- A mark is there to stay. -/
theorem keeps_hasProcessed (p : Proc α) :
    (machine A).Keeps (fun w => w.db.hasProcessed id = true) p := by
  refine keeps_of_only (C := fun _ => True) (fun w op r w' _ hw hr => ?_) (Prog.only_true p)
  exact (Responds.grows hr).hasProcessed id hw

/-- It is marked already, and stays so. -/
theorem Marks.bind_left {p : Proc α} {f : α → Proc β} (hp : Marks A id p) :
    Marks A id (p >>= f) := by
  intro w
  refine wp_bind.2 (wp_mono (fun _ h => h) (fun r w' _ hr => ?_) (hp w))
  cases r with
  | ok a =>
    refine wp_mono (p := f a) (fun _ _ => trivial) ?_ (keeps_hasProcessed (f a) w' (hr rfl))
    exact fun _ _ hw'' _ _ => hw''
  | error e => exact marks_raise w'

theorem Marks.tryCatch {p : Proc α} {h : Exn → Proc α} (hp : Marks A id p)
    (hh : ∀ e, Marks A id (h e)) : Marks A id (p.tryCatch h) := by
  intro w
  refine wp_tryCatch.2 (wp_mono (fun _ h => h) (fun r w' _ hr => ?_) (hp w))
  cases r with
  | ok a => exact ⟨trivial, hr⟩
  | error e => exact hh e w'

theorem Marks.ite {c : Prop} [Decidable c] {p q : Proc α} (hp : Marks A id p)
    (hq : Marks A id q) : Marks A id (if c then p else q) := by
  split
  · exact hp
  · exact hq

theorem marks_markProcessed {row : ProcessedRow} : Marks A id (call (.markProcessed id row)) := by
  intro w
  refine wp_call trivial (fun u db' _ hg => ⟨trivial, fun _ => ?_⟩)
    (fun e _ _ => ⟨trivial, fun h => by cases h⟩)
  rw [gives_markProcessed] at hg
  rw [World.db_record, ← hg, StateDB.hasProcessed, StateDB.processedMessages_markProcessed,
    Function.update_self]
  rfl

end Marks

section Handle

variable {A : Allowed}

theorem Tier1.runBranch_marks (deps : Tier1Deps) (message : NormalizedMessage) (ts : String)
    (verdict : RuleVerdict) (h : verdict.action.type ≠ .escalate) :
    Marks A message.messageId (runBranch deps message ts verdict) := by
  have hmark : ∀ event detail row,
      Marks A message.messageId (auditThenMark message ts event detail row) :=
    fun _ _ _ => .bind_right fun _ => marks_markProcessed
  rw [runBranch]
  split
  · rename_i ht
    exact absurd ht h
  · split
    · exact marks_raise
    · exact .bind_right fun _ => hmark _ _ _
  · exact .bind_right fun _ => hmark _ _ _

theorem processTier2Message_marks (deps : Tier2Deps) (input : Tier2Input) :
    Marks A input.message.messageId (processTier2Message deps input) := by
  rw [processTier2Message_eq]
  refine .bind_right fun ts => .bind_right fun _ => .bind_right fun usage => .ite ?_ ?_
  · refine .bind_right fun verdict => .bind_right fun accepted => .bind_left ?_
    exact .bind_right fun _ => .bind_right fun _ => .bind_right fun _ => .bind_right fun _ =>
      marks_markProcessed
  · exact .bind_left (.bind_right fun _ => .bind_right fun _ => marks_markProcessed)

theorem quarantine_marks (ops : PipelineObserver) (message : NormalizedMessage) (e : Exn) :
    Marks A message.messageId (quarantine ops message e) :=
  .bind_right fun _ => .bind_right fun _ => .bind_left marks_markProcessed

theorem escalateMessageOrQuarantine_marks (deps : EscalateDeps) (message : NormalizedMessage) :
    Marks A message.messageId (escalateMessageOrQuarantine deps message) := by
  refine .tryCatch (.bind_left ?_) fun e => .ite (quarantine_marks _ message e) marks_raise
  exact .bind_right fun context => .bind_right fun mailboxes =>
    processTier2Message_marks deps.tier2 (tier2Input message context mailboxes)

/-- **When a message has been handled, it has a row.** -/
theorem handleMessage_marks (deps : MessageDeps) (rules : List Rule) (message : NormalizedMessage) :
    Marks A message.messageId (handleMessage deps rules message) := by
  intro w
  rw [handleMessage_eq]
  refine wp_call_bind trivial (fun seen db' _ hg => ?_)
    (fun e _ _ => ⟨trivial, fun h => by cases h⟩)
  obtain ⟨hseen, hdb⟩ := gives_hasProcessed.1 hg
  cases seen with
  | true => exact ⟨trivial, fun _ => hdb ▸ hseen⟩
  | false =>
    rw [if_neg Bool.false_ne_true]
    refine Marks.bind_right (fun ts => .bind_right fun _ => .bind_right fun verdict => ?_) _
    by_cases hescalate : verdict.action.type = .escalate
    · rw [if_pos hescalate]
      exact .bind_right fun _ => .bind_left
        (escalateMessageOrQuarantine_marks deps.escalation message)
    · exact .bind_left (Tier1.runBranch_marks deps.tier1 message ts verdict hescalate)

end Handle

/-! ## A handled message is acted on at most once -/

/-- The message a call applies an action to, if that is what it does. -/
def Op.appliesTo : Op → Option String
  | .apply message _ => some message.messageId
  | _ => none

/-- An event is a successful application of an action to message `id`. -/
def Event.applied (id : String) : Event → Bool
  | ⟨.apply message _, .ok _⟩ => decide (message.messageId = id)
  | _ => false

/-- How many actions have been applied to message `id`. -/
def World.applied (w : World) (id : String) : Nat := w.trace.countP (Event.applied id)

/-- One call applies at most one action. -/
theorem Responds.applied_le {A : Allowed} {w w' : World} {op : Op} {r : Except Exn op.Ret}
    (h : Responds A w op r w') (id : String) :
    w'.applied id ≤ w.applied id + if op.appliesTo = some id then 1 else 0 := by
  rw [World.applied, World.applied, h.trace, List.countP_append, List.countP_singleton]
  refine Nat.add_le_add_left ?_ _
  cases op with
  | apply message action =>
    cases r with
    | ok u => simp [Event.applied, Op.appliesTo]
    | error e => simp [Event.applied]
  | _ => simp [Event.applied]

section AtMost

variable {α : Type} {id : String}

/-- Actions applied to `id`, counted along the paths of a program. -/
abbrev Applies (id : String) (n : Nat) (p : Proc α) : Prop :=
  p.AtMost (fun op : Op => op.appliesTo = some id) n

theorem Op.Supporting.appliesTo {op : Op} (h : op.Supporting) : op.appliesTo = none := by
  cases op <;> first | exact h.elim | rfl

theorem Op.AsksModel.appliesTo {op : Op} (h : op.AsksModel) : op.appliesTo = none := by
  cases op <;> first | exact h.elim | rfl

theorem applies_of_supporting (n : Nat) {p : Proc α} (h : p.Only Op.Supporting) :
    Applies id n p :=
  Prog.atMost_of_only n (h.mono fun op hop => by rw [hop.appliesTo]; simp)

theorem applies_call {op : Op} (n : Nat) (h : op.appliesTo = none) : Applies id n (call op) :=
  Prog.atMost_of_only n (Prog.only_perform.2 (by rw [h]; simp))

theorem execute_applies {executor : ActionExecutor} (h : executor.applier.Wired)
    (message : NormalizedMessage) (action : Action) :
    Applies id (if message.messageId = id then 1 else 0) (executor.execute message action) := by
  rcases executor.execute_cases message action with ⟨he, _⟩ | ⟨he, _⟩ | ⟨e, he, _⟩ <;> rw [he]
  · rcases h message action with ha | ha <;> rw [ha]
    · split
      · exact Prog.atMost_perform
      · rename_i hid
        exact Prog.atMost_of_only 0 (Prog.only_perform.2 (by simpa [Op.appliesTo] using hid))
    · trivial
  · trivial
  · trivial

/-- One for the message that is being handled, and none for any other. -/
def share (message : NormalizedMessage) (id : String) : Nat :=
  if message.messageId = id then 1 else 0

variable {message : NormalizedMessage}

theorem auditThenMark_applies (ts event : String) (detail : Option String) (row : ProcessedRow) :
    Applies id 0 (Tier1.auditThenMark message ts event detail row) :=
  (applies_call 0 rfl).bind_left fun _ => applies_call 0 rfl

theorem Tier1.runBranch_applies {deps : Tier1Deps} (hdeps : deps.Wired)
    (message : NormalizedMessage) (id ts : String) (verdict : RuleVerdict) :
    Applies id (if verdict.action.type = .escalate then 0 else share message id)
      (runBranch deps message ts verdict) := by
  rw [runBranch]
  cases ht : verdict.action.type with
  | escalate =>
    exact (applies_of_supporting 0 (alertIfImmediate_only hdeps.alert message verdict)).bind_left
      fun _ => applies_call 0 rfl
  | archiveReceipt =>
    cases hr : deps.receiptArchive with
    | none => trivial
    | some components =>
      exact (applies_of_supporting _ (archiveReceipt_only (hdeps.receiptArchive components hr)
        message (some ts))).bind_left fun detail => auditThenMark_applies _ _ _ _
  | move | tag | ignore =>
    exact (execute_applies hdeps.applier message verdict.action).bind_left fun _ =>
      auditThenMark_applies _ _ _ _

theorem Tier2.perform_applies {deps : EscalateDeps} (hdeps : deps.Wired) (verdict : Verdict)
    (band : ConfidenceBand) :
    Applies id (share message id) (perform deps.tier2 message verdict band) := by
  have hact : ∀ c : Bool, ∀ t b u, Applies id (share message id) (do
      deps.tier2.executor.execute message verdict.suggestedAction
      if c then deps.tier2.ops.alert t b u else pure ()) := fun c t b u =>
    (execute_applies hdeps.applier message verdict.suggestedAction).bind_left fun _ =>
      .ite (applies_of_supporting 0 (hdeps.alert t b u)) trivial
  cases band with
  | alertOnly => exact applies_of_supporting _ (hdeps.alert _ _ _)
  | autoact => exact hact _ _ _ _
  | autoactAlert => exact hact _ _ _ _

theorem Tier2.settle_applies {deps : EscalateDeps} (hdeps : deps.Wired) (ts : String)
    (verdict : Verdict) (band : ConfidenceBand) :
    Applies id (share message id) (settle deps.tier2 message ts verdict band) := by
  have hdraft : Applies id 0 (draft deps.tier2 message verdict) := by
    rw [draft]
    split
    · trivial
    · refine Prog.atMost_of_only 0 ((hdeps.createDraft message _).mono fun op hop => ?_)
      simp [hop, Op.appliesTo]
  refine (perform_applies hdeps verdict band).bind_left fun _ => ?_
  refine hdraft.bind_left fun _ => (applies_call 0 rfl).bind_left fun _ => ?_
  exact (applies_call 0 rfl).bind_left fun json => applies_call 0 rfl

theorem Tier2.askModel_applies {deps : EscalateDeps} (hdeps : deps.Wired) (input : Tier2Input)
    (ts : String) : Applies id 0 (askModel deps.tier2 input ts) := by
  refine (applies_of_supporting 0 (hdeps.getContext input.message)).bind_left fun context => ?_
  refine Prog.AtMost.bind_left ((applies_call 0 rfl).bind_left fun _ => trivial) fun cleaned => ?_
  refine Prog.AtMost.bind_left ?_ fun result => (applies_call 0 rfl).bind_left fun _ => trivial
  exact Prog.atMost_of_only 0 ((hdeps.getVerdict _).mono fun op hop => by rw [hop.appliesTo]; simp)

theorem processTier2Message_applies {deps : EscalateDeps} (hdeps : deps.Wired)
    (input : Tier2Input) :
    Applies id (share input.message id) (processTier2Message deps.tier2 input) := by
  rw [processTier2Message_eq]
  refine (applies_call 0 rfl).bind_right fun ts => (applies_call 0 rfl).bind_right fun _ => ?_
  refine (applies_call 0 rfl).bind_right fun usage => .ite ?_ ?_
  · refine (Tier2.askModel_applies hdeps input ts).bind_right fun verdict => ?_
    refine Prog.AtMost.bind_right trivial fun accepted => ?_
    exact (Tier2.settle_applies hdeps ts accepted.1 accepted.2).bind_left fun _ => trivial
  · refine Prog.AtMost.bind_left ?_ fun _ => trivial
    exact (applies_of_supporting _ (hdeps.alert _ _ _)).bind_left fun _ =>
      auditThenMark_applies _ _ _ _

theorem escalateMessageOrQuarantine_applies {deps : EscalateDeps} (hdeps : deps.Wired)
    (message : NormalizedMessage) :
    Applies id (share message id) (escalateMessageOrQuarantine deps message) := by
  have hquarantine : ∀ e, Applies id 0 (quarantine deps.tier2.ops message e) := by
    intro e
    refine (applies_call 0 rfl).bind_left fun ts => (applies_call 0 rfl).bind_left fun _ => ?_
    refine (applies_call 0 rfl).bind_left fun _ => (applies_call 0 rfl).bind_left fun _ => ?_
    exact (applies_of_supporting 0 (hdeps.alert _ _ _)).bind_left fun _ => trivial
  refine Prog.AtMost.tryCatch (Prog.AtMost.bind_left ?_ fun _ => trivial) fun e =>
    .ite (hquarantine e) trivial
  refine (applies_of_supporting 0 (hdeps.getThreadContext message)).bind_right fun context => ?_
  refine (applies_of_supporting 0 hdeps.listMailboxes).bind_right fun mailboxes => ?_
  exact processTier2Message_applies hdeps (tier2Input message context mailboxes)

/-- **Handling a message applies at most one action to it, and none to any other.** -/
theorem handleMessage_applies {deps : MessageDeps} (hdeps : deps.Wired) (rules : List Rule)
    (message : NormalizedMessage) :
    Applies id (share message id) (handleMessage deps rules message) := by
  rw [handleMessage_eq]
  refine (applies_call 0 rfl).bind_right fun seen => .ite trivial ?_
  refine (applies_call 0 rfl).bind_right fun ts => (applies_call 0 rfl).bind_right fun _ => ?_
  refine (applies_of_supporting 0 (evaluate_only (fun c hc => hdeps.tier1.classify c hc message)
    rules deps.tier1.defaultUnmatchedAction)).bind_right fun verdict => ?_
  have hbranch := Tier1.runBranch_applies hdeps.tier1 message id ts verdict
  by_cases hescalate : verdict.action.type = .escalate
  · -- Tier 1 applies nothing and hands the message on
    rw [if_pos hescalate] at hbranch
    rw [if_pos hescalate]
    exact hbranch.bind_right fun _ =>
      (escalateMessageOrQuarantine_applies hdeps.escalation message).bind_left fun _ => trivial
  · rw [if_neg hescalate] at hbranch
    rw [if_neg hescalate]
    exact hbranch.bind_left fun _ => trivial

end AtMost

end Spork
