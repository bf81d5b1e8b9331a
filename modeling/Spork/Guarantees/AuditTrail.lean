import Spork.Runtime

/-!
# The audit trail explains every mark

A row of `processed_messages` says that a message is finished; a row of `audit_log` says why.  Every
branch of both tiers, and the quarantine, writes the audit row first and the mark second, with one
clock reading for both, so a store in which a mark stands without its explanation is never reached,
whatever raises and wherever a run is cut off.

The invariant is `Explained`.  It only looks at two tables, and only a mark can break it; so all
that has to be checked is that each mark comes after its own audit row (`auditThenMark_keeps`,
`settle_keeps`, `quarantine_keeps`), and the rest is composition.
-/

set_option autoImplicit false

namespace Spork

open Effects Machine

/-- The log holds a row about message `id` with timestamp `ts`. -/
def AuditLog.Mentions (log : AuditLog) (id ts : String) : Prop :=
  ∃ e ∈ log.entries, e.jmapId = id ∧ e.ts = ts

/-- Every processed row has an audit row of the same message and the same time. -/
def Explained (db : StateDB) : Prop :=
  ∀ id row, db.processedMessages id = some row → db.auditLog.Mentions id row.processedAt

theorem explained_empty : Explained .empty := by
  intro id row h
  cases h

theorem AuditLog.Mentions.mono {log log' : AuditLog} {id ts : String}
    (h : log.Mentions id ts) (hlog : log.entries <+: log'.entries) : log'.Mentions id ts := by
  obtain ⟨e, he, hid⟩ := h
  exact ⟨e, hlog.subset he, hid⟩

theorem AuditLog.mentions_insert (log : AuditLog) (ts id event : String) (detail : Option String) :
    (log.insert ts id event detail).Mentions id ts :=
  ⟨_, by rw [AuditLog.entries_insert]; exact List.mem_append_right _ (List.mem_singleton_self _),
    rfl, rfl⟩

/-- A mark that is explained keeps the invariant. -/
theorem Explained.markProcessed {db : StateDB} (h : Explained db) {id : String}
    {row : ProcessedRow} (hid : db.auditLog.Mentions id row.processedAt) :
    Explained (db.markProcessed id row) := by
  intro id' row' hrow
  rw [StateDB.processedMessages_markProcessed] at hrow
  by_cases he : id' = id
  · subst he
    rw [Function.update_self, Option.some_inj] at hrow
    exact hrow ▸ hid
  · rw [Function.update_of_ne he] at hrow
    exact h id' row' hrow

/-! ## What keeps the invariant -/

section Keeps

variable {A : Allowed} {α : Type} {w w' : World}

/-- A call that marks nothing keeps the invariant. -/
theorem Responds.explained {op : Op} {r : Except Exn op.Ret} (hr : Responds A w op r w')
    (hop : op.marks = none) (hw : Explained w.db) : Explained w'.db := by
  intro id row hrow
  rw [hr.processedMessages hop] at hrow
  exact (hw id row hrow).mono hr.grows.auditLog

theorem keeps_explained {p : Proc α} (hp : p.Only fun op : Op => op.marks = none) :
    (machine A).Keeps (fun w => Explained w.db) p :=
  keeps_of_only (fun _ _ _ _ hop hw hr => hr.explained hop hw) hp

theorem keeps_of_supporting {p : Proc α} (hp : p.Only Op.Supporting) :
    (machine A).Keeps (fun w => Explained w.db) p :=
  keeps_explained (hp.mono fun _ h => h.marks)

/-- The mark, once the audit row stands. -/
theorem markProcessed_explained {id : String} (row : ProcessedRow) (hw : Explained w.db)
    (hid : w.db.auditLog.Mentions id row.processedAt) :
    (machine A).wp (fun w => Explained w.db) (call (.markProcessed id row))
    (fun _ _ => True) w := by
  refine wp_call hw (fun u db' _ hg => ?_) (fun e _ _ => ⟨hw, trivial⟩)
  rw [gives_markProcessed] at hg
  exact ⟨hg ▸ hw.markProcessed hid, trivial⟩

/-- The audit row, and then whatever may rely on it. -/
theorem writeAuditEntry_bind_explained {β : Type} {ts id event : String} {detail : Option String}
    {f : Unit → Proc β} (hw : Explained w.db)
    (hf : ∀ w', Explained w'.db → w'.db.auditLog.Mentions id ts →
      (machine A).wp (fun w => Explained w.db) (f ()) (fun _ _ => True) w') :
    (machine A).wp (fun w => Explained w.db) (call (.writeAuditEntry ts id event detail) >>= f)
      (fun _ _ => True) w := by
  refine wp_call_bind hw (fun u db' hA hg => ?_) (fun e _ _ => ⟨hw, trivial⟩)
  refine hf _ ((Responds.answers hA hg).explained rfl hw) ?_
  rw [gives_writeAuditEntry] at hg
  exact hg ▸ AuditLog.mentions_insert _ ts id event detail

theorem Tier1.auditThenMark_keeps (message : NormalizedMessage) (ts event : String)
    (detail : Option String) {row : ProcessedRow} (hrow : row.processedAt = ts) :
    (machine A).Keeps (fun w => Explained w.db) (auditThenMark message ts event detail row) :=
  fun _ hw => writeAuditEntry_bind_explained hw fun _ hw' hid =>
    markProcessed_explained _ hw' (hrow ▸ hid)

theorem Tier1.runBranch_keeps {deps : Tier1Deps} (hdeps : deps.Wired)
    (message : NormalizedMessage) (ts : String) (verdict : RuleVerdict) :
    (machine A).Keeps (fun w => Explained w.db) (runBranch deps message ts verdict) := by
  have hexecute : (machine A).Keeps (fun w => Explained w.db)
      (deps.executor.execute message verdict.action) :=
    keeps_explained (ActionExecutor.execute_only fun _ =>
      (hdeps.applier.only message verdict.action).mono fun op h => h ▸ rfl)
  rw [runBranch]
  split
  · refine (keeps_of_supporting (alertIfImmediate_only hdeps.alert message verdict)).bind
      fun _ => ?_
    exact keeps_explained (Prog.only_perform.2 rfl)
  · split
    · exact keeps_done
    · rename_i components hc
      refine (keeps_of_supporting (archiveReceipt_only (hdeps.receiptArchive components hc)
        message (some ts))).bind fun detail => ?_
      exact auditThenMark_keeps message ts _ _ rfl
  · exact hexecute.bind fun _ => auditThenMark_keeps message ts _ _ rfl

theorem processMessage_keeps {deps : Tier1Deps} (hdeps : deps.Wired) (force : Bool)
    (message : NormalizedMessage) (rules : List Rule) :
    (machine A).Keeps (fun w => Explained w.db) (processMessage deps force message rules) := by
  have hungated : (machine A).Keeps (fun w => Explained w.db)
      (Tier1.processUngated deps message rules) := by
    refine (keeps_explained (Prog.only_perform.2 rfl)).bind fun ts => ?_
    refine (keeps_explained (Prog.only_perform.2 rfl)).bind fun _ => ?_
    refine (keeps_of_supporting (evaluate_only (fun c hc => hdeps.classify c hc message) rules
      deps.defaultUnmatchedAction)).bind fun verdict => ?_
    exact (Tier1.runBranch_keeps hdeps message ts verdict).bind fun _ => keeps_done
  rw [processMessage_eq]
  refine .ite hungated ((keeps_explained (Prog.only_perform.2 rfl)).bind fun seen => ?_)
  exact .ite keeps_done hungated

/-! ### Tier 2 -/

theorem Tier2.perform_keeps {deps : EscalateDeps} (hdeps : deps.Wired)
    (message : NormalizedMessage) (verdict : Verdict) (band : ConfidenceBand) :
    (machine A).Keeps (fun w => Explained w.db) (perform deps.tier2 message verdict band) := by
  have hact : ∀ c : Bool, ∀ t b u, (machine A).Keeps (fun w => Explained w.db) (do
      deps.tier2.executor.execute message verdict.suggestedAction
      if c then deps.tier2.ops.alert t b u else pure ()) := by
    intro c t b u
    refine (keeps_explained (ActionExecutor.execute_only fun _ =>
      (hdeps.applier.only message verdict.suggestedAction).mono fun op h => h ▸ rfl)).bind
        fun _ => ?_
    exact .ite (keeps_of_supporting (hdeps.alert t b u)) keeps_done
  cases band with
  | alertOnly => exact keeps_of_supporting (hdeps.alert _ _ _)
  | autoact => exact hact _ _ _ _
  | autoactAlert => exact hact _ _ _ _

theorem Tier2.draft_keeps {deps : EscalateDeps} (hdeps : deps.Wired)
    (message : NormalizedMessage) (verdict : Verdict) :
    (machine A).Keeps (fun w => Explained w.db) (draft deps.tier2 message verdict) := by
  rw [draft]
  split
  · exact keeps_done
  · exact keeps_explained ((hdeps.createDraft message _).mono fun op h => h ▸ rfl)

theorem Tier2.settle_keeps {deps : EscalateDeps} (hdeps : deps.Wired)
    (message : NormalizedMessage) (ts : String) (verdict : Verdict) (band : ConfidenceBand) :
    (machine A).Keeps (fun w => Explained w.db) (settle deps.tier2 message ts verdict band) := by
  refine (perform_keeps hdeps message verdict band).bind fun _ => ?_
  refine (draft_keeps hdeps message verdict).bind fun _ => ?_
  refine fun w hw => writeAuditEntry_bind_explained hw fun w' hw' hid => ?_
  -- serialising the verdict comes between the audit row and the mark
  refine wp_call_bind hw' (fun json db' hA hg => ?_) (fun e _ _ => ⟨hw', trivial⟩)
  have hr : Responds A w' _ _ _ := Responds.answers hA hg
  exact markProcessed_explained _ (hr.explained rfl hw') (hid.mono hr.grows.auditLog)

theorem Tier2.askModel_keeps {deps : EscalateDeps} (hdeps : deps.Wired)
    (input : Tier2Input) (ts : String) :
    (machine A).Keeps (fun w => Explained w.db) (askModel deps.tier2 input ts) := by
  refine (keeps_of_supporting (hdeps.getContext input.message)).bind fun context => ?_
  refine Keeps.bind ?_ fun cleaned => ?_
  · exact (keeps_explained (Prog.only_perform.2 rfl)).bind fun _ => keeps_done
  · refine (keeps_explained ((hdeps.getVerdict _).mono fun _ h => h.marks)).bind fun result => ?_
    exact (keeps_explained (Prog.only_perform.2 rfl)).bind fun _ => keeps_done

theorem processTier2Message_keeps {deps : EscalateDeps} (hdeps : deps.Wired)
    (input : Tier2Input) :
    (machine A).Keeps (fun w => Explained w.db) (processTier2Message deps.tier2 input) := by
  rw [processTier2Message_eq]
  refine (keeps_explained (Prog.only_perform.2 rfl)).bind fun ts => ?_
  refine (keeps_explained (Prog.only_perform.2 rfl)).bind fun _ => ?_
  refine (keeps_explained (Prog.only_perform.2 rfl)).bind fun usage => .ite ?_ ?_
  · refine (Tier2.askModel_keeps hdeps input ts).bind fun verdict => ?_
    refine Keeps.bind keeps_done fun accepted => ?_
    exact (Tier2.settle_keeps hdeps input.message ts accepted.1 accepted.2).bind fun _ => keeps_done
  · refine Keeps.bind ?_ fun _ => keeps_done
    refine (keeps_of_supporting (hdeps.alert _ _ _)).bind fun _ => ?_
    exact Tier1.auditThenMark_keeps input.message ts _ _ rfl

theorem quarantine_keeps {deps : EscalateDeps} (hdeps : deps.Wired)
    (message : NormalizedMessage) (e : Exn) :
    (machine A).Keeps (fun w => Explained w.db) (quarantine deps.tier2.ops message e) := by
  refine (keeps_explained (Prog.only_perform.2 rfl)).bind fun ts => ?_
  refine fun w hw => writeAuditEntry_bind_explained hw fun w' hw' hid => ?_
  refine wp_bind.2 (wp_mono (fun _ h => h) (fun r w'' hw'' _ => ?_)
    (markProcessed_explained (quarantinedRow message ts) hw' hid))
  cases r with
  | error e => exact ⟨hw'', trivial⟩
  | ok u =>
    have hrest : (machine A).Keeps (fun w => Explained w.db) (do
        let _ ← call .newCorrelationId
        deps.tier2.ops.alert "Tier 2 verdict quarantined"
          (pyRepr message.subject ++ " from " ++ message.fromAddress ++ ": " ++ e.message) .critical
        pure (EscalationResult.quarantinedMessage e.message)) := by
      refine (keeps_explained (Prog.only_perform.2 rfl)).bind fun _ => ?_
      exact (keeps_of_supporting (hdeps.alert _ _ _)).bind fun _ => keeps_done
    exact hrest w'' hw''

theorem escalateMessageOrQuarantine_keeps {deps : EscalateDeps} (hdeps : deps.Wired)
    (message : NormalizedMessage) :
    (machine A).Keeps (fun w => Explained w.db) (escalateMessageOrQuarantine deps message) := by
  refine Keeps.tryCatch (Keeps.bind ?_ fun _ => keeps_done) fun e =>
    .ite (quarantine_keeps hdeps message e) keeps_done
  refine (keeps_of_supporting (hdeps.getThreadContext message)).bind fun context => ?_
  refine (keeps_of_supporting hdeps.listMailboxes).bind fun mailboxes => ?_
  exact processTier2Message_keeps hdeps _

end Keeps

/-! ## Runs -/

/-- `write_control_plane_audit_entry`: an audit row that is about no message. -/
def writeControlPlaneAuditEntry (ts event : String) (detailJson : Option String) : Proc Unit :=
  call (.writeAuditEntry ts "" event detailJson)

/-- The programs that write to the store. -/
inductive Job where
  | processMessage (force : Bool) (message : NormalizedMessage) (rules : List Rule)
  | processTier2Message (input : Tier2Input)
  | escalateMessageOrQuarantine (message : NormalizedMessage)
  | writeControlPlaneAuditEntry (ts event : String) (detailJson : Option String)

/-- Run one job of a deployment. -/
def Job.run (d : Deployment) : Job → Proc Unit
  | .processMessage force message rules => do
    let _ ← Spork.processMessage d.tier1 force message rules
    pure ()
  | .processTier2Message input => do
    let _ ← Spork.processTier2Message d.tier2 input
    pure ()
  | .escalateMessageOrQuarantine message => do
    let _ ← Spork.escalateMessageOrQuarantine d.escalation message
    pure ()
  | .writeControlPlaneAuditEntry ts event detailJson =>
    Spork.writeControlPlaneAuditEntry ts event detailJson

theorem Job.run_keeps {A : Allowed} (d : Deployment) (job : Job) :
    (machine A).Keeps (fun w => Explained w.db) (job.run d) := by
  cases job with
  | processMessage force message rules =>
    exact (processMessage_keeps d.tier1_wired force message rules).bind fun _ => keeps_done
  | processTier2Message input =>
    exact (processTier2Message_keeps d.escalation_wired input).bind
      fun _ => keeps_done
  | escalateMessageOrQuarantine message =>
    exact (escalateMessageOrQuarantine_keeps d.escalation_wired message).bind
      fun _ => keeps_done
  | writeControlPlaneAuditEntry ts event detailJson =>
    exact keeps_explained (Prog.only_perform.2 rfl)

/-- The log at any point of a run is a prefix of the log at any later point. -/
theorem reaches_grows {A : Allowed} {α : Type} {p p' : Proc α} {w w' : World}
    (h : (machine A).Reaches p w p' w') : w.db.Grows w'.db := by
  have hkeeps : (machine A).Keeps (fun w'' => w.db.Grows w''.db) p :=
    keeps_of_only (C := fun _ => True) (fun _ _ _ _ _ hw hr => hw.trans (Responds.grows hr))
      (Prog.only_true p)
  exact hkeeps.reaches (.refl _) h

/-- **Every processed mark is explained in the audit trail**, in every state that any sequence of
jobs reaches from a fresh store, each of them cut off or raising wherever it may.  Audit ids are
strictly increasing there, and from any configuration on, whatever runs next only ever appends to
the log. -/
theorem auditTrail_explains_marks (d : Deployment) :
    (∀ jobs w, (machine anything).Attempts (Job.run d) jobs ⟨.empty, []⟩ w →
      (∀ id row, w.db.processedMessages id = some row →
        ∃ e ∈ w.db.auditLog.entries, e.jmapId = id ∧ e.ts = row.processedAt) ∧
      w.db.auditLog.entries.Pairwise fun a b => a.id < b.id) ∧
    ∀ (job : Job) (p p' : Proc Unit) (w₀ w w' : World),
      (machine anything).Reaches (job.run d) w₀ p w → (machine anything).Reaches p w p' w' →
        w.db.auditLog.entries <+: w'.db.auditLog.entries := by
  refine ⟨fun jobs w h => ⟨?_, w.db.auditLog.increasing⟩, fun _ _ _ _ _ _ _ h =>
    (reaches_grows h).auditLog⟩
  exact Attempts.keeps (fun job => Job.run_keeps d job) h explained_empty

/-- On a quiet day `letter` is escalated and then ignored, and its mark is explained. -/
theorem auditTrail_explains_marks_quiet : ∃ w row,
    (machine anything).Attempts (Job.run oneCall)
      [(.processMessage false letter [], true), (.escalateMessageOrQuarantine letter, true)]
      ⟨.empty, []⟩ w ∧
    w.db.processedMessages "M1" = some row ∧
    (∃ e ∈ w.db.auditLog.entries, e.jmapId = "M1" ∧ e.ts = row.processedAt) ∧
    w.db.auditLog.entries.Pairwise fun a b => a.id < b.id := by
  let w₁ := (Env.quiet.eval (Job.run oneCall (.processMessage false letter [])) ⟨.empty, []⟩).2
  obtain ⟨_, hprocessed⟩ := Env.quiet_returns (w := ⟨.empty, []⟩)
    (show (Env.quiet.eval (Job.run oneCall (.processMessage false letter [])) _).1.isOk = true by
      decide +kernel)
  obtain ⟨_, hescalated⟩ := Env.quiet_returns (w := w₁)
    (show (Env.quiet.eval (Job.run oneCall (.escalateMessageOrQuarantine letter)) _).1.isOk =
      true by
      decide +kernel)
  have hrun := Attempts.returned hprocessed (.returned hescalated .nil)
  obtain ⟨row, hrow⟩ := Option.isSome_iff_exists.1 (show Option.isSome ((Env.quiet.eval
    (Job.run oneCall (.escalateMessageOrQuarantine letter)) w₁).2.db.processedMessages "M1") =
      true by
      decide +kernel)
  obtain ⟨hexplained, hids⟩ := (auditTrail_explains_marks oneCall).1 _ _ hrun
  exact ⟨_, row, hrun, hrow, hexplained "M1" row hrow, hids⟩

end Spork
