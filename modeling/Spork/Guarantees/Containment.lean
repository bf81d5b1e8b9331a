import Spork.Guarantees.Handling

/-!
# What the model's output can touch

Everything a model says reaches the mailbox through one call, `ActionApplier.apply`.  This file
follows the events of one escalation and shows that such a call is *licensed*: the provider has
listed its mailbox, the model has returned its action, and the verdict it came with has passed both
gates.  The argument is about order.  Before the gates nothing is applied at all (`Clean`); behind
them there is one call, and what licenses it is already on the trace.

The second half is about quarantine.  Behind the gates, a quarantinable error could only come from
an applier, a draft creator or an alerter; where those raise none (`wellBehaved`), a quarantined
message has been left untouched.
-/

set_option autoImplicit false

namespace Spork

open Effects Machine

/-! ## Events of an escalation -/

/-- A call that applies an action or creates a draft. -/
def Op.Mutates : Op → Prop
  | .apply _ _ | .createDraft _ _ => True
  | _ => False

/-- Nothing has been applied and nothing drafted. -/
def Clean (es : List Event) : Prop := ∀ e ∈ es, ¬e.op.Mutates

/-- What has to be on the trace before the model's action may be applied. -/
structure Licensed (tiering : TieringConfig) (es : List Event) (action : Action) : Prop where
  acts : action.type = .move ∨ action.type = .tag
  mailbox : ∃ mailbox mailboxes, action.mailbox = some mailbox ∧ mailbox ∈ mailboxes ∧
    (⟨.listMailboxes, .ok mailboxes⟩ : Event) ∈ es
  verdict : ∃ request result, (⟨.getVerdict request, .ok result⟩ : Event) ∈ es ∧
    result.verdict.suggestedAction = action ∧
    result.verdict.category ∈ tiering.allowedCategories ∧
    tiering.alertThreshold.le result.verdict.confidence = true

/-- Every action applied was applied to `message` and licensed. -/
def Contained (tiering : TieringConfig) (message : NormalizedMessage) (es : List Event) : Prop :=
  ∀ e ∈ es, ∀ m action, e.op = .apply m action → m = message ∧ Licensed tiering es action

section Events

variable {tiering : TieringConfig} {message : NormalizedMessage} {es : List Event} {e : Event}
  {A : Allowed} {w₀ w w' : World} {op : Op} {r : Except Exn op.Ret} {F G : List Event → Prop}

theorem Licensed.append {action : Action} (h : Licensed tiering es action) :
    Licensed tiering (es ++ [e]) action := by
  obtain ⟨hacts, ⟨mailbox, mailboxes, hm, hin, hlisted⟩, ⟨request, result, hasked, hrest⟩⟩ := h
  exact ⟨hacts, ⟨mailbox, mailboxes, hm, hin, List.mem_append_left _ hlisted⟩,
    ⟨request, result, List.mem_append_left _ hasked, hrest⟩⟩

/-- One more event is contained if it applies nothing, or something licensed. -/
theorem Contained.append (h : Contained tiering message es)
    (he : ∀ m action, e.op = .apply m action → m = message ∧ Licensed tiering es action) :
    Contained tiering message (es ++ [e]) := by
  intro e' he' m action hop
  rcases List.mem_append.1 he' with he' | he'
  · obtain ⟨hm, hl⟩ := h e' he' m action hop
    exact ⟨hm, hl.append⟩
  · rw [List.mem_singleton] at he'
    subst he'
    obtain ⟨hm, hl⟩ := he m action hop
    exact ⟨hm, hl.append⟩

theorem Clean.contained (h : Clean es) : Contained tiering message es := by
  intro e he m action hop
  exact absurd (show e.op.Mutates by rw [hop]; trivial) (h e he)

theorem clean_stable : Stable (fun op => ¬op.Mutates) Clean := by
  intro es e hop h e' he'
  rcases List.mem_append.1 he' with he' | he'
  · exact h e' he'
  · rw [List.mem_singleton] at he'
    exact he' ▸ hop

theorem mem_stable {C : Op → Prop} : Stable C fun es => e ∈ es :=
  fun _ _ _ h => List.mem_append_left _ h

theorem Stable.and {C : Op → Prop} (hF : Stable C F) (hG : Stable C G) :
    Stable C fun es => F es ∧ G es := fun es e he h => ⟨hF es e he h.1, hG es e he h.2⟩

theorem contained_stable :
    Stable (fun op : Op => op.appliesTo = none) (Contained tiering message) := by
  intro es e hop h
  refine h.append fun m action he => ?_
  rw [he] at hop
  cases hop

end Events

/-! ## Licensed calls only -/

section Contained

variable {A : Allowed} {d : Deployment} {message : NormalizedMessage} {w₀ w : World}

/-- What is known when a verdict has been accepted: nothing has been applied, and its action, if it
is to be carried out, is licensed. -/
def Permitted (d : Deployment) (verdict : Verdict) (band : ConfidenceBand) (es : List Event) :
    Prop :=
  Clean es ∧ (band ≠ .alertOnly → verdict.suggestedAction.Acts →
    Licensed d.tiering es verdict.suggestedAction)

theorem Permitted.contained {verdict : Verdict} {band : ConfidenceBand}
    (hw : Since w₀ (Permitted d verdict band) w) : Since w₀ (Contained d.tiering message) w :=
  hw.mono fun _ h => h.1.contained

/-- A program that applies nothing stays contained. -/
theorem contained_of_only {α : Type} {p : Proc α} (hp : p.Only fun op : Op => op.appliesTo = none) :
    (machine A).Keeps (Since w₀ (Contained d.tiering message)) p :=
  keeps_since contained_stable hp

/-- The action. -/
theorem execute_contained {verdict : Verdict} {band : ConfidenceBand} (hband : band ≠ .alertOnly)
    (hw : Since w₀ (Permitted d verdict band) w) :
    (machine A).wp (Since w₀ (Contained d.tiering message))
      (d.tier2.executor.execute message verdict.suggestedAction) (fun _ _ => True) w := by
  rcases d.tier2.executor.execute_cases message verdict.suggestedAction with
    ⟨he, hacts⟩ | ⟨he, _⟩ | ⟨e, he, _⟩ <;> rw [he]
  · have happly : ∀ r w', Responds A w (.apply message verdict.suggestedAction) r w' →
        Since w₀ (Contained d.tiering message) w' := fun r w' hr =>
      hw.step hr fun es h => h.1.contained.append fun m action hop => by
        cases hop
        exact ⟨rfl, h.2 hband hacts⟩
    exact wp_call (Permitted.contained hw)
      (fun a db' hA hg => ⟨happly _ _ (.answers hA hg), trivial⟩)
      fun e hA h => ⟨happly _ _ (.raises hA h), trivial⟩
  · exact ⟨Permitted.contained hw, trivial⟩
  · exact ⟨Permitted.contained hw, trivial⟩

/-- The action and the alert. -/
theorem perform_contained {verdict : Verdict} {band : ConfidenceBand}
    (hw : Since w₀ (Permitted d verdict band) w) :
    (machine A).wp (Since w₀ (Contained d.tiering message))
      (Tier2.perform d.tier2 message verdict band) (fun _ _ => True) w := by
  have halert : ∀ t b u, (d.tier2.ops.alert t b u).Only fun op : Op => op.appliesTo = none :=
    fun t b u => Prog.only_perform.2 rfl
  have hact : band ≠ .alertOnly → ∀ (c : Bool) t b u,
      (machine A).wp (Since w₀ (Contained d.tiering message)) (do
        d.tier2.executor.execute message verdict.suggestedAction
        if c then d.tier2.ops.alert t b u else pure ()) (fun _ _ => True) w := by
    intro hband c t b u
    refine wp_bind.2 (wp_mono (fun _ h => h) (fun r w' hw' _ => ?_) (execute_contained hband hw))
    cases r with
    | error e => exact ⟨hw', trivial⟩
    | ok u => exact Keeps.ite (contained_of_only (halert t b _)) keeps_done w' hw'
  cases band with
  | alertOnly => exact contained_of_only (halert _ _ _) w (Permitted.contained hw)
  | autoact => exact hact (by simp) _ _ _ _
  | autoactAlert => exact hact (by simp) _ _ _ _

/-- From an accepted verdict on: whatever comes after the action applies nothing. -/
theorem settle_contained (ts : String) (verdict : Verdict) (band : ConfidenceBand)
    (hw : Since w₀ (Permitted d verdict band) w) :
    (machine A).wp (Since w₀ (Contained d.tiering message))
      (Tier2.settle d.tier2 message ts verdict band) (fun _ _ => True) w := by
  refine wp_bind.2 (wp_mono (fun _ h => h) (fun r w' hw' _ => ?_) (perform_contained hw))
  cases r with
  | error e => exact ⟨hw', trivial⟩
  | ok u =>
    refine contained_of_only (Prog.Only.bind ?_ fun _ => ?_) w' hw'
    · rw [Tier2.draft]
      split
      · trivial
      · exact Prog.only_perform.2 rfl
    · refine Prog.Only.bind (Prog.only_perform.2 rfl) fun _ => ?_
      exact Prog.Only.bind (Prog.only_perform.2 rfl) fun _ => Prog.only_perform.2 rfl

/-- What is on the trace once the model has answered with `verdict`. -/
def Answered (verdict : Verdict) (es : List Event) : Prop :=
  ∃ request result, (⟨.getVerdict request, .ok result⟩ : Event) ∈ es ∧ result.verdict = verdict

theorem answered_stable {C : Op → Prop} (verdict : Verdict) : Stable C (Answered verdict) := by
  rintro es e _ ⟨request, result, hmem, hverdict⟩
  exact ⟨request, result, List.mem_append_left _ hmem, hverdict⟩

/-- Asking the model mutates nothing, and the verdict it ends with is the model's. -/
theorem askModel_clean {F : List Event → Prop} (hF : Stable (fun op => ¬op.Mutates) F)
    (input : Tier2Input) (ts : String) (hw : Since w₀ F w) :
    (machine A).wp (Since w₀ F) (Tier2.askModel d.tier2 input ts)
      (fun r w' => ∀ verdict, r = .ok verdict →
        Since w₀ (fun es => F es ∧ Answered verdict es) w') w := by
  have hkeeps : ∀ {op : Op} {G : List Event → Prop}, ¬op.Mutates →
      Stable (fun op => ¬op.Mutates) G → (machine A).Keeps (Since w₀ G) (call op) :=
    fun hop hG => keeps_since hG (Prog.only_perform.2 hop)
  refine Keeps.wp_bind (hkeeps id hF) (fun _ h => h) hw (fun context w₁ hw₁ => ?_)
    fun _ _ _ _ h => by cases h
  refine Keeps.wp_bind (K := Since w₀ F) ((hkeeps id hF).bind fun _ => keeps_done) (fun _ h => h)
    hw₁ (fun cleaned w₂ hw₂ => ?_) fun _ _ _ _ h => by cases h
  refine wp_call_bind hw₂ (fun result db' hA hg => ?_) (fun e hA h => ?_)
  · have hw₃ : Since w₀ (fun es => F es ∧ Answered result.verdict es) _ :=
      hw₂.step (Responds.answers hA hg) fun es h =>
        ⟨hF es _ id h, _, result, List.mem_append_right _ (List.mem_singleton_self _), rfl⟩
    refine Keeps.wp_bind (hkeeps id (hF.and (answered_stable result.verdict)))
      (fun _ h => h.mono fun _ h => h.1) hw₃ (fun _ w₄ hw₄ => ⟨hw₄.mono fun _ h => h.1, ?_⟩)
      fun _ _ _ _ h => by cases h
    intro verdict hverdict
    cases hverdict
    exact hw₄
  · refine ⟨hw₂.step (Responds.raises hA h) fun es h => hF es _ id h, fun _ h => by cases h⟩

/-- A verdict that both gates have passed licenses its action. -/
theorem licensed_of_accept {input : Tier2Input} {verdict : Verdict} {es : List Event}
    (hlisted : (⟨.listMailboxes, .ok input.availableMailboxes⟩ : Event) ∈ es)
    (hanswered : Answered verdict es)
    (hadmissible : verdict.Admissible d.tiering.allowedCategories input.availableMailboxes)
    (hle : d.tiering.alertThreshold.le d.tiering.autoactThreshold = true)
    (hband : bandOf verdict.confidence d.tiering.alertThreshold d.tiering.autoactThreshold
      ≠ .alertOnly)
    (hacts : verdict.suggestedAction.Acts) : Licensed d.tiering es verdict.suggestedAction := by
  obtain ⟨request, result, hmem, rfl⟩ := hanswered
  obtain ⟨mailbox, hmailbox⟩ := Option.isSome_iff_exists.1 hacts.2
  exact ⟨hacts.1, ⟨mailbox, _, hmailbox, hadmissible.2 mailbox hmailbox, hlisted⟩,
    ⟨request, result, hmem, rfl, hadmissible.1, le_confidence_of_band hle hband⟩⟩

/-- Tier 2 is contained, given the mailboxes that the provider has listed. -/
theorem processTier2Message_contained (input : Tier2Input)
    (hw : Since w₀ (fun es => Clean es ∧
      (⟨.listMailboxes, .ok input.availableMailboxes⟩ : Event) ∈ es) w) :
    (machine A).wp (Since w₀ (Contained d.tiering input.message))
      (processTier2Message d.tier2 input) (fun _ _ => True) w := by
  have hstable : Stable (fun op => ¬op.Mutates) fun es => Clean es ∧
      (⟨.listMailboxes, .ok input.availableMailboxes⟩ : Event) ∈ es := clean_stable.and mem_stable
  have hcall : ∀ op : Op, ¬op.Mutates → (machine A).Keeps (Since w₀ fun es => Clean es ∧
      (⟨.listMailboxes, .ok input.availableMailboxes⟩ : Event) ∈ es) (call op) :=
    fun _ hop => keeps_since hstable (Prog.only_perform.2 hop)
  have hcontained : ∀ w, Since w₀ (fun es => Clean es ∧
      (⟨.listMailboxes, .ok input.availableMailboxes⟩ : Event) ∈ es) w →
      Since w₀ (Contained d.tiering input.message) w := fun _ h => h.mono fun _ h => h.1.contained
  rw [processTier2Message_eq]
  refine Keeps.wp_bind (hcall _ id) hcontained hw (fun ts w₁ hw₁ => ?_) fun _ _ _ => trivial
  refine Keeps.wp_bind (hcall _ id) hcontained hw₁ (fun _ w₂ hw₂ => ?_) fun _ _ _ => trivial
  refine Keeps.wp_bind (hcall _ id) hcontained hw₂ (fun usage w₃ hw₃ => ?_) fun _ _ _ => trivial
  split
  · refine wp_bind.2 (wp_mono hcontained (fun r w₄ hw₄ hr => ?_)
      (askModel_clean hstable input ts hw₃))
    cases r with
    | error e => exact ⟨hcontained _ hw₄, trivial⟩
    | ok verdict =>
      show (machine A).wp _ (ofExcept (Tier2.accept d.tier2 input verdict) >>= _) _ w₄
      rcases Tier2.accept_cases d.tier2 input verdict with
        ⟨hok, hadm, hle⟩ | ⟨e, herr, _⟩ | ⟨e, herr, _⟩
      · rw [hok, ofExcept_ok, pure_bind]
        refine wp_bind.2 (wp_mono (fun _ h => h) (fun r w₅ hw₅ _ => ?_)
          (settle_contained ts verdict _ ((hr verdict rfl).mono fun es h =>
            ⟨h.1.1, fun hband hacts => licensed_of_accept h.1.2 h.2 hadm hle hband hacts⟩)))
        cases r with
        | error e => exact ⟨hw₅, trivial⟩
        | ok u => exact ⟨hw₅, trivial⟩
      · rw [herr]
        exact ⟨hcontained _ hw₄, trivial⟩
      · rw [herr]
        exact ⟨hcontained _ hw₄, trivial⟩
  · have hskip : (Tier2.skipModel d.tier2 input.message ts >>= fun _ =>
        (pure none : Proc (Option Verdict))).Only fun op : Op => op.appliesTo = none := by
      refine Prog.Only.bind (Prog.Only.bind (Prog.only_perform.2 rfl) fun _ => ?_) fun _ => trivial
      exact Prog.Only.bind (Prog.only_perform.2 rfl) fun _ => Prog.only_perform.2 rfl
    exact keeps_since contained_stable hskip w₃ (hcontained _ hw₃)

/-- So is an escalation, from its first call to its last. -/
theorem escalateMessageOrQuarantine_contained (message : NormalizedMessage) (w₀ : World) :
    (machine A).wp (Since w₀ (Contained d.tiering message))
      (escalateMessageOrQuarantine d.escalation message) (fun _ _ => True) w₀ := by
  have hclean : Since w₀ Clean w₀ := ⟨[], (List.append_nil _).symm, fun e he => by cases he⟩
  have hcontained : ∀ w, Since w₀ Clean w → Since w₀ (Contained d.tiering message) w :=
    fun _ h => h.mono fun _ h => h.contained
  have htry : (machine A).wp (Since w₀ (Contained d.tiering message))
      (escalateMessage d.escalation message) (fun _ _ => True) w₀ := by
    refine Keeps.wp_bind (keeps_since clean_stable (Prog.only_perform.2 id)) hcontained hclean
      (fun context w₁ hw₁ => ?_) fun _ _ _ => trivial
    refine wp_call_bind (hcontained _ hw₁) (fun mailboxes db' hA hg => ?_) (fun e hA h => ?_)
    · refine processTier2Message_contained (tier2Input message context mailboxes)
        (hw₁.step (Responds.answers hA hg) fun es h => ⟨clean_stable es _ id h, ?_⟩)
      exact List.mem_append_right _ (List.mem_singleton_self _)
    · exact ⟨hcontained _ (hw₁.step (Responds.raises hA h) fun es h => clean_stable es _ id h),
        trivial⟩
  refine wp_tryCatch.2 (wp_bind.2 (wp_mono (fun _ h => h) (fun r w hw _ => ?_) htry))
  cases r with
  | ok verdict => exact ⟨hw, hw, trivial⟩
  | error e =>
    refine ⟨hw, ?_⟩
    have hquarantine : (quarantine d.escalation.tier2.ops message e).Only
        fun op : Op => op.appliesTo = none := by
      refine Prog.Only.bind (Prog.only_perform.2 rfl) fun _ => ?_
      refine Prog.Only.bind (Prog.only_perform.2 rfl) fun _ => ?_
      refine Prog.Only.bind (Prog.only_perform.2 rfl) fun _ => ?_
      refine Prog.Only.bind (Prog.only_perform.2 rfl) fun _ => ?_
      exact Prog.Only.bind (Prog.only_perform.2 rfl) fun _ => trivial
    exact Keeps.ite (keeps_since contained_stable hquarantine) keeps_done w hw

end Contained

/-! ## A quarantined message has been left alone -/

/-- Applier, draft creator and alerter do not raise a quarantinable error. -/
def wellBehaved : Allowed
  | .apply _ _, r => ∀ e, r = .error e → e.cls.quarantinable = false
  | .createDraft _ _, r => ∀ e, r = .error e → e.cls.quarantinable = false
  | .notify _ _ _, r => ∀ e, r = .error e → e.cls.quarantinable = false
  | _, _ => True

section Quarantine

variable {d : Deployment} {message : NormalizedMessage} {w₀ w : World} {α β : Type}

/-- If the program raises a quarantinable error, nothing has been mutated. -/
def CleanFailure (w₀ : World) (r : Except Exn α) (w : World) : Prop :=
  ∀ e, r = .error e → e.cls.quarantinable = true → Since w₀ Clean w

/-- The program raises no quarantinable error. -/
abbrev Tame (p : Proc α) : Prop :=
  (machine wellBehaved).RaisesOnly (fun e => e.cls.quarantinable = false) p

theorem tame_apply {action : Action} : Tame (call (.apply message action)) :=
  raisesOnly_call _ fun _ e hA _ => hA e rfl

theorem tame_alert (t b : String) (u : AlertUrgency) : Tame (d.tier2.ops.alert t b u) :=
  raisesOnly_call (.notify t b u) fun _ e hA _ => hA e rfl

theorem tame_draft (verdict : Verdict) : Tame (Tier2.draft d.tier2 message verdict) := by
  rw [Tier2.draft]
  split
  · exact raisesOnly_pure
  · exact raisesOnly_call _ fun _ e hA _ => hA e rfl

theorem tame_writeAuditEntry {ts id event : String} {detail : Option String} :
    Tame (call (.writeAuditEntry ts id event detail)) := by
  refine raisesOnly_call _ fun db e _ (h : e.cls = .sqliteError) => ?_
  rw [h]
  rfl

theorem tame_markProcessed {id : String} {row : ProcessedRow} :
    Tame (call (.markProcessed id row)) := by
  refine raisesOnly_call _ fun db e _ (h : e.cls = .sqliteError) => ?_
  rw [h]
  rfl

theorem tame_modelDumpJson {verdict : Verdict} : Tame (call (.modelDumpJson verdict)) := by
  refine raisesOnly_call _ fun db e _ (h : e.cls = .pydanticSerializationError) => ?_
  rw [h]
  rfl

/-- Behind the gates only `execute` itself still turns a verdict away, and then nothing has been
applied. -/
theorem settle_cleanFailure (message : NormalizedMessage) (ts : String) (verdict : Verdict)
    (band : ConfidenceBand)
    (hw : Since w₀ Clean w) :
    (machine wellBehaved).wp (fun _ => True) (Tier2.settle d.tier2 message ts verdict band)
      (CleanFailure w₀) w := by
  have htame : ∀ {γ : Type} {p : Proc γ}, Tame p → ∀ w,
      (machine wellBehaved).wp (fun _ => True) p (CleanFailure w₀) w := fun hp w =>
    wp_mono (fun _ h => h) (fun _ _ _ h e he hq => by rw [h e he] at hq; cases hq) (hp w)
  have hrest : Tame (do
      Tier2.draft d.tier2 message verdict
      call (.writeAuditEntry ts message.messageId (Tier2.bandEvent band)
        (some (Tier2.bandDetail verdict band)))
      let json ← call (.modelDumpJson verdict)
      call (.markProcessed message.messageId
        (Tier2.processedRow message ts (some json) (some verdict.suggestedAction.type)))) :=
    (tame_draft verdict).bind fun _ => tame_writeAuditEntry.bind fun _ =>
      tame_modelDumpJson.bind fun _ => tame_markProcessed
  have hact : ∀ (c : Bool) t b u, (machine wellBehaved).wp (fun _ => True) (do
      d.tier2.executor.execute message verdict.suggestedAction
      if c then d.tier2.ops.alert t b u else pure ()) (CleanFailure w₀) w := by
    intro c t b u
    have halert : Tame (if c then d.tier2.ops.alert t b u else pure ()) := by
      split
      · exact tame_alert t b u
      · exact raisesOnly_pure
    rcases d.tier2.executor.execute_cases message verdict.suggestedAction with
      ⟨he, _⟩ | ⟨he, _⟩ | ⟨e, he, _⟩ <;> rw [he]
    · exact htame (tame_apply.bind fun _ => halert) w
    · exact htame halert w
    · exact ⟨trivial, fun _ _ _ => hw⟩
  have hperform : (machine wellBehaved).wp (fun _ => True)
      (Tier2.perform d.tier2 message verdict band) (CleanFailure w₀) w := by
    cases band with
    | alertOnly => exact htame (tame_alert _ _ _) w
    | autoact => exact hact _ _ _ _
    | autoactAlert => exact hact _ _ _ _
  refine wp_bind.2 (wp_mono (fun _ h => h) (fun r w' _ hr => ?_) hperform)
  cases r with
  | error e => exact ⟨trivial, hr⟩
  | ok u => exact htame hrest w'

theorem processTier2Message_cleanFailure (input : Tier2Input) (hw : Since w₀ Clean w) :
    (machine wellBehaved).wp (fun _ => True) (processTier2Message d.tier2 input)
      (CleanFailure w₀) w := by
  have hcall : ∀ op : Op, ¬op.Mutates →
      (machine wellBehaved).Keeps (Since w₀ Clean) (call op) :=
    fun _ hop => keeps_since clean_stable (Prog.only_perform.2 hop)
  have hclean : ∀ {γ : Type} {r : Except Exn γ} {w : World}, Since w₀ Clean w →
      CleanFailure w₀ r w := fun h _ _ _ => h
  rw [processTier2Message_eq]
  refine Keeps.wp_bind (hcall _ id) (fun _ _ => trivial) hw (fun ts w₁ hw₁ => ?_) fun _ _ => hclean
  refine Keeps.wp_bind (hcall _ id) (fun _ _ => trivial) hw₁ (fun _ w₂ hw₂ => ?_) fun _ _ => hclean
  refine Keeps.wp_bind (hcall _ id) (fun _ _ => trivial) hw₂ (fun usage w₃ hw₃ => ?_)
    fun _ _ => hclean
  split
  · have hask : (machine wellBehaved).Keeps (Since w₀ Clean) (Tier2.askModel d.tier2 input ts) :=
      (hcall _ id).bind fun context =>
        Keeps.bind ((hcall _ id).bind fun _ => keeps_done) fun cleaned =>
        (hcall _ id).bind fun result => (hcall _ id).bind fun _ => keeps_done
    refine Keeps.wp_bind hask (fun _ _ => trivial) hw₃ (fun verdict w₄ hw₄ => ?_)
      fun _ _ => hclean
    rcases Tier2.accept_cases d.tier2 input verdict with
      ⟨hok, _⟩ | ⟨e, herr, _⟩ | ⟨e, herr, _⟩
    · rw [hok, ofExcept_ok, pure_bind]
      refine wp_bind.2 (wp_mono (fun _ h => h) (fun r w₅ _ hr => ?_)
        (settle_cleanFailure input.message ts verdict _ hw₄))
      cases r with
      | error e => exact ⟨trivial, fun e' h => by cases h; exact hr e rfl⟩
      | ok u => exact ⟨trivial, fun _ h => by cases h⟩
    · rw [herr]
      exact ⟨trivial, hclean hw₄⟩
    · rw [herr]
      exact ⟨trivial, hclean hw₄⟩
  · have hskip : (machine wellBehaved).Keeps (Since w₀ Clean)
        (Tier2.skipModel d.tier2 input.message ts) :=
      (hcall (.notify _ _ _) id).bind fun _ => (hcall _ id).bind fun _ => hcall _ id
    exact Keeps.wp_bind hskip (fun _ _ => trivial) hw₃
      (fun _ w₄ hw₄ => ⟨trivial, hclean hw₄⟩) fun _ _ => hclean

/-- A quarantined message has had nothing applied and nothing drafted. -/
theorem escalateMessageOrQuarantine_clean (message : NormalizedMessage) (w₀ : World) :
    (machine wellBehaved).wp (fun _ => True) (escalateMessageOrQuarantine d.escalation message)
      (fun r w => ∀ reason, r = .ok (.quarantinedMessage reason) → Since w₀ Clean w) w₀ := by
  have hcall : ∀ op : Op, ¬op.Mutates →
      (machine wellBehaved).Keeps (Since w₀ Clean) (call op) :=
    fun _ hop => keeps_since clean_stable (Prog.only_perform.2 hop)
  have hstart : Since w₀ Clean w₀ := ⟨[], (List.append_nil _).symm, fun e he => by cases he⟩
  have htry : (machine wellBehaved).wp (fun _ => True) (escalateMessage d.escalation message)
      (CleanFailure w₀) w₀ := by
    refine Keeps.wp_bind (hcall _ id) (fun _ _ => trivial) hstart (fun context w₁ hw₁ => ?_)
      fun _ _ h _ _ _ => h
    refine Keeps.wp_bind (hcall _ id) (fun _ _ => trivial) hw₁ (fun mailboxes w₂ hw₂ => ?_)
      fun _ _ h _ _ _ => h
    exact processTier2Message_cleanFailure _ hw₂
  refine wp_tryCatch.2 (wp_bind.2 (wp_mono (fun _ h => h) (fun r w _ hr => ?_) htry))
  cases r with
  | ok verdict =>
    refine ⟨trivial, trivial, fun reason h => ?_⟩
    cases verdict <;> cases h
  | error e =>
    refine ⟨trivial, ?_⟩
    show (machine wellBehaved).wp _ (if e.cls.quarantinable then _ else _) _ w
    split
    · rename_i hq
      have hquarantine : (machine wellBehaved).Keeps (Since w₀ Clean)
          (quarantine d.escalation.tier2.ops message e) :=
        (hcall _ id).bind fun ts => (hcall _ id).bind fun _ => (hcall _ id).bind fun _ =>
          (hcall _ id).bind fun _ => (hcall (.notify _ _ _) id).bind fun _ => keeps_done
      exact wp_mono (fun _ _ => trivial) (fun _ _ h _ _ _ => h) (hquarantine w (hr e rfl hq))
    · exact ⟨trivial, fun _ h => by cases h⟩

end Quarantine

/-! ## Every run -/

/-- Calls of `apply` for message `id`, however they came back. -/
def World.applyCalls (w : World) (id : String) : Nat :=
  w.trace.countP fun e => e.op.appliesTo = some id

theorem Responds.applyCalls_le {A : Allowed} {w w' : World} {op : Op} {r : Except Exn op.Ret}
    (h : Responds A w op r w') (id : String) :
    w'.applyCalls id ≤ w.applyCalls id + if op.appliesTo = some id then 1 else 0 := by
  rw [World.applyCalls, World.applyCalls, h.trace, List.countP_append, List.countP_singleton]
  simp

/-- **No model output reaches the mailbox outside the configured sets.**  Whatever the collaborators
answer, an escalation applies at most one action; it applies it to its own message; and the action
is a `move` or a `tag` into a listed mailbox, returned by the model with an allowed category and a
confidence from the alert threshold up.  And where applier, draft creator and alerter raise no
quarantinable error, a quarantined message has had nothing applied and nothing drafted. -/
theorem model_output_contained (d : Deployment) (message : NormalizedMessage) :
    (∀ (w w' : World) (p : Proc EscalationResult),
      (machine anything).Reaches (escalateMessageOrQuarantine d.escalation message) w p w' →
        (∀ e ∈ eventsSince w w', ∀ m action, e.op = .apply m action →
          m = message ∧ Licensed d.tiering (eventsSince w w') action) ∧
        (eventsSince w w').countP (fun e => e.op.appliesTo.isSome) ≤ 1) ∧
    ∀ (w w' : World) (reason : String),
      (machine wellBehaved).Reaches (escalateMessageOrQuarantine d.escalation message) w
        (.done (.ok (.quarantinedMessage reason))) w' →
      ∀ e ∈ eventsSince w w', ¬e.op.Mutates := by
  refine ⟨fun w w' p h => ?_, fun w w' reason h => ?_⟩
  · have hsince := wp_inv (wp_reaches (escalateMessageOrQuarantine_contained message w) h)
    have hcontained : Contained d.tiering message (eventsSince w w') := hsince.eventsSince
    refine ⟨hcontained, ?_⟩
    have hsame : (eventsSince w w').countP (fun e => e.op.appliesTo.isSome)
        = (eventsSince w w').countP fun e => e.op.appliesTo = some message.messageId := by
      refine List.countP_congr fun e he => ?_
      rw [decide_eq_true_eq]
      constructor
      · intro hsome
        cases hop : e.op with
        | apply m action =>
          rw [(hcontained e he m action hop).1]
          rfl
        | _ => rw [hop] at hsome; cases hsome
      · intro heq
        rw [heq]
        rfl
    have hle := reaches_count_le (fun w => w.applyCalls message.messageId)
      (fun _ _ _ _ h => Responds.applyCalls_le h message.messageId)
      (escalateMessageOrQuarantine_applies d.escalation_wired message) h
    obtain ⟨es, hes, _⟩ := hsince
    have hes' : eventsSince w w' = es := by rw [eventsSince, hes, List.drop_left]
    rw [hsame, hes']
    rw [World.applyCalls, hes, List.countP_append, share, if_pos rfl] at hle
    have hsplit : w.applyCalls message.messageId
        = w.trace.countP fun e => e.op.appliesTo = some message.messageId := rfl
    omega
  · exact (wp_reaches (escalateMessageOrQuarantine_clean message w) h).2 reason rfl |>.eventsSince

/-- On a day of filing, `letter` is moved by a licensed action; on a bad day it is quarantined, and
nothing has been done to it. -/
theorem model_output_contained_letter :
    (∃ w' p, (machine anything).Reaches (escalateMessageOrQuarantine oneCall.escalation letter)
        ⟨.empty, []⟩ p w' ∧
      (eventsSince ⟨.empty, []⟩ w').countP (fun e => e.op.appliesTo = some "M1") = 1 ∧
      ∀ e ∈ eventsSince ⟨.empty, []⟩ w', ∀ m action, e.op = .apply m action →
        m = letter ∧ Licensed oneCall.tiering (eventsSince ⟨.empty, []⟩ w') action) ∧
    ∃ w' reason, (machine wellBehaved).Reaches
        (escalateMessageOrQuarantine oneCall.escalation letter) ⟨.empty, []⟩
        (.done (.ok (.quarantinedMessage reason))) w' ∧
      ∀ e ∈ eventsSince ⟨.empty, []⟩ w', ¬e.op.Mutates := by
  constructor
  · have hfiled := Env.reaches (A := anything) Env.filing_lawful (fun _ _ => trivial)
      (escalateMessageOrQuarantine oneCall.escalation letter) ⟨.empty, []⟩
    exact ⟨_, _, hfiled, by decide +kernel,
      ((model_output_contained oneCall letter).1 _ _ _ hfiled).1⟩
  · have hgarbled := Env.reaches (A := wellBehaved) Env.garbled_lawful (fun w op => ?_)
      (escalateMessageOrQuarantine oneCall.escalation letter) ⟨.empty, []⟩
    · exact ⟨_, _, hgarbled, (model_output_contained oneCall letter).2 _ _ _ hgarbled⟩
    · cases op with
      | apply | createDraft | notify =>
        intro e h
        cases h
      | _ => trivial

end Spork
