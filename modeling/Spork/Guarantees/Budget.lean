import Spork.Guarantees.Handling

/-!
# The daily budget

The budget gate compares the day's recorded calls with `daily_call_budget` before the model is
asked, and `RecordLLMUsageFilter` records a call right after it has returned.  So the gate stops
what has been *recorded*: a call that raises, or whose token counts the store rejects, has been made
and is not counted (`budget_overrun`).  As long as every call comes back with counts that can be
recorded, recorded and made are the same number, and the budget is a hard stop.

How many calls were made for a date is read off the trace (`Meter`): a run's `meta.ts` is the clock
reading before its call.
-/

set_option autoImplicit false

namespace Spork

open Effects Machine

/-! ## Metering the trace -/

/-- What has been read off a trace so far: the last clock reading, and the calls of the model made
for the date in question. -/
structure Meter where
  clock : Option String
  asked : Nat

/-- Read one more event. -/
def Meter.step (date : String) (meter : Meter) : Event → Meter
  | ⟨.now, .ok ts⟩ => { meter with clock := some ts }
  | ⟨.getVerdict _, _⟩ =>
    if meter.clock.map dateOf = some date then { meter with asked := meter.asked + 1 } else meter
  | _ => meter

/-- The meter of a world. -/
def World.meter (w : World) (date : String) : Meter := w.trace.foldl (Meter.step date) ⟨none, 0⟩

/-- How many `get_verdict` calls were made by runs whose `meta.ts` falls on `date`. -/
def World.asked (w : World) (date : String) : Nat := (w.meter date).asked

theorem Responds.meter {A : Allowed} {w w' : World} {op : Op} {r : Except Exn op.Ret}
    (h : Responds A w op r w') (date : String) :
    w'.meter date = (w.meter date).step date ⟨op, r⟩ := by
  rw [World.meter, h.trace, List.foldl_append]
  rfl

/-! ## The invariant -/

/-- Every call made has been recorded, and none is beyond the budget. -/
def Balanced (budget : Int) (w : World) : Prop :=
  ∀ date, w.asked date ≤ (w.db.getLlmUsage date).calls ∧ (w.asked date : Int) ≤ budget

/-- A run has taken its clock reading `ts`. -/
structure Started (budget : Int) (ts : String) (w : World) : Prop where
  balanced : Balanced budget w
  clock : ∀ date, (w.meter date).clock = some ts

/-- The day of a run whose clock reading is `ts` still has budget. -/
structure Granted (budget : Int) (ts : String) (w : World) : Prop extends Started budget ts w where
  remaining : ((w.db.getLlmUsage (dateOf ts)).calls : Int) < budget

/-- One call of that day is still to be recorded. -/
structure Owing (budget : Int) (ts : String) (w : World) : Prop where
  bounded : ∀ date, (w.asked date : Int) ≤ budget
  recorded : ∀ date,
    w.asked date ≤ (w.db.getLlmUsage date).calls + if date = dateOf ts then 1 else 0

/-- Every call of the model comes back with counts that can be recorded, and the store records
them. -/
def recordedCalls : Allowed
  | .getVerdict _, r => ∃ result, r = .ok result ∧ result.usage.Recordable
  | .recordLlmCall _ i o, r => (⟨i, o⟩ : LLMCallUsage).Recordable → r.isOk = true
  | _, _ => True

/-- Neither a call of the model nor the record of one. -/
def Op.Unbilled : Op → Prop
  | .getVerdict _ | .recordLlmCall _ _ _ => False
  | _ => True

section Invariant

variable {A : Allowed} {budget : Int} {ts : String} {w w' : World} {op : Op}
  {r : Except Exn op.Ret} {α β : Type}

theorem Responds.unbilled (h : Responds A w op r w') (hop : op.Unbilled) (date : String) :
    w'.asked date = w.asked date ∧ w'.db.getLlmUsage date = w.db.getLlmUsage date := by
  have husage : w'.db.llmUsage = w.db.llmUsage :=
    h.llmUsage (by cases op <;> first | exact hop.elim | rfl)
  refine ⟨?_, by rw [StateDB.getLlmUsage, husage]; rfl⟩
  rw [World.asked, h.meter date]
  cases op with
  | now => cases r <;> rfl
  | getVerdict request => exact hop.elim
  | _ => rfl

theorem Balanced.unbilled (hw : Balanced budget w) (h : Responds A w op r w')
    (hop : op.Unbilled) : Balanced budget w' := by
  intro date
  obtain ⟨hasked, husage⟩ := h.unbilled hop date
  rw [hasked, husage]
  exact hw date

theorem keeps_balanced {p : Proc α} (hp : p.Only Op.Unbilled) :
    (machine A).Keeps (Balanced budget) p :=
  keeps_of_only (fun _ _ _ _ hop hw h => hw.unbilled h hop) hp

theorem Balanced.le (hw : Balanced budget w) (date : String) : (w.asked date : Int) ≤ budget :=
  (hw date).2

theorem Started.unbilled (hw : Started budget ts w) (h : Responds A w op r w')
    (hop : op.Unbilled) (hnow : op ≠ .now) : Started budget ts w' := by
  refine ⟨hw.balanced.unbilled h hop, fun date => ?_⟩
  rw [h.meter date, ← hw.clock date]
  cases op with
  | now => exact absurd rfl hnow
  | getVerdict request => exact hop.elim
  | _ => rfl

theorem Granted.unbilled (hw : Granted budget ts w) (h : Responds A w op r w')
    (hop : op.Unbilled) (hnow : op ≠ .now) : Granted budget ts w' := by
  refine ⟨hw.toStarted.unbilled h hop hnow, ?_⟩
  rw [(h.unbilled hop (dateOf ts)).2]
  exact hw.remaining

/-- The one call that the gate has granted. -/
theorem Granted.ask {request : VerdictRequest} {r : Except Exn LLMResult}
    (hw : Granted budget ts w) (h : Responds A w (.getVerdict request) r w') :
    Owing budget ts w' := by
  have husage : ∀ date, w'.db.getLlmUsage date = w.db.getLlmUsage date := by
    intro date
    have hsame : w'.db.llmUsage = w.db.llmUsage := h.llmUsage rfl
    rw [StateDB.getLlmUsage, hsame]
    rfl
  have hasked : ∀ date, w'.asked date = w.asked date + if date = dateOf ts then 1 else 0 := by
    intro date
    rw [World.asked, h.meter date, Meter.step, hw.clock date, Option.map_some]
    by_cases hd : date = dateOf ts
    · rw [if_pos (by rw [hd]), if_pos hd]
      rfl
    · rw [if_neg (fun he => hd (Option.some_inj.1 he).symm), if_neg hd]
      rfl
  refine ⟨fun date => ?_, fun date => ?_⟩
  · have hle := hw.balanced date
    have hremaining := hw.remaining
    rw [hasked date]
    split
    · rename_i hd
      subst hd
      omega
    · have := hle.2
      omega
  · rw [hasked date, husage date]
    have hle := (hw.balanced date).1
    omega

/-- Recording it restores the balance. -/
theorem Owing.record {i o : Int} {u : Unit} {db' : StateDB} (hw : Owing budget ts w)
    (hg : (Op.recordLlmCall (dateOf ts) i o).Gives w.db u db') :
    Balanced budget (w.record (.recordLlmCall (dateOf ts) i o) (.ok u) db') := by
  rw [gives_recordLlmCall] at hg
  have hasked : ∀ date,
      (w.record (.recordLlmCall (dateOf ts) i o) (.ok u) db').asked date = w.asked date := by
    intro date
    simp [World.asked, World.meter, World.record, Meter.step]
  intro date
  refine ⟨?_, hasked date ▸ hw.bounded date⟩
  rw [hasked date]
  have hle := hw.recorded date
  rcases StateDB.recordLlmCall_cases w.db (dateOf ts) i o with ⟨e, he, _⟩ | ⟨hok, _⟩
  · rw [he] at hg
    cases hg
  · rw [hok] at hg
    cases hg
    rw [World.db_record, StateDB.calls_countCall]
    by_cases hd : date = dateOf ts
    · rw [if_pos hd] at hle ⊢
      exact hle
    · rw [if_neg hd] at hle ⊢
      exact hle

end Invariant

/-! ## Runs whose calls are recorded -/

section Runs

variable {d : Deployment} {budget : Int} {ts : String} {w : World} {α : Type}

/-- What holds at every point of a run: no day is beyond the budget. -/
def WithinBudget (budget : Int) (w : World) : Prop := ∀ date, (w.asked date : Int) ≤ budget

theorem SettlingCall.unbilled (message : NormalizedMessage) {op : Op}
    (h : SettlingCall message op) : op.Unbilled := by
  cases h with
  | supporting h => cases op <;> first | exact h.elim | trivial
  | _ => trivial

/-- What makes no call of the model leaves the balance as it is. -/
theorem balanced_of_unbilled {p : Proc α} (hp : p.Only Op.Unbilled) (hw : Balanced budget w) :
    (machine recordedCalls).wp (WithinBudget budget) p (fun _ => Balanced budget) w :=
  wp_mono (fun _ h => h.le) (fun _ _ h _ => h) (keeps_balanced hp w hw)

/-- A granted call is made and recorded. -/
theorem askModel_balanced (input : Tier2Input) (hw : Granted budget ts w) :
    (machine recordedCalls).wp (WithinBudget budget) (Tier2.askModel d.tier2 input ts)
      (fun _ => Balanced budget) w := by
  have hgranted : ∀ {op : Op}, op.Unbilled → op ≠ .now →
      (machine recordedCalls).Keeps (Granted budget ts) (call op) := fun hop hnow =>
    keeps_of_only (C := fun op : Op => op.Unbilled ∧ op ≠ .now)
      (fun _ _ _ _ hop hw h => hw.unbilled h hop.1 hop.2) (Prog.only_perform.2 ⟨hop, hnow⟩)
  refine Keeps.wp_bind (hgranted (by trivial) fun h => by cases h) (fun _ h => h.balanced.le) hw
    (fun context w₁ hw₁ => ?_) fun _ _ h => h.balanced
  refine Keeps.wp_bind (K := Granted budget ts) ?_ (fun _ h => h.balanced.le) hw₁
    (fun cleaned w₂ hw₂ => ?_) fun _ _ h => h.balanced
  · exact (hgranted (by trivial) fun h => by cases h).bind fun _ => keeps_done
  refine wp_call_bind hw₂.balanced.le (fun result db' hA hg => ?_) (fun e hA _ => ?_)
  · have howing : Owing budget ts _ := hw₂.ask (Responds.answers hA hg)
    obtain ⟨_, hresult, hrecordable⟩ := hA
    cases hresult
    refine wp_call_bind howing.bounded (fun u db'' _ hg => ?_) (fun e hA _ => ?_)
    · exact ⟨(howing.record hg).le, howing.record hg⟩
    · cases hA hrecordable
  · obtain ⟨result, h, _⟩ := hA
    cases h

/-- Tier 2 starts and ends in balance. -/
theorem processTier2Message_balanced (input : Tier2Input)
    (hw : Balanced d.tiering.dailyCallBudget w) :
    (machine recordedCalls).wp (WithinBudget d.tiering.dailyCallBudget)
      (processTier2Message d.tier2 input) (fun _ => Balanced d.tiering.dailyCallBudget) w := by
  rw [processTier2Message_eq]
  refine wp_call_bind hw.le (fun ts db' hA hg => ?_) (fun e hA h => ?_)
  · have hr := Responds.answers (w := w) (A := recordedCalls) hA hg
    have hstarted : Started d.tiering.dailyCallBudget ts (w.record .now (.ok ts) db') :=
      ⟨hw.unbilled hr trivial, fun date => by rw [hr.meter date]; rfl⟩
    refine Keeps.wp_bind (K := Started d.tiering.dailyCallBudget ts)
      (keeps_of_only (C := fun op : Op => op.Unbilled ∧ op ≠ .now)
        (fun _ _ _ _ hop hw h => hw.unbilled h hop.1 hop.2)
        (Prog.only_perform.2 ⟨trivial, fun h => by cases h⟩))
      (fun _ h => h.balanced.le) hstarted (fun _ w₁ hw₁ => ?_) fun _ _ h => h.balanced
    refine wp_call_bind hw₁.balanced.le (fun usage db'' hA hg => ?_) (fun e hA h => ?_)
    · have hw₂ : Started d.tiering.dailyCallBudget ts _ :=
        hw₁.unbilled (Responds.answers hA hg) trivial fun h => by cases h
      obtain ⟨husage, hdb⟩ := gives_getLlmUsage.1 hg
      split
      · rename_i hremaining
        have hgranted : Granted d.tiering.dailyCallBudget ts
            (w₁.record (.getLlmUsage (dateOf ts)) (.ok usage) db'') := by
          refine ⟨hw₂, ?_⟩
          rw [World.db_record, ← hdb, husage]
          exact of_decide_eq_true hremaining
        refine wp_bind.2 (wp_mono (fun _ h => h) (fun r w₃ _ hw₃ => ?_)
          (askModel_balanced input hgranted))
        cases r with
        | error e => exact ⟨hw₃.le, hw₃⟩
        | ok verdict =>
          refine balanced_of_unbilled (Prog.Only.bind trivial fun accepted => ?_) hw₃
          exact ((Tier2.settle_only d.escalation_wired ts accepted.1 accepted.2).mono
            fun _ => SettlingCall.unbilled input.message).bind fun _ => trivial
      · refine balanced_of_unbilled ?_ hw₂.balanced
        exact ((Tier2.skipModel_only d.escalation_wired ts).mono
          fun _ => SettlingCall.unbilled input.message).bind fun _ => trivial
    · have hb := hw₁.balanced.unbilled (Responds.raises hA h) trivial
      exact ⟨hb.le, hb⟩
  · have hb := hw.unbilled (Responds.raises hA h) trivial
    exact ⟨hb.le, hb⟩

/-- So does an escalation, quarantined or not. -/
theorem escalateMessageOrQuarantine_balanced (message : NormalizedMessage)
    (hw : Balanced d.tiering.dailyCallBudget w) :
    (machine recordedCalls).wp (WithinBudget d.tiering.dailyCallBudget)
      (escalateMessageOrQuarantine d.escalation message)
      (fun _ => Balanced d.tiering.dailyCallBudget) w := by
  have hsupporting : ∀ {op : Op}, op.Unbilled →
      (machine recordedCalls).Keeps (Balanced d.tiering.dailyCallBudget) (call op) :=
    fun hop => keeps_balanced (Prog.only_perform.2 hop)
  have htry : (machine recordedCalls).wp (WithinBudget d.tiering.dailyCallBudget)
      (escalateMessage d.escalation message) (fun _ => Balanced d.tiering.dailyCallBudget) w := by
    refine Keeps.wp_bind (hsupporting trivial) (fun _ h => h.le) hw (fun context w₁ hw₁ => ?_)
      fun _ _ h => h
    refine Keeps.wp_bind (hsupporting trivial) (fun _ h => h.le) hw₁ (fun mailboxes w₂ hw₂ => ?_)
      fun _ _ h => h
    exact processTier2Message_balanced _ hw₂
  refine wp_tryCatch.2 (wp_bind.2 (wp_mono (fun _ h => h) (fun r w₁ _ hw₁ => ?_) htry))
  cases r with
  | ok verdict => exact ⟨hw₁.le, hw₁.le, hw₁⟩
  | error e =>
    refine ⟨hw₁.le, ?_⟩
    show (machine recordedCalls).wp _ (if e.cls.quarantinable then _ else _) _ w₁
    split
    · exact balanced_of_unbilled ((quarantine_only d.escalation_wired e).mono
        fun _ => SettlingCall.unbilled message) hw₁
    · exact ⟨hw₁.le, hw₁⟩

end Runs

/-- **The daily budget is a hard stop as long as every call is recorded**, at every point of any
sequence of escalations. -/
theorem asked_le_budget (d : Deployment) (db : StateDB) (messages : List NormalizedMessage)
    (message : NormalizedMessage) (w w' : World) (p : Proc EscalationResult)
    (hbudget : 0 ≤ d.tiering.dailyCallBudget)
    (hs : (machine recordedCalls).Sequence (escalateMessageOrQuarantine d.escalation) messages
      ⟨db, []⟩ w)
    (hr : (machine recordedCalls).Reaches (escalateMessageOrQuarantine d.escalation message) w p w')
    (date : String) : (w'.asked date : Int) ≤ d.tiering.dailyCallBudget := by
  have hstart : Balanced d.tiering.dailyCallBudget ⟨db, []⟩ := fun date =>
    ⟨Nat.zero_le _, hbudget⟩
  have hw : Balanced d.tiering.dailyCallBudget w :=
    Sequence.keeps (fun m _ hw => escalateMessageOrQuarantine_balanced m hw) hs hstart
  exact wp_inv (wp_reaches (escalateMessageOrQuarantine_balanced message hw) hr) date

/-! ### A quiet day, and a bad one -/

theorem quiet_recordedCalls (w : World) (op : Op) : recordedCalls op (Env.quiet.answer w op).1 := by
  cases op with
  | getVerdict request =>
    have hrecordable : (⟨10, 10⟩ : LLMCallUsage).Recordable := by decide
    exact ⟨_, rfl, hrecordable⟩
  | recordLlmCall date i o =>
    intro h
    exact Env.answer_isOk rfl fun _ _ _ hop => by cases hop; exact h
  | _ => trivial

/-- One escalation of `letter`, on some day. -/
abbrev escalateLetter : Proc EscalationResult :=
  escalateMessageOrQuarantine oneCall.escalation letter

/-- On a quiet day the first of two escalations uses the budget up, and the second is skipped. -/
theorem asked_le_budget_quiet : ∃ w w' p,
    (machine recordedCalls).Sequence (escalateMessageOrQuarantine oneCall.escalation) [letter]
      ⟨.empty, []⟩ w ∧
    (machine recordedCalls).Reaches escalateLetter w p w' ∧
    w'.asked "2026-01-05" = 1 ∧
      (w'.asked "2026-01-05" : Int) ≤ oneCall.tiering.dailyCallBudget := by
  have hrun : ∀ w, (machine recordedCalls).Reaches escalateLetter w
      (.done (Env.quiet.eval escalateLetter w).1) (Env.quiet.eval escalateLetter w).2 :=
    Env.reaches Env.quiet_lawful quiet_recordedCalls escalateLetter
  have hs : (machine recordedCalls).Sequence (escalateMessageOrQuarantine oneCall.escalation)
      [letter] ⟨.empty, []⟩ (Env.quiet.eval escalateLetter ⟨.empty, []⟩).2 := .cons (hrun _) .nil
  exact ⟨_, _, _, hs, hrun _, by decide +kernel,
    asked_le_budget oneCall .empty [letter] letter _ _ _ (by decide) hs (hrun _) _⟩

/-- Nothing goes wrong but the calls of the model, which may raise a `LiteLLMClientError`. -/
def modelMayFail : Allowed
  | .getVerdict _, r => ∀ e, r = .error e → e.cls = .liteLLMClientError
  | .recordLlmCall _ i o, r => (⟨i, o⟩ : LLMCallUsage).Recordable → r.isOk = true
  | _, r => r.isOk = true

theorem garbled_modelMayFail (w : World) (op : Op) :
    modelMayFail op (Env.garbled.answer w op).1 := by
  cases op with
  | getVerdict request =>
    intro e h
    cases h
    rfl
  | recordLlmCall date i o =>
    intro h
    exact Env.answer_isOk rfl fun _ _ _ hop => by cases hop; exact h
  | _ => rfl

/-- **A call that raises is made and not counted**: on such a day, a budget of one lets two calls
through. -/
theorem budget_overrun :
    ¬∀ (d : Deployment) (db : StateDB) (messages : List NormalizedMessage)
        (message : NormalizedMessage) (w w' : World) (p : Proc EscalationResult),
      0 ≤ d.tiering.dailyCallBudget →
      (machine modelMayFail).Sequence (escalateMessageOrQuarantine d.escalation) messages
        ⟨db, []⟩ w →
      (machine modelMayFail).Reaches (escalateMessageOrQuarantine d.escalation message) w p w' →
      ∀ date, (w'.asked date : Int) ≤ d.tiering.dailyCallBudget := by
  intro hclaim
  have hrun : ∀ w, (machine modelMayFail).Reaches escalateLetter w
      (.done (Env.garbled.eval escalateLetter w).1) (Env.garbled.eval escalateLetter w).2 :=
    Env.reaches Env.garbled_lawful garbled_modelMayFail escalateLetter
  have hs : (machine modelMayFail).Sequence (escalateMessageOrQuarantine oneCall.escalation)
      [letter] ⟨.empty, []⟩ (Env.garbled.eval escalateLetter ⟨.empty, []⟩).2 := .cons (hrun _) .nil
  have hle := hclaim oneCall .empty [letter] letter _ _ _ (by decide) hs (hrun _) "2026-01-05"
  exact absurd hle (by decide +kernel)

end Spork
