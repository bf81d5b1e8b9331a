import Spork.Guarantees.Overlap

/-!
# The budget when two processes spend it

The daemon and a command count their calls of the model in one usage table, and both are held to the
same `daily_call_budget`.  Each looks at the table before its call and writes to it afterwards, in
another transaction.  If the other process looks in between, the last call of a day is let through
twice (`contention_overspends`).

A process is followed through its *billing*: the look at the table, behind a new correlation id, may
grant a call, and the record uses the grant up.  What has been recorded and what is granted never
come to more than the budget, as long as nobody is granted a call of a day on which the other one
has a grant, unless there is room for both (`metered_calls_le`).
-/

set_option autoImplicit false

namespace Spork

open Effects Machine

/-! ## Billing -/

/-- Where a process is with its next call of the model. -/
inductive Billing where
  | idle
  /-- The next look at the usage table is that of a budget gate. -/
  | starting
  /-- A gate has let a call through, which is not recorded yet. -/
  | granted (date : String)
  /-- A call was recorded that no gate has let through. -/
  | broken
  deriving DecidableEq, Repr

/-- What a call does to the billing of its process.  The daemon's daily alert looks at the usage
table, too, but has looked at the date of the last alert before. -/
def Billing.next (budget : Int) (billing : Billing) : Event → Billing
  | ⟨.newCorrelationId, _⟩ => .starting
  | ⟨.budgetAlertDate, _⟩ => .idle
  | ⟨.getLlmUsage date, .ok usage⟩ =>
    if billing = .starting then
      if hasBudgetRemaining usage budget then .granted date else .idle
    else billing
  | ⟨.recordLlmCall date _ _, r⟩ =>
    if billing = .granted date then if r.isOk then .idle else billing else .broken
  | _ => billing

/-- A process seen through its billing. -/
def bills (budget : Int) : Machine sig Billing := fun billing op r billing' =>
  billing' = billing.next budget ⟨op, r⟩

section Billing

variable {budget : Int} {billing : Billing} {op : Op} {r : Except Exn op.Ret} {α : Type}

/-- Only a record can be out of turn. -/
theorem Billing.next_ne_broken (hop : op.recordsUsage = false) (hb : billing ≠ .broken) :
    billing.next budget ⟨op, r⟩ ≠ .broken := by
  cases op with
  | newCorrelationId => exact fun h => by cases h
  | budgetAlertDate => exact fun h => by cases h
  | getLlmUsage date =>
    cases r with
    | ok usage =>
      rw [next]
      split
      · split <;> exact fun h => by cases h
      · exact hb
    | error e => exact hb
  | recordLlmCall date i o => cases hop
  | _ => exact hb

/-- Who has a grant had it before, or has just been let through. -/
theorem Billing.next_granted {date : String} (hop : op.recordsUsage = false)
    (h : billing.next budget ⟨op, r⟩ = .granted date) :
    billing = .granted date ∨ billing = .starting ∧ ∃ usage : LLMUsage,
      (⟨op, r⟩ : Event) = ⟨.getLlmUsage date, .ok usage⟩ ∧
        hasBudgetRemaining usage budget = true := by
  cases op with
  | newCorrelationId => cases h
  | budgetAlertDate => cases h
  | getLlmUsage date' =>
    cases r with
    | error e => exact .inl h
    | ok usage =>
      rw [next] at h
      split at h
      · rename_i hstarting
        split at h
        · rename_i hremaining
          cases h
          exact .inr ⟨hstarting, usage, rfl, hremaining⟩
        · cases h
      · exact .inl h
  | recordLlmCall date i o => cases hop
  | _ => exact .inl h

theorem Billing.next_gate_granted {date : String} {usage : LLMUsage}
    (h : hasBudgetRemaining usage budget = true) :
    Billing.starting.next budget ⟨.getLlmUsage date, .ok usage⟩ = .granted date := by
  simp [next, h]

theorem Billing.next_gate_refused {date : String} {usage : LLMUsage}
    (h : ¬hasBudgetRemaining usage budget = true) :
    Billing.starting.next budget ⟨.getLlmUsage date, .ok usage⟩ = .idle := by
  simp [next, h]

/-! ### Programs -/

/-- A program that records nothing is never out of turn. -/
theorem bills_keeps {p : Proc α} (hp : p.Only fun op : Op => op.recordsUsage = false) :
    (bills budget).Keeps (· ≠ .broken) p := by
  refine keeps_of_only (fun billing op r billing' hop hb h => ?_) hp
  rw [h]
  exact Billing.next_ne_broken hop hb

theorem bills_call (hop : op.recordsUsage = false) : (bills budget).Keeps (· ≠ .broken) (call op) :=
  bills_keeps (Prog.only_perform.2 hop)

theorem Op.Supporting.recordsUsage {op : Op} (h : op.Supporting) : op.recordsUsage = false := by
  cases op <;> first | exact h.elim | rfl

theorem SettlingCall.recordsUsage {message : NormalizedMessage} {op : Op}
    (h : SettlingCall message op) : op.recordsUsage = false := by
  cases h with
  | supporting h => exact h.recordsUsage
  | _ => rfl

theorem Op.Looping.recordsUsage {op : Op} (h : op.Looping) : op.recordsUsage = false := by
  cases h with
  | housekeeping h =>
    cases h with
    | supporting h => exact h.recordsUsage
    | _ => rfl
  | _ => rfl

variable {d : Deployment}

/-- A granted call is recorded on its date. -/
theorem askModel_bills (input : Tier2Input) (ts : String) :
    (bills budget).wp (· ≠ .broken) (Tier2.askModel d.tier2 input ts) (fun _ _ => True)
      (.granted (dateOf ts)) := by
  have hne : Billing.granted (dateOf ts) ≠ .broken := fun h => by cases h
  have hcall : ∀ op : Op,
      (∀ r, (Billing.granted (dateOf ts)).next budget ⟨op, r⟩ = .granted (dateOf ts)) →
      (bills budget).Keeps (· = .granted (dateOf ts)) (call op) := by
    intro op hop
    refine keeps_of_only (C := (· = op)) (fun billing _ r billing' h hb hnext => ?_)
      (Prog.only_perform.2 rfl)
    subst h hb
    exact hnext.trans (hop r)
  refine Keeps.wp_bind (hcall _ fun _ => rfl) (fun _ h => h ▸ hne) rfl (fun context b hb => ?_)
    fun _ _ _ => trivial
  refine Keeps.wp_bind (K := (· = .granted (dateOf ts)))
    ((hcall _ fun _ => rfl).bind fun _ => keeps_done)
    (fun _ h => h ▸ hne) hb (fun cleaned b hb => ?_) fun _ _ _ => trivial
  refine Keeps.wp_bind (hcall _ fun _ => rfl) (fun _ h => h ▸ hne) hb (fun result b hb => ?_)
    fun _ _ _ => trivial
  subst hb
  refine Machine.wp_perform_bind hne (fun u b h => ?_) fun e b h => ?_
  · have hidle : b = .idle := h.trans ((if_pos rfl).trans rfl)
    exact ⟨hidle ▸ fun h => (by cases h), trivial⟩
  · have hsame : b = .granted (dateOf ts) := h.trans ((if_pos rfl).trans rfl)
    exact ⟨hsame ▸ hne, trivial⟩

/-- **A run of Tier 2 records what its gate has granted, or nothing.** -/
theorem processTier2Message_bills (input : Tier2Input) :
    (bills d.tiering.dailyCallBudget).Keeps (· ≠ .broken) (processTier2Message d.tier2 input) := by
  have hstarting : Billing.starting ≠ .broken := fun h => by cases h
  rw [processTier2Message_eq]
  refine (bills_call rfl).bind fun ts billing hb => ?_
  refine Machine.wp_perform_bind hb (fun id b h => ?_) fun e b h => ?_
  · obtain rfl : b = .starting := h
    refine Machine.wp_perform_bind hstarting (fun usage b h => ?_) fun e b h => ?_
    · split
      · have hremaining : hasBudgetRemaining usage d.tiering.dailyCallBudget = true := ‹_›
        obtain rfl : b = .granted (dateOf ts) := h.trans (Billing.next_gate_granted hremaining)
        refine wp_bind.2 (wp_mono (fun _ h => h) (fun r b hb _ => ?_) (askModel_bills input ts))
        cases r with
        | error e => exact ⟨hb, trivial⟩
        | ok verdict =>
          refine Keeps.wp_bind (bills_keeps trivial) (fun _ h => h) hb (fun accepted b hb => ?_)
            fun _ _ _ => trivial
          exact Keeps.wp_bind (bills_keeps ((Tier2.settle_only d.escalation_wired ts accepted.1
            accepted.2).mono fun _ => SettlingCall.recordsUsage)) (fun _ h => h) hb
            (fun _ _ hb => ⟨hb, trivial⟩) fun _ _ _ => trivial
      · have hgone : ¬hasBudgetRemaining usage d.tiering.dailyCallBudget = true := ‹_›
        obtain rfl : b = .idle := h.trans (Billing.next_gate_refused hgone)
        refine bills_keeps ?_ _ fun h => by cases h
        exact ((Tier2.skipModel_only d.escalation_wired ts).mono
          fun _ => SettlingCall.recordsUsage).bind fun _ => trivial
    · obtain rfl : b = .starting := h
      exact ⟨hstarting, trivial⟩
  · obtain rfl : b = .starting := h
    exact ⟨hstarting, trivial⟩

theorem escalateMessageOrQuarantine_bills (message : NormalizedMessage) :
    (bills d.tiering.dailyCallBudget).Keeps (· ≠ .broken)
      (escalateMessageOrQuarantine d.escalation message) := by
  refine Keeps.tryCatch (Keeps.bind ?_ fun _ => keeps_done) fun e => .ite ?_ keeps_done
  · refine (bills_call rfl).bind fun context => (bills_call rfl).bind fun mailboxes => ?_
    exact processTier2Message_bills (tier2Input message context mailboxes)
  · exact bills_keeps ((quarantine_only d.escalation_wired e).mono fun _ =>
      SettlingCall.recordsUsage)

/-- However Tier 1 is set up, a message is handled in turn. -/
theorem reclassifyMessage_bills {tier1 : Tier1Deps} (htier1 : tier1.Wired) (rules : List Rule)
    (message : NormalizedMessage) : (bills d.tiering.dailyCallBudget).Keeps (· ≠ .broken)
      (reclassifyMessage ⟨tier1, d.escalation⟩ rules message) := by
  rw [reclassifyMessage_eq]
  refine (bills_call rfl).bind fun ts => (bills_call rfl).bind fun _ => ?_
  refine (bills_keeps ((evaluate_only (fun c hc => htier1.classify c hc message) rules
    tier1.defaultUnmatchedAction).mono fun _ h => h.recordsUsage)).bind fun verdict => ?_
  refine (bills_keeps ((Tier1.runBranch_only htier1 ts verdict).mono
    fun _ => SettlingCall.recordsUsage)).bind fun _ => ?_
  exact .ite ((escalateMessageOrQuarantine_bills message).bind fun _ => keeps_done) keeps_done

theorem handleMessage_bills {tier1 : Tier1Deps} (htier1 : tier1.Wired) (rules : List Rule)
    (message : NormalizedMessage) : (bills d.tiering.dailyCallBudget).Keeps (· ≠ .broken)
      (handleMessage ⟨tier1, d.escalation⟩ rules message) := by
  rw [handleMessage_eq_reclassifyMessage]
  exact (bills_call rfl).bind fun seen => .ite keeps_done
    (reclassifyMessage_bills htier1 rules message)

end Billing

/-! ## Two processes, one usage table -/

/-- What the second process was started for. -/
inductive CommandJob where
  | backfill (options : BackfillOptions)
  | reclassify (message : NormalizedMessage)

/-- What the daemon and the command are run with.  Their budgets are the same. -/
structure Contention where
  daemon : Deployment
  checkpointed : Bool
  cursorAccountId : Option String
  command : Deployment
  rules : List Rule
  job : CommandJob
  sameBudget : command.tiering.dailyCallBudget = daemon.tiering.dailyCallBudget

namespace Contention

/-- The budget of both. -/
def budget (o : Contention) : Int := o.daemon.tiering.dailyCallBudget

/-- The daemon's configuration. -/
def loop (o : Contention) : LoopConfig where
  deps := o.daemon.deps
  checkpointed := o.checkpointed
  cursorAccountId := o.cursorAccountId

/-- The rounds of each process, with the command in the place of the backfill.  A reclassification
has one only. -/
def body (o : Contention) : (i : Pid) → LoopState i → Proc (Next (LoopState i) (LoopResult i))
  | .daemon => messageLoop o.loop
  | .backfill =>
    match o.job with
    | .backfill options => backfillPage o.command.backfillDeps o.rules options
    | .reclassify _ => fun s => pure (.leave s.counts)

/-- What each process starts with. -/
def start (o : Contention) : (i : Pid) → Proc (Next (LoopState i) (LoopResult i))
  | .daemon => messageLoop o.loop ()
  | .backfill =>
    match o.job with
    | .backfill options => Spork.backfill o.command.backfillDeps o.rules options
    | .reclassify message => do
      let _ ← Spork.reclassify o.command.reclassifyDeps o.rules message
      pure (.leave {})

end Contention

/-- The billing of process `i`. -/
def Shared.billing (budget : Int) (i : Pid) (s : Shared) : Billing :=
  s.log.foldl (fun billing e => if e.1 = i then billing.next budget e.2 else billing) .idle

/-- The calls of a day that process `i` has been granted and has not recorded: one, or none. -/
def Shared.grant (budget : Int) (i : Pid) (date : String) (s : Shared) : Nat :=
  if s.billing budget i = .granted date then 1 else 0

/-- Where the other process has a grant, a gate grants a second one only with room for both. -/
def metered (budget : Int) (i : Pid) : Machine sig Shared := fun s op r s' =>
  sharing anything i s op r s' ∧ ∀ (date : String) (usage : LLMUsage),
    (⟨op, r⟩ : Event) = ⟨.getLlmUsage date, .ok usage⟩ → s.billing budget i = .starting →
      hasBudgetRemaining usage budget = true → s.billing budget i.other = .granted date →
        (usage.calls : Int) + 1 < budget

/-- No day has more calls, recorded and granted, than the budget. -/
def Reserved (budget : Int) (s : Shared) : Prop := ∀ date,
  ((s.db.getLlmUsage date).calls : Int) + s.grant budget .daemon date
    + s.grant budget .backfill date ≤ budget

section Shared

variable {budget : Int} {s s' : Shared} {i : Pid} {op : Op} {r : Except Exn op.Ret}

theorem sharing.billing {A : Allowed} (h : sharing A i s op r s') :
    s'.billing budget i = (s.billing budget i).next budget ⟨op, r⟩ := by
  obtain ⟨w', _, rfl⟩ := h
  rw [Shared.billing, List.foldl_append]
  exact if_pos rfl

theorem sharing.billing_of_ne {A : Allowed} {j : Pid} (h : sharing A i s op r s') (hj : j ≠ i) :
    s'.billing budget j = s.billing budget j := by
  obtain ⟨w', _, rfl⟩ := h
  rw [Shared.billing, List.foldl_append]
  exact if_neg (Ne.symm hj)

theorem Pid.other_ne (i : Pid) : i.other ≠ i := by
  cases i <;> exact fun h => by cases h

/-- The invariant, seen from process `i`. -/
theorem reserved_iff (i : Pid) : Reserved budget s ↔ ∀ date,
    ((s.db.getLlmUsage date).calls : Int) + s.grant budget i date
      + s.grant budget i.other date ≤ budget := by
  cases i with
  | daemon => exact Iff.rfl
  | backfill => exact forall_congr' fun date => by rw [Pid.other]; omega

/-- One more call on a date. -/
theorem calls_recordLlmCall {db db' : StateDB} {date : String} {a b : Int}
    (h : db.recordLlmCall date a b = .ok db') (date' : String) :
    (db'.getLlmUsage date').calls =
      (db.getLlmUsage date').calls + if date' = date then 1 else 0 := by
  rcases StateDB.recordLlmCall_cases db date a b with ⟨e, he, _⟩ | ⟨hok, _⟩
  · rw [he] at h
    cases h
  · rw [hok] at h
    cases h
    exact StateDB.calls_countCall db date _ _ date'

/-- A grant that is used up becomes a recorded call. -/
theorem Reserved.record {date : String} {a b : Int} {r : Except Exn Unit} (hs : Reserved budget s)
    (h : sharing anything i s (.recordLlmCall date a b) r s')
    (hturn : s'.billing budget i ≠ .broken) : Reserved budget s' := by
  have hother : s'.billing budget i.other = s.billing budget i.other := h.billing_of_ne i.other_ne
  have hnext : s'.billing budget i = _ := h.billing
  rw [Billing.next] at hnext
  have hgranted : s.billing budget i = .granted date := by
    by_contra hne
    rw [if_neg hne] at hnext
    exact hturn hnext
  rw [if_pos hgranted] at hnext
  rw [reserved_iff i] at hs ⊢
  intro date'
  have hle := hs date'
  rw [Shared.grant, Shared.grant, hgranted] at hle
  rw [Shared.grant, Shared.grant, hother, hnext]
  obtain ⟨w', hr, rfl⟩ := h
  rcases hr.inv with ⟨u, db', rfl, hg, rfl⟩ | ⟨e, rfl, _, rfl⟩
  · have hcalls := calls_recordLlmCall (gives_recordLlmCall.1 hg) date'
    have hidle :
        ¬(if (Except.ok u : Except Exn Unit).isOk then Billing.idle else s.billing budget i)
        = .granted date' := fun h => by cases h
    rw [if_neg hidle]
    simp only [World.db_record] at hcalls ⊢
    by_cases hd : date' = date
    · subst hd
      rw [if_pos rfl] at hcalls hle
      omega
    · rw [if_neg hd] at hcalls
      omega
  · have hraised : ¬(Except.error e : Except Exn Unit).isOk = true := fun h => by cases h
    rw [if_neg hraised, hgranted]
    exact hle

/-- **The step lemma.**  A call that is in turn keeps the budget reserved. -/
theorem Reserved.step (hs : Reserved budget s) (h : metered budget i s op r s')
    (hturn : s'.billing budget i ≠ .broken) : Reserved budget s' := by
  obtain ⟨hshare, hmetered⟩ := h
  by_cases hop : op.recordsUsage = true
  · cases op with
    | recordLlmCall date a b => exact hs.record hshare hturn
    | _ => cases hop
  rw [Bool.not_eq_true] at hop
  have hother : s'.billing budget i.other = s.billing budget i.other :=
    hshare.billing_of_ne i.other_ne
  have husage : ∀ date, s'.db.getLlmUsage date = s.db.getLlmUsage date := by
    obtain ⟨w', hr, rfl⟩ := hshare
    intro date
    rw [StateDB.getLlmUsage, hr.llmUsage hop]
    rfl
  rw [reserved_iff i] at hs ⊢
  intro date
  have hle := hs date
  rw [husage, Shared.grant, Shared.grant, hother]
  rw [Shared.grant, Shared.grant] at hle
  by_cases hgranted : s'.billing budget i = .granted date
  · rw [if_pos hgranted]
    rw [hshare.billing] at hgranted
    rcases Billing.next_granted hop hgranted with hbefore | ⟨hstarting, usage, hgate, hremaining⟩
    · rw [if_pos hbefore] at hle
      exact hle
    · -- the gate has just read the table
      have hread : usage = s.db.getLlmUsage date := by
        cases hgate
        obtain ⟨w', hr, _⟩ := hshare
        rcases hr.inv with ⟨_, _, heq, hg, _⟩ | ⟨_, heq, _⟩
        · cases heq
          exact (gives_getLlmUsage.1 hg).1.symm
        · cases heq
      rw [if_neg (by rw [hstarting]; exact fun h => by cases h)] at hle
      have hroom := hmetered date usage hgate hstarting hremaining
      subst hread
      have hleft : ((s.db.getLlmUsage date).calls : Int) < budget := of_decide_eq_true hremaining
      split
      · have := hroom ‹_›
        omega
      · omega
  · rw [if_neg hgranted]
    omega

end Shared

/-! ### Every process keeps its turn -/

section Processes

variable (o : Contention)

theorem Contention.daemon_bills : (bills o.budget).Keeps (· ≠ .broken) (messageLoop o.loop ()) := by
  refine messageLoop_keeps rfl o.daemon.wired (fun billing op r billing' hop hb h => ?_)
    (handleMessage_bills (d := o.daemon) o.daemon.tier1_wired)
  rw [h]
  exact Billing.next_ne_broken hop.recordsUsage hb

theorem Contention.backfillPage_bills (options : BackfillOptions) (s : BackfillState) :
    (bills o.budget).Keeps (· ≠ .broken)
      (backfillPage o.command.backfillDeps o.rules options s) := by
  rw [budget, ← o.sameBudget]
  exact backfillPage_keeps
    (handleMessage_bills (d := o.command) o.command.backfill_wired.tier1 o.rules)
    (fun _ _ _ => bills_call rfl) options s

theorem Contention.reclassify_bills (message : NormalizedMessage) :
    (bills o.budget).Keeps (· ≠ .broken)
      (Spork.reclassify o.command.reclassifyDeps o.rules message) := by
  rw [budget, ← o.sameBudget]
  exact (bills_call rfl).bind fun ts => (bills_call rfl).bind fun _ =>
    reclassifyMessage_bills (d := o.command) o.command.reclassify_wired.tier1 o.rules message

theorem Contention.body_bills (i : Pid) (s : LoopState i) :
    (bills o.budget).Keeps (· ≠ .broken) (o.body i s) := by
  cases i with
  | daemon => exact o.daemon_bills
  | backfill =>
    rw [body]
    cases o.job with
    | backfill options => exact o.backfillPage_bills options s
    | reclassify message => exact keeps_done

theorem Contention.start_bills (i : Pid) : (bills o.budget).Keeps (· ≠ .broken) (o.start i) := by
  cases i with
  | daemon => exact o.daemon_bills
  | backfill =>
    rw [start]
    cases o.job with
    | backfill options =>
      exact (bills_call rfl).bind fun ts => (bills_call rfl).bind fun _ =>
        o.backfillPage_bills options {}
    | reclassify message => exact (o.reclassify_bills message).bind fun _ => keeps_done

end Processes

/-- **Where nobody is granted a call that the other one's grant leaves no room for, the budget is
kept.** In every interleaving of a daemon and a backfill or a reclassification, whatever fails in
it, no day has more recorded calls than the budget. -/
theorem metered_calls_le (o : Contention) (db : StateDB)
    (hdb : ∀ date, ((db.getLlmUsage date).calls : Int) ≤ o.budget)
    (c : Interleave.Config sig Pid Shared LoopState LoopResult)
    (h : Interleave.Reaches (metered o.budget) o.body (o.start, ⟨db, []⟩) c) (date : String) :
    ((c.2.db.getLlmUsage date).calls : Int) ≤ o.budget := by
  have hloop : ∀ {i : Pid} {p : Proc (Next (LoopState i) (LoopResult i))} (billing : Billing),
      (bills o.budget).Keeps (· ≠ .broken) p → billing ≠ .broken →
      (bills o.budget).wp (· ≠ .broken) p (Loop.Continues fun _ b => b ≠ .broken) billing :=
    fun billing hp hb => wp_mono (fun _ h => h) (fun _ _ hb _ _ _ => hb) (hp billing hb)
  have hfresh : Reserved o.budget ⟨db, []⟩ := fun date => by
    have := hdb date
    simpa [Shared.grant, Shared.billing] using this
  have hidle : ∀ i, (⟨db, []⟩ : Shared).billing o.budget i ≠ .broken := fun _ h => by cases h
  have hinv := Interleave.reaches_inv (fun i s => s.billing o.budget i) (fun _ => bills o.budget)
    (fun _ billing => billing ≠ .broken) (fun _ _ billing => billing ≠ .broken)
    (Reserved o.budget) (fun h => h.1.billing) (fun h hj => h.1.billing_of_ne hj)
    (fun i s billing hb => hloop billing (o.body_bills i s) hb) (fun hs hturn h => hs.step h hturn)
    (fun i => hloop _ (o.start_bills i) (hidle i)) hfresh h date
  omega

/-! ### The last call of a day -/

/-- A day on which both processes are given `letter`, and a rule escalates it. -/
def Env.contending : Env := fun _ op =>
  match op with
  | .pollBatch => .ok ⟨[letter], none⟩
  | .currentRules => .ok [always { type := .escalate }]
  | op => .ok (quietAnswer op)

theorem Env.contending_lawful : Env.contending.Lawful := by
  intro w op e h
  cases op <;> cases h

/-- The daemon and a reclassification of `letter`, with a budget of one call. -/
def lastCall : Contention where
  daemon := oneCall
  checkpointed := true
  cursorAccountId := none
  command := oneCall
  rules := [always { type := .escalate }]
  job := .reclassify letter
  sameBudget := rfl

theorem lastCall_start (date : String) :
    ((StateDB.empty.getLlmUsage date).calls : Int) ≤ lastCall.budget :=
  show ((0 : Nat) : Int) ≤ 1 by decide

/-- How the day answers process `i`. -/
def contendingAnswer (i : Pid) (s : Shared) (op : Op) : Except Exn op.Ret × Shared :=
  let answer := Env.contending.answer ⟨s.db, []⟩ op
  (answer.1, ⟨answer.2.db, s.log ++ [(i, ⟨op, answer.1⟩)]⟩)

/-- Every call, with counts that the store takes. -/
def countable : Op → Bool
  | .recordLlmCall _ i o => decide (⟨i, o⟩ : LLMCallUsage).Recordable
  | _ => true

theorem contendingAnswer_sharing {i : Pid} {s : Shared} {op : Op} (h : countable op = true) :
    sharing noRaise i s op (contendingAnswer i s op).1 (contendingAnswer i s op).2 := by
  have hok : (Env.contending.answer ⟨s.db, []⟩ op).1.isOk = true := by
    refine Env.answer_isOk (by cases op <;> rfl) fun date i o hop => ?_
    subst hop
    exact of_decide_eq_true h
  refine ⟨_, Env.responds (A := noRaise) Env.contending_lawful ?_, rfl⟩
  cases hr : (Env.contending.answer ⟨s.db, []⟩ op).1 with
  | ok a => exact ⟨a, rfl⟩
  | error e =>
    rw [hr] at hok
    cases hok

/-- Nobody looks at the table while the other one has a grant. -/
def alone (i : Pid) (s : Shared) (op : Op) : Bool :=
  countable op && match op with
    | .getLlmUsage date => decide (s.billing 1 i.other ≠ .granted date)
    | _ => true

theorem contendingAnswer_metered {i : Pid} {s : Shared} {op : Op} (h : alone i s op = true) :
    metered 1 i s op (contendingAnswer i s op).1 (contendingAnswer i s op).2 := by
  unfold alone at h
  rw [Bool.and_eq_true] at h
  obtain ⟨w', hr, hs⟩ := contendingAnswer_sharing (i := i) (s := s) h.1
  have hany : Responds anything ⟨s.db, []⟩ op (contendingAnswer i s op).1 w' := by
    rcases hr.inv with ⟨a, db', ha, hg, rfl⟩ | ⟨e, he, hraise, rfl⟩
    · rw [ha]
      exact .answers trivial hg
    · rw [he]
      exact .raises trivial hraise
  refine ⟨⟨w', hany, hs⟩, fun date usage hgate _ _ hgranted => ?_⟩
  obtain ⟨rfl, _⟩ := Event.mk.injEq .. ▸ hgate
  exact absurd hgranted (of_decide_eq_true h.2)

/-- The reclassification looks at the table when the daemon has recorded its call. -/
def inOrder : List Pid := List.replicate 19 .daemon ++ List.replicate 20 .backfill

theorem metered_calls_le_letter : ∃ c,
    Interleave.Reaches (metered 1) lastCall.body (lastCall.start, ⟨.empty, []⟩) c ∧
      (c.2.db.getLlmUsage "2026-01-05").calls = 1 ∧ c.2.db.hasProcessed "M1" = true ∧
      ((c.2.db.getLlmUsage "2026-01-05").calls : Int) ≤ 1 := by
  have hrun := Interleave.follow_reaches alone contendingAnswer lastCall.body
    (fun i s op h => contendingAnswer_metered h) inOrder (lastCall.start, (⟨.empty, []⟩ : Shared))
  exact ⟨_, hrun, by decide +kernel, by decide +kernel,
    metered_calls_le lastCall .empty lastCall_start _ hrun "2026-01-05"⟩

/-- The reclassification makes its call while the daemon waits for its own. -/
def crossed : List Pid :=
  List.replicate 15 .daemon ++ List.replicate 14 .backfill ++ List.replicate 4 .daemon

/-- **The gate and the record are two transactions**: in another order, both are granted the last
call of the day, though nothing fails. -/
theorem contention_overspends : ¬∀ (o : Contention) (db : StateDB)
    (c : Interleave.Config sig Pid Shared LoopState LoopResult),
    0 ≤ o.budget → (∀ date, ((db.getLlmUsage date).calls : Int) ≤ o.budget) →
    Interleave.Reaches (sharing noRaise) o.body (o.start, ⟨db, []⟩) c →
      ∀ date, ((c.2.db.getLlmUsage date).calls : Int) ≤ o.budget := by
  intro hclaim
  have hrun := Interleave.follow_reaches (M := sharing noRaise) (fun _ _ op => countable op)
    contendingAnswer lastCall.body (fun i s op h => contendingAnswer_sharing h) crossed
    (lastCall.start, (⟨.empty, []⟩ : Shared))
  exact absurd (hclaim lastCall .empty _ (by decide) lastCall_start hrun "2026-01-05")
    (by decide +kernel)

end Spork
