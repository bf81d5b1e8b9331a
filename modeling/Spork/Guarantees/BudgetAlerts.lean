import Spork.Daemon.Shared
import Spork.Tails
import Mathlib.Data.List.Induction
import Mathlib.Data.String.Basic

/-!
# The alert for an exhausted budget

`_check_daily_budget_alert` remembers the date of the last alert instead of a flag, so it needs no
reset at midnight.

* `check_cases`: everything one check can do.
* `BudgetRun`: checks, with anything else happening to the process in between that leaves the
  remembered date alone (`elsewhere_handle`, `elsewhere_responds`).
* `budget_alert_once_a_day`: along such a run the remembered date is that of the last alert.
-/

set_option autoImplicit false

namespace Spork

open Effects Machine

/-! ## One check -/

/-- The calls with which a check finds out whether to alert, and prepares to. -/
def Op.precedesAlert : Op → Bool
  | .now | .budgetAlertDate | .getLlmUsage _ | .setBudgetAlertDate _ | .newCorrelationId => true
  | _ => false

/-- The clock, the store and the source of correlation ids answer.  The alerter may raise. -/
def alerterMayRaise : Allowed := fun op r => op.precedesAlert = true → ∃ a, r = .ok a

/-- Whether a call is an alert. -/
def Op.notifies : Op → Bool
  | .notify _ _ _ => true
  | _ => false

/-- Whether a call reads the clock. -/
def Op.readsClock : Op → Bool
  | .now => true
  | _ => false

/-- The date of the last alert, as the process remembers it. -/
abbrev Daemon.alertDate (d : Daemon) : Option String :=
  d.shared.daemonState.budgetExhaustedAlertDate

/-- The usage of `date` has reached the budget. -/
def Daemon.BudgetReached (tiering : TieringConfig) (d : Daemon) (date : String) : Prop :=
  tiering.dailyCallBudget ≤ (d.world.db.getLlmUsage date).calls

instance (tiering : TieringConfig) (d : Daemon) (date : String) :
    Decidable (d.BudgetReached tiering date) := inferInstanceAs (Decidable (_ ≤ _))

/-- The check that alerts through the configured alerter. -/
def liveCheck (tiering : TieringConfig) : Proc Unit := checkDailyBudgetAlert tiering ⟨.live⟩

section Check

variable {d d₁ : Daemon} {op : Op} {r : Except Exn op.Ret} {tiering : TieringConfig}

theorem alertDate_congr (h : d₁.shared = d.shared) : d₁.alertDate = d.alertDate := by
  rw [Daemon.alertDate, h]

/-- One call that is answered, followed by the rest. -/
theorem wp_answered_bind {α : Type} {f : op.Ret → Proc α} {Q : Except Exn α → Daemon → Prop}
    (hop : op.precedesAlert = true)
    (hok : ∀ a d₁, d.Responds alerterMayRaise op (.ok a) d₁ →
      (daemonMachine alerterMayRaise).wp (fun _ => True) (f a) Q d₁) :
    (daemonMachine alerterMayRaise).wp (fun _ => True) (call op >>= f) Q d := by
  refine wp_perform_bind trivial hok fun e d₁ h => ?_
  obtain ⟨a, ha⟩ := h.world.allowed hop
  cases ha

theorem Daemon.Responds.usage {date : String} {usage : LLMUsage} {A : Allowed}
    (h : d.Responds A (.getLlmUsage date) (.ok usage) d₁) :
    usage = d.world.db.getLlmUsage date := by
  rcases h.world.inv with ⟨a, db', ha, hgives, -⟩ | ⟨e, he, -⟩
  · cases ha
    exact (gives_getLlmUsage.1 hgives).1.symm
  · cases he

theorem hasBudgetRemaining_eq_false_iff (date : String) :
    hasBudgetRemaining (d.world.db.getLlmUsage date) tiering.dailyCallBudget = false ↔
      d.BudgetReached tiering date := by
  rw [hasBudgetRemaining, decide_eq_false_iff_not, not_lt, Daemon.BudgetReached]

/-- What a check leaves behind, when it has read `ts`.  Nothing is remembered and nobody is alerted
if the date has been alerted about or has budget left; otherwise the date is remembered, and then
there is an alert. -/
structure Checked (tiering : TieringConfig) (d d' : Daemon) (ts : String) (rest : List Event) :
    Prop where
  trace : d'.world.trace = d.world.trace ++ ⟨.now, .ok ts⟩ :: rest
  clock : ∀ event ∈ rest, event.op.readsClock = false
  outcome :
    ((d.alertDate = some (dateOf ts) ∨ ¬d.BudgetReached tiering (dateOf ts)) ∧
      d'.alertDate = d.alertDate ∧ ∀ event ∈ rest, event.op.notifies = false) ∨
    (d.alertDate ≠ some (dateOf ts) ∧ d.BudgetReached tiering (dateOf ts)) ∧
      d'.alertDate = some (dateOf ts) ∧ ∃ event ∈ rest, event.op.notifies = true

/-- **Everything one check can do.** -/
theorem check_cases {r : Except Exn Unit} {d' : Daemon}
    (h : (daemonMachine alerterMayRaise).Reaches (liveCheck tiering) d (.done r) d') :
    ∃ ts rest, Checked tiering d d' ts rest := by
  have hwp : (daemonMachine alerterMayRaise).wp (fun _ => True) (liveCheck tiering)
      (fun _ d' => ∃ ts rest, Checked tiering d d' ts rest) d := by
    refine wp_answered_bind rfl fun ts d₁ h₁ => ?_
    have hshared₁ : d₁.shared = d.shared := h₁.shared
    refine wp_answered_bind rfl fun alerted d₂ h₂ => ?_
    have hshared₂ : d₂.shared = d.shared := h₂.shared.2.trans hshared₁
    have halerted : alerted = d.alertDate := by
      rw [Except.ok.inj h₂.shared.1, hshared₁]
    have htrace₂ : d₂.world.trace = d.world.trace ++
        ⟨.now, .ok ts⟩ :: [⟨.budgetAlertDate, .ok alerted⟩] := by
      rw [h₂.world.trace, h₁.world.trace, List.append_assoc]
      rfl
    split
    · next hsame =>
      exact ⟨trivial, ts, _, htrace₂, by simp [Op.readsClock],
        .inl ⟨.inl (halerted ▸ hsame), alertDate_congr hshared₂, by simp [Op.notifies]⟩⟩
    · next hother =>
      refine wp_answered_bind rfl fun usage d₃ h₃ => ?_
      have hshared₃ : d₃.shared = d.shared := h₃.shared.trans hshared₂
      have husage : usage = d.world.db.getLlmUsage (dateOf ts) := by
        rw [h₃.usage, StateDB.getLlmUsage, StateDB.getLlmUsage, h₂.world.llmUsage rfl,
          h₁.world.llmUsage rfl]
      have htrace₃ : d₃.world.trace = d.world.trace ++ ⟨.now, .ok ts⟩ ::
          [⟨.budgetAlertDate, .ok alerted⟩, ⟨.getLlmUsage (dateOf ts), .ok usage⟩] := by
        rw [h₃.world.trace, htrace₂, List.append_assoc]
        rfl
      rw [husage]
      split
      · next hleft =>
        refine ⟨trivial, ts, _, htrace₃, by simp [Op.readsClock],
          .inl ⟨.inr fun hreached => ?_, alertDate_congr hshared₃, by simp [Op.notifies]⟩⟩
        rw [(hasBudgetRemaining_eq_false_iff _).2 hreached] at hleft
        cases hleft
      · next hleft =>
        have hreached := (hasBudgetRemaining_eq_false_iff _).1 (Bool.eq_false_iff.2 hleft)
        refine wp_answered_bind rfl fun _ d₄ h₄ => ?_
        have hdate₄ : d₄.alertDate = some (dateOf ts) := by
          rw [Daemon.alertDate, h₄.shared.2]
        refine wp_answered_bind rfl fun correlationId d₅ h₅ => ?_
        have hdate₅ : d₅.alertDate = some (dateOf ts) :=
          (alertDate_congr h₅.shared).trans hdate₄
        refine wp_perform trivial fun reply d₆ h₆ => ?_
        have htrace₆ := h₆.world.trace
        rw [h₅.world.trace, h₄.world.trace, htrace₃] at htrace₆
        simp only [List.append_assoc, List.cons_append, List.nil_append] at htrace₆
        exact ⟨trivial, ts, _, htrace₆, by simp [Op.readsClock],
          .inr ⟨⟨fun he => hother (halerted.trans he), hreached⟩,
            (alertDate_congr h₆.shared).trans hdate₅, by simp [Op.notifies]⟩⟩
  exact (wp_reaches hwp h).2

end Check

/-! ## One alert a day -/

/-- What can be seen of one check: its date, whether the usage of that date had reached the budget,
and whether it alerted. -/
structure BudgetCheck where
  date : String
  reached : Bool
  alerted : Bool

/-- The date of the last alert. -/
def lastAlert (checks : List BudgetCheck) : Option String :=
  (checks.filter fun check => check.alerted).getLast?.map BudgetCheck.date

/-- A check alerts exactly if the budget is reached and the last alert was on another date. -/
def OneShot (checks : List BudgetCheck) : Prop :=
  ∀ before check after, checks = before ++ check :: after →
    (check.alerted = true ↔ check.reached = true ∧ lastAlert before ≠ some check.date)

/-- The dates of the alerts. -/
def alertDates (checks : List BudgetCheck) : List String :=
  (checks.filter fun check => check.alerted).map BudgetCheck.date

section OneShot

variable {checks : List BudgetCheck} {check : BudgetCheck}

theorem lastAlert_eq (checks : List BudgetCheck) :
    lastAlert checks = (alertDates checks).getLast? := by
  rw [alertDates, List.getLast?_map]
  rfl

theorem alertDates_snoc (checks : List BudgetCheck) (check : BudgetCheck) :
    alertDates (checks ++ [check])
      = if check.alerted = true then alertDates checks ++ [check.date] else alertDates checks := by
  rw [alertDates, alertDates, List.filter_append, List.map_append]
  by_cases h : check.alerted = true
  · rw [List.filter_cons_of_pos h, if_pos h]
    rfl
  · rw [List.filter_cons_of_neg h, if_neg h, List.filter_nil, List.map_nil, List.append_nil]

theorem lastAlert_snoc (checks : List BudgetCheck) (check : BudgetCheck) :
    lastAlert (checks ++ [check])
      = if check.alerted = true then some check.date else lastAlert checks := by
  rw [lastAlert_eq, lastAlert_eq, alertDates_snoc]
  split
  · exact List.getLast?_concat
  · rfl

theorem mem_alertDates {date : String} :
    date ∈ alertDates checks ↔ ∃ check ∈ checks, check.date = date ∧ check.alerted = true := by
  rw [alertDates, List.mem_map]
  refine exists_congr fun check => ?_
  rw [List.mem_filter, and_assoc, and_congr_right_iff]
  exact fun _ => and_comm

/-- The last alert is one of the alerts. -/
theorem lastAlert_mem {date : String} (h : lastAlert checks = some date) :
    date ∈ alertDates checks := by
  obtain ⟨check, hlast, rfl⟩ := Option.map_eq_some_iff.1 h
  exact List.mem_map_of_mem (List.mem_of_getLast? hlast)

theorem OneShot.init (h : OneShot (checks ++ [check])) : OneShot checks :=
  (Tails.forall_split_snoc.1 h).1

/-- A date gets an alert exactly if a check on it has seen the budget reached. -/
theorem OneShot.mem_alertDates_iff (h : OneShot checks) (date : String) :
    date ∈ alertDates checks ↔
      ∃ check ∈ checks, check.date = date ∧ check.reached = true := by
  rw [mem_alertDates]
  constructor
  · rintro ⟨check, hm, hdate, halerted⟩
    obtain ⟨before, after, rfl⟩ := List.append_of_mem hm
    exact ⟨check, hm, hdate, ((h before check after rfl).1 halerted).1⟩
  · rintro ⟨check, hm, rfl, hreached⟩
    obtain ⟨before, after, rfl⟩ := List.append_of_mem hm
    by_cases hlast : lastAlert before = some check.date
    · obtain ⟨check', hm', hdate, halerted⟩ := mem_alertDates.1 (lastAlert_mem hlast)
      exact ⟨check', List.mem_append_left _ hm', hdate, halerted⟩
    · exact ⟨check, hm, rfl, (h before check after rfl).2 ⟨hreached, hlast⟩⟩

/-- If the dates never go back, the last alert has the latest of the dates. -/
theorem le_lastAlert {date : String}
    (hforward : (checks.map BudgetCheck.date).Pairwise (· ≤ ·)) (hdate : date ∈ alertDates checks) :
    ∃ last, lastAlert checks = some last ∧ date ≤ last := by
  have hsorted : (alertDates checks).Pairwise (· ≤ ·) :=
    hforward.sublist (List.filter_sublist.map _)
  rcases List.eq_nil_or_concat (alertDates checks) with hnil | ⟨dates, last, hdates⟩
  · rw [hnil] at hdate
    cases hdate
  · rw [List.concat_eq_append] at hdates
    rw [hdates] at hsorted hdate
    refine ⟨last, by rw [lastAlert_eq, hdates, List.getLast?_concat], ?_⟩
    rcases List.mem_append.1 hdate with hdate | hdate
    · exact (List.pairwise_append.1 hsorted).2.2 _ hdate _ List.mem_cons_self
    · exact (List.mem_singleton.1 hdate).le

/-- If the dates never go back, no date gets two alerts. -/
theorem OneShot.nodup (h : OneShot checks)
    (hforward : (checks.map BudgetCheck.date).Pairwise (· ≤ ·)) : (alertDates checks).Nodup := by
  induction checks using List.reverseRecOn with
  | nil => exact List.nodup_nil
  | append_singleton checks check ih =>
    rw [List.map_append, List.pairwise_append] at hforward
    obtain ⟨hforward, -, hlate⟩ := hforward
    have hinit := ih h.init hforward
    rw [alertDates_snoc]
    split
    · next halerted =>
      rw [List.nodup_append]
      refine ⟨hinit, List.nodup_singleton _, fun date hdate date' hdate' he => ?_⟩
      rw [List.mem_singleton.1 hdate'] at he
      subst he
      -- the last alert is no earlier than the one on this date, and no later than this check
      obtain ⟨last, hlast, hle⟩ := le_lastAlert hforward hdate
      have hge : last ≤ check.date := by
        obtain ⟨alert, hm, rfl, -⟩ := mem_alertDates.1 (lastAlert_mem hlast)
        exact hlate _ (List.mem_map_of_mem hm) _ List.mem_cons_self
      exact ((h checks check [] rfl).1 halerted).2 (by rw [hlast, le_antisymm hge hle])
    · exact hinit

end OneShot

/-! ## Runs of checks -/

/-- One check of the process, as it can be seen. -/
structure Daemon.Checks (tiering : TieringConfig) (d : Daemon) (check : BudgetCheck)
    (d' : Daemon) : Prop where
  run : ∃ r, (daemonMachine alerterMayRaise).Reaches (liveCheck tiering) d (.done r) d'
  date : ∃ ts, ⟨.now, .ok ts⟩ ∈ eventsSince d.world d'.world ∧ check.date = dateOf ts
  reached : check.reached = true ↔ d.BudgetReached tiering check.date
  alerted : check.alerted = true ↔
    ∃ event ∈ eventsSince d.world d'.world, event.op.notifies = true

/-- Anything else may have happened to the process in between, as long as the remembered date is
still the same. -/
def Elsewhere (d d' : Daemon) : Prop := d'.alertDate = d.alertDate

/-- Checks, with anything else in between. -/
inductive BudgetRun (tiering : TieringConfig) (d : Daemon) : List BudgetCheck → Daemon → Prop where
  | start : BudgetRun tiering d [] d
  | check {checks : List BudgetCheck} {check : BudgetCheck} {d₁ d₂ d₃ : Daemon}
      (h : BudgetRun tiering d checks d₁) (helsewhere : Elsewhere d₁ d₂)
      (hcheck : d₂.Checks tiering check d₃) : BudgetRun tiering d (checks ++ [check]) d₃

section Run

variable {tiering : TieringConfig} {d d' : Daemon} {checks : List BudgetCheck}
  {check : BudgetCheck}

/-- The handlers leave the remembered date alone. -/
theorem elsewhere_handle (d : Daemon) (h : Handler) : Elsewhere d (d.handle h) := by
  cases h with
  | stop => rfl
  | request r =>
    cases r with
    | reload loaded => cases loaded <;> rfl
    | _ => rfl

/-- So do all calls of the message loop but one. -/
theorem elsewhere_responds {A : Allowed} {op : Op} {r : Except Exn op.Ret}
    (h : d.Responds A op r d') (hop : ∀ date, op ≠ .setBudgetAlertDate date) : Elsewhere d d' := by
  have hshared := h.shared
  cases op with
  | setBudgetAlertDate date => exact absurd rfl (hop date)
  | takePendingEvents => rw [Elsewhere, Daemon.alertDate, hshared.2]
  | stopIsSet | isPaused | currentRules | budgetAlertDate =>
    exact alertDate_congr hshared.2
  | _ => exact alertDate_congr hshared

/-- A check alerts exactly if the budget is reached and its date is not the remembered one, which it
then is. -/
theorem Daemon.Checks.step (h : d.Checks tiering check d') :
    (check.alerted = true ↔ check.reached = true ∧ d.alertDate ≠ some check.date) ∧
      d'.alertDate = if check.alerted = true then some check.date else d.alertDate := by
  obtain ⟨r, hrun⟩ := h.run
  obtain ⟨ts, rest, hchecked⟩ := check_cases hrun
  have hevents : eventsSince d.world d'.world = ⟨.now, .ok ts⟩ :: rest := by
    rw [eventsSince, hchecked.trace, List.drop_left]
  have hdate : check.date = dateOf ts := by
    obtain ⟨ts', hm, hdate⟩ := h.date
    rw [hevents] at hm
    rcases List.mem_cons.1 hm with he | hm
    · cases he
      exact hdate
    · cases hchecked.clock _ hm
  have halerted : check.alerted = true ↔ ∃ event ∈ rest, event.op.notifies = true := by
    rw [h.alerted, hevents]
    constructor
    · rintro ⟨event, hm, hnotifies⟩
      rcases List.mem_cons.1 hm with rfl | hm
      · cases hnotifies
      · exact ⟨event, hm, hnotifies⟩
    · rintro ⟨event, hm, hnotifies⟩
      exact ⟨event, List.mem_cons_of_mem _ hm, hnotifies⟩
  rw [h.reached, hdate]
  rcases hchecked.outcome with ⟨hquiet, hsame, hnone⟩ | ⟨⟨hother, hreached⟩, hset, hsome⟩
  · have hnot : ¬check.alerted = true := fun ha => by
      obtain ⟨event, hm, hnotifies⟩ := halerted.1 ha
      rw [hnone event hm] at hnotifies
      cases hnotifies
    rw [if_neg hnot]
    refine ⟨iff_of_false hnot ?_, hsame⟩
    rintro ⟨hreached, hother⟩
    exact hquiet.elim hother (absurd hreached)
  · rw [if_pos (halerted.2 hsome)]
    exact ⟨iff_of_true (halerted.2 hsome) ⟨hreached, hother⟩, hset⟩

/-- **Along a run the remembered date is that of the last alert**, and the guard is exact. -/
theorem BudgetRun.oneShot (hnew : d.alertDate = none) (h : BudgetRun tiering d checks d') :
    OneShot checks ∧ d'.alertDate = lastAlert checks := by
  induction h with
  | start => exact ⟨Tails.forall_split_nil, hnew⟩
  | @check checks check d₁ d₂ d₃ _ helsewhere hcheck ih =>
    obtain ⟨hshot, hlast⟩ := ih
    obtain ⟨halerted, hset⟩ := hcheck.step
    rw [helsewhere, hlast] at halerted hset
    exact ⟨Tails.forall_split_snoc.2 ⟨hshot, halerted⟩, by rw [hset, lastAlert_snoc]⟩

end Run

/-- **The alert for an exhausted budget is given once a day.**  A check alerts exactly if the usage
of its date has reached the budget and the last alert was not on that date; so, as long as the dates
never go back, a date gets one alert at most, and it gets one exactly if some check on it has seen
the budget reached. -/
theorem budget_alert_once_a_day (tiering : TieringConfig) {d d' : Daemon}
    {checks : List BudgetCheck} (hnew : d.shared.daemonState.budgetExhaustedAlertDate = none)
    (hrun : BudgetRun tiering d checks d') :
    (∀ before check after, checks = before ++ check :: after →
      (check.alerted = true ↔ check.reached = true ∧ lastAlert before ≠ some check.date)) ∧
      ((checks.map BudgetCheck.date).Pairwise (· ≤ ·) → (alertDates checks).Nodup) ∧
      ∀ date, date ∈ alertDates checks ↔
        ∃ check ∈ checks, check.date = date ∧ check.reached = true := by
  obtain ⟨hshot, -⟩ := hrun.oneShot hnew
  exact ⟨hshot, hshot.nodup, hshot.mem_alertDates_iff⟩

/-- A quiet day is one on which a check is answered. -/
theorem Env.quiet_precedesAlert (d : Daemon) (op : Op) :
    d.Responds alerterMayRaise op (Env.quiet.onDaemon d op).1 (Env.quiet.onDaemon d op).2 := by
  have h := Env.onDaemon_responds Env.quiet_lawful d op
  refine ⟨h.world.allowing fun hop => ?_, h.shared, h.enqueued⟩
  cases op <;> first | exact ⟨_, rfl⟩ | cases hop

/-- Two checks on one day, without any budget. -/
def twoChecks : List BudgetCheck := [⟨"2026-01-05", true, true⟩, ⟨"2026-01-05", true, false⟩]

/-- The first of them alerts. -/
theorem twoChecks_alert_once :
    ∃ d', BudgetRun { dailyCallBudget := 0 } (.start ⟨.empty, []⟩ {}) twoChecks d' ∧
      "2026-01-05" ∈ alertDates twoChecks ∧ (alertDates twoChecks).Nodup := by
  let tiering : TieringConfig := { dailyCallBudget := 0 }
  let d₁ := ((liveCheck tiering).eval Env.quiet.onDaemon (.start ⟨.empty, []⟩ {})).2
  let d₂ := ((liveCheck tiering).eval Env.quiet.onDaemon d₁).2
  have hfirst : (Daemon.start ⟨.empty, []⟩ {}).Checks tiering ⟨"2026-01-05", true, true⟩ d₁ :=
    ⟨⟨_, Prog.eval_reaches Env.quiet_precedesAlert _ _⟩,
      ⟨"2026-01-05T09:00:00+00:00", List.mem_of_getElem? (i := 0) rfl, by decide⟩,
      iff_of_true rfl (by decide), iff_of_true rfl ⟨_, List.mem_of_getElem? (i := 5) rfl, rfl⟩⟩
  have hnone : (eventsSince d₁.world d₂.world).all (fun event => !event.op.notifies) = true := rfl
  have hsecond : d₁.Checks tiering ⟨"2026-01-05", true, false⟩ d₂ := by
    refine ⟨⟨_, Prog.eval_reaches Env.quiet_precedesAlert _ _⟩,
      ⟨"2026-01-05T09:00:00+00:00", List.mem_of_getElem? (i := 0) rfl, by decide⟩,
      iff_of_true rfl (by decide), iff_of_false Bool.false_ne_true ?_⟩
    rintro ⟨event, hm, hnotifies⟩
    have := List.all_eq_true.1 hnone event hm
    rw [hnotifies] at this
    cases this
  have hrun : BudgetRun tiering (.start ⟨.empty, []⟩ {}) twoChecks d₂ :=
    .check (.check .start rfl hfirst) rfl hsecond
  obtain ⟨-, hnodup, hmem⟩ := budget_alert_once_a_day tiering rfl hrun
  exact ⟨d₂, hrun, (hmem _).2 ⟨_, List.mem_cons_self, rfl, rfl⟩, hnodup (by decide)⟩

end Spork
