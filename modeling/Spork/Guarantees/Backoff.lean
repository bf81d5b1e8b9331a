import Spork.Jmap.Push
import Spork.Tails
import Mathlib.Algebra.Order.Field.Rat
import Mathlib.Data.List.Induction
import Mathlib.Tactic.NormNum

/-!
# Reconnecting

The trigger's counter is the number of failing calls since the last one that returned
(`attempt_afterWaits`), as long as every delay is slept to its end; a sleep that raises leaves the
counter where it was and its exception is what the call raises.

* `Delivers`, `failuresSince`: which calls return, and the length of the outage before a call.
* `wait_follows_schedule_iff`: the calls follow the schedule exactly if no delay of it that is due
  is one that cannot be slept.
-/

set_option autoImplicit false

namespace Spork

namespace JmapPushTrigger

variable {sleep : Sleep} {trigger : JmapPushTrigger} {source : EventSource}
  {sources : List EventSource}

/-! ## Streams -/

/-- A relevant event comes before the stream fails. -/
def Delivers (trigger : JmapPushTrigger) (source : EventSource) : Prop :=
  ∃ before event after, source.events = before ++ event :: after ∧
    (∀ e ∈ before, trigger.isRelevant source.clientAccountId e = .ok false) ∧
      trigger.isRelevant source.clientAccountId event = .ok true

theorem listen_eq_true_iff : ∀ {events : List PushEvent},
    trigger.listen source events = .ok true ↔ ∃ before event after,
      events = before ++ event :: after ∧
        (∀ e ∈ before, trigger.isRelevant source.clientAccountId e = .ok false) ∧
          trigger.isRelevant source.clientAccountId event = .ok true
  | [] => by
    refine iff_of_false ?_ ?_
    · rw [listen]
      cases source.ending <;> rintro ⟨⟩
    · rintro ⟨before, event, after, he, -⟩
      exact absurd he.symm (List.append_ne_nil_of_right_ne_nil _ (List.cons_ne_nil _ _))
  | event :: events => by
    rw [listen]
    cases hrelevant : trigger.isRelevant source.clientAccountId event with
    | error e =>
      refine iff_of_false (by rintro ⟨⟩) ?_
      rintro ⟨before, event', after, he, hbefore, hevent'⟩
      cases before with
      | nil =>
        obtain ⟨rfl, -⟩ := List.cons.inj he
        rw [hrelevant] at hevent'
        cases hevent'
      | cons first before =>
        obtain ⟨rfl, -⟩ := List.cons.inj he
        rw [hbefore _ List.mem_cons_self] at hrelevant
        cases hrelevant
    | ok relevant =>
      cases relevant with
      | true => exact iff_of_true rfl ⟨[], event, events, rfl, (by rintro e ⟨⟩), hrelevant⟩
      | false =>
        refine Iff.trans listen_eq_true_iff ⟨?_, ?_⟩
        · rintro ⟨before, event', after, rfl, hbefore, hevent'⟩
          exact ⟨event :: before, event', after, rfl,
            List.forall_mem_cons.2 ⟨hrelevant, hbefore⟩, hevent'⟩
        · rintro ⟨before, event', after, he, hbefore, hevent'⟩
          cases before with
          | nil =>
            obtain ⟨rfl, -⟩ := List.cons.inj he
            rw [hrelevant] at hevent'
            cases hevent'
          | cons first before =>
            obtain ⟨rfl, rfl⟩ := List.cons.inj he
            exact ⟨before, event', after, rfl, (List.forall_mem_cons.1 hbefore).2, hevent'⟩

theorem delivers_iff : trigger.Delivers source ↔ trigger.listen source source.events = .ok true :=
  listen_eq_true_iff.symm

instance (trigger : JmapPushTrigger) (source : EventSource) :
    Decidable (trigger.Delivers source) :=
  decidable_of_iff _ delivers_iff.symm

/-- The streams that have failed since the last one that delivered. -/
def failuresSince (trigger : JmapPushTrigger) (sources : List EventSource) : Nat :=
  (sources.reverse.takeWhile fun source => !decide (trigger.Delivers source)).length

/-- The delay that is due after `k` failures. -/
def dueDelay (trigger : JmapPushTrigger) (k : Nat) : Option PyFloat :=
  trigger.reconnectBackoff[min k (trigger.reconnectBackoff.length - 1)]?

theorem failuresSince_snoc (trigger : JmapPushTrigger) (sources : List EventSource)
    (source : EventSource) : trigger.failuresSince (sources ++ [source])
      = if trigger.Delivers source then 0 else trigger.failuresSince sources + 1 := by
  rw [failuresSince, failuresSince, List.reverse_append, List.reverse_singleton,
    List.singleton_append, List.takeWhile_cons]
  by_cases h : trigger.Delivers source <;> simp [h]

/-! ## One call -/

/-- What `next_delay` returns is due. -/
theorem nextDelay_eq (trigger : JmapPushTrigger) (k : Nat) :
    nextDelay trigger.reconnectBackoff k =
      match trigger.dueDelay k with
      | some delay => .ok delay
      | none => .error ⟨.valueError, "reconnect backoff schedule must not be empty"⟩ := by
  rw [dueDelay]
  cases hschedule : trigger.reconnectBackoff with
  | nil => rfl
  | cons first rest =>
    have hlt : min k ((first :: rest).length - 1) < (first :: rest).length := by
      rw [List.length_cons]
      omega
    rw [nextDelay, if_neg (by omega), Int.toNat_natCast]
    dsimp only
    rw [List.getElem?_eq_getElem hlt]
    rfl

theorem dueDelay_eq_none (k : Nat) : trigger.dueDelay k = none ↔ trigger.reconnectBackoff = [] := by
  rw [dueDelay, List.getElem?_eq_none_iff, ← List.length_eq_zero_iff]
  omega

/-- The same trigger with another count. -/
def counting (trigger : JmapPushTrigger) (attempt : Nat) : JmapPushTrigger :=
  { trigger with attempt := attempt }

/-- **Everything a call can do.**  It returns; or it fails without a delay, because none is due; or
it has slept the delay that is due, to its end or not. -/
theorem wait_cases (sleep : Sleep) (trigger : JmapPushTrigger) (attempt : Nat)
    (source : EventSource) :
    (trigger.Delivers source ∧
        (trigger.counting attempt).wait sleep source = (trigger.counting 0, ⟨none, []⟩)) ∨
      (¬trigger.Delivers source ∧ trigger.dueDelay attempt = none ∧ ∃ reason,
        (trigger.counting attempt).wait sleep source
          = (trigger.counting attempt, ⟨some ⟨jmapPushDisconnectedError, reason⟩, []⟩)) ∨
      ¬trigger.Delivers source ∧ ∃ delay, trigger.dueDelay attempt = some delay ∧
        ((∃ e, sleep.run delay = .error e ∧ (trigger.counting attempt).wait sleep source
            = (trigger.counting attempt, ⟨some e, [delay]⟩)) ∨
          sleep.run delay = .ok () ∧ ∃ reason, (trigger.counting attempt).wait sleep source
            = (trigger.counting (attempt + 1),
                ⟨some ⟨jmapPushDisconnectedError, reason⟩, [delay]⟩)) := by
  by_cases hdelivers : trigger.Delivers source
  · refine .inl ⟨hdelivers, ?_⟩
    have hlisten : (trigger.counting attempt).listen source source.events = .ok true :=
      delivers_iff.1 (show (trigger.counting attempt).Delivers source from hdelivers)
    rw [wait, hlisten]
    rfl
  · have hend : ∃ reason, (trigger.counting attempt).wait sleep source
        = (trigger.counting attempt).disconnect sleep reason := by
      have hlisten : (trigger.counting attempt).listen source source.events ≠ .ok true :=
        fun h => hdelivers (show (trigger.counting attempt).Delivers source from delivers_iff.2 h)
      rw [wait]
      cases hend : (trigger.counting attempt).listen source source.events with
      | error e => exact ⟨_, rfl⟩
      | ok relevant =>
        cases relevant with
        | true => exact absurd hend hlisten
        | false => exact ⟨_, rfl⟩
    obtain ⟨reason, hwait⟩ := hend
    have hnext : nextDelay (trigger.counting attempt).reconnectBackoff
        (trigger.counting attempt).attempt = _ := nextDelay_eq trigger attempt
    rw [hwait, disconnect, hnext]
    cases hdue : trigger.dueDelay attempt with
    | none => exact .inr (.inl ⟨hdelivers, rfl, _, rfl⟩)
    | some delay =>
      dsimp only
      cases hsleep : sleep.run delay with
      | error e => exact .inr (.inr ⟨hdelivers, delay, rfl, .inl ⟨e, hsleep, rfl⟩⟩)
      | ok _ => exact .inr (.inr ⟨hdelivers, delay, rfl, .inr ⟨hsleep, reason, rfl⟩⟩)

/-! ## Runs of calls -/

theorem afterWaits_snoc (sleep : Sleep) (trigger : JmapPushTrigger) (sources : List EventSource)
    (source : EventSource) : trigger.afterWaits sleep (sources ++ [source])
      = ((trigger.afterWaits sleep sources).wait sleep source).1 := by
  rw [afterWaits, List.foldl_append]
  rfl

/-- What the calls before have left behind: only the counter is another. -/
theorem afterWaits_eq (sleep : Sleep) (trigger : JmapPushTrigger) (sources : List EventSource) :
    ∃ attempt, trigger.afterWaits sleep sources = trigger.counting attempt := by
  induction sources using List.reverseRecOn with
  | nil => exact ⟨trigger.attempt, rfl⟩
  | append_singleton sources source ih =>
    obtain ⟨attempt, ih⟩ := ih
    rw [afterWaits_snoc, ih]
    rcases wait_cases sleep trigger attempt source with
      ⟨-, hwait⟩ | ⟨-, -, reason, hwait⟩ | ⟨-, delay, -, ⟨e, -, hwait⟩ | ⟨-, reason, hwait⟩⟩
    · exact ⟨0, by rw [hwait]⟩
    · exact ⟨attempt, by rw [hwait]⟩
    · exact ⟨attempt, by rw [hwait]⟩
    · exact ⟨attempt + 1, by rw [hwait]⟩

/-- The delays that are due in the course of the calls can all be slept. -/
def Sleepable (sleep : Sleep) (trigger : JmapPushTrigger) (sources : List EventSource) : Prop :=
  ∀ before source after, sources = before ++ source :: after → ¬trigger.Delivers source →
    ∀ delay, trigger.dueDelay (trigger.failuresSince before) = some delay →
      sleep.run delay = .ok ()

theorem sleepable_snoc : Sleepable sleep trigger (sources ++ [source]) ↔
    Sleepable sleep trigger sources ∧ (¬trigger.Delivers source → ∀ delay,
      trigger.dueDelay (trigger.failuresSince sources) = some delay → sleep.run delay = .ok ()) :=
  Tails.forall_split_snoc

/-- **The counter counts the failures since the last success**, if there is a schedule. -/
theorem attempt_afterWaits (hnew : trigger.attempt = 0) (hschedule : trigger.reconnectBackoff ≠ [])
    (h : Sleepable sleep trigger sources) :
    (trigger.afterWaits sleep sources).attempt = trigger.failuresSince sources := by
  induction sources using List.reverseRecOn with
  | nil => exact hnew
  | append_singleton sources source ih =>
    obtain ⟨hinit, hlast⟩ := sleepable_snoc.1 h
    obtain ⟨attempt, hafter⟩ := afterWaits_eq sleep trigger sources
    have hattempt : attempt = trigger.failuresSince sources := by
      rw [← ih hinit, hafter]
      rfl
    rw [afterWaits_snoc, hafter, failuresSince_snoc]
    rcases wait_cases sleep trigger attempt source with
      ⟨hdelivers, hwait⟩ | ⟨-, hnone, -⟩ | ⟨hfails, delay, hdue, ⟨e, he, -⟩ | ⟨-, reason, hwait⟩⟩
    · rw [hwait, if_pos hdelivers]
      rfl
    · exact absurd ((dueDelay_eq_none attempt).1 hnone) hschedule
    · rw [hlast hfails delay (hattempt ▸ hdue)] at he
      cases he
    · rw [hwait, if_neg hfails, ← hattempt]
      rfl

/-! ## The guarantee -/

/-- What a call does after `k` failing ones.  It returns, without a delay, exactly if its stream
delivers; otherwise it raises a disconnect and has slept what is due. -/
structure FollowsSchedule (trigger : JmapPushTrigger) (k : Nat) (source : EventSource)
    (outcome : WaitOutcome) : Prop where
  returns : outcome.raised = none ↔ trigger.Delivers source
  undelayed : outcome.raised = none → outcome.sleeps = []
  raises : ∀ e, outcome.raised = some e → e.cls = jmapPushDisconnectedError
  delayed : outcome.raised ≠ none → outcome.sleeps = (trigger.dueDelay k).toList

/-- A call with the right counter follows the schedule exactly if the delay can be slept. -/
theorem followsSchedule_wait {attempt k : Nat}
    (hk : trigger.reconnectBackoff ≠ [] → attempt = k) :
    trigger.FollowsSchedule k source ((trigger.counting attempt).wait sleep source).2 ↔
      (¬trigger.Delivers source → ∀ delay, trigger.dueDelay k = some delay →
        sleep.run delay = .ok ()) := by
  rcases wait_cases sleep trigger attempt source with
    ⟨hdelivers, hwait⟩ | ⟨hfails, hnone, reason, hwait⟩ | ⟨hfails, delay, hdue, hslept⟩
  · rw [hwait]
    exact iff_of_true
      ⟨iff_of_true rfl hdelivers, fun _ => rfl, by rintro e ⟨⟩, fun h => absurd rfl h⟩
      fun hfails => absurd hdelivers hfails
  · have hdue : trigger.dueDelay k = none :=
      (dueDelay_eq_none k).2 ((dueDelay_eq_none attempt).1 hnone)
    rw [hwait, hdue]
    refine iff_of_true ⟨iff_of_false (by rintro ⟨⟩) hfails, by rintro ⟨⟩, ?_, fun _ => ?_⟩ ?_
    · rintro e ⟨⟩
      rfl
    · rw [hdue]
      rfl
    · rintro - delay ⟨⟩
  · have hschedule : trigger.reconnectBackoff ≠ [] := fun hnil => by
      rw [(dueDelay_eq_none attempt).2 hnil] at hdue
      cases hdue
    obtain rfl := hk hschedule
    rw [hdue]
    rcases hslept with ⟨e, he, hwait⟩ | ⟨hok, reason, hwait⟩
    · -- what the sleep raises is no disconnect
      rw [hwait]
      refine iff_of_false (fun h => sleep.foreign delay e he (h.raises e rfl)) fun h => ?_
      rw [h hfails delay rfl] at he
      cases he
    · rw [hwait]
      refine iff_of_true ⟨iff_of_false (by rintro ⟨⟩) hfails, by rintro ⟨⟩, ?_, fun _ => ?_⟩ ?_
      · rintro e ⟨⟩
        rfl
      · rw [hdue]
        rfl
      · rintro - delay ⟨⟩
        exact hok

end JmapPushTrigger

open JmapPushTrigger in
/-- **Reconnecting follows the schedule, whatever fails when**, exactly if every delay that is due
in the course of it can be slept. -/
theorem wait_follows_schedule_iff (sleep : Sleep) (accountId : Option String)
    (schedule : List PyFloat) (sources : List EventSource) :
    (∀ before source after, sources = before ++ source :: after →
      FollowsSchedule ⟨accountId, schedule, 0⟩ (failuresSince ⟨accountId, schedule, 0⟩ before)
        source ((afterWaits sleep ⟨accountId, schedule, 0⟩ before).wait sleep source).2) ↔
      Sleepable sleep ⟨accountId, schedule, 0⟩ sources := by
  induction sources using List.reverseRecOn with
  | nil => exact iff_of_true Tails.forall_split_nil Tails.forall_split_nil
  | append_singleton sources last ih =>
    rw [sleepable_snoc, ← ih]
    refine Tails.forall_split_snoc.trans (and_congr_right fun hinit => ?_)
    -- the counter of the last call is right, since everything before it could be slept
    obtain ⟨attempt, hafter⟩ := afterWaits_eq sleep ⟨accountId, schedule, 0⟩ sources
    rw [hafter]
    refine followsSchedule_wait fun hschedule => ?_
    rw [← attempt_afterWaits rfl hschedule (ih.1 hinit), hafter]
    rfl

/-- A stream with nothing on it. -/
def silentSource : EventSource where
  clientAccountId := .ok "account-1"
  events := []

/-- A negative delay cannot be slept, and that is no disconnect. -/
theorem negative_delay_escapes :
    ∃ outcome, (JmapPushTrigger.wait timeSleep ⟨none, [.fin (-1)], 0⟩ silentSource).2 = outcome ∧
      outcome.raised = some ⟨.valueError, "sleep length must be non-negative"⟩ ∧
      ¬JmapPushTrigger.FollowsSchedule ⟨none, [.fin (-1)], 0⟩ 0 silentSource outcome := by
  have houtcome : (JmapPushTrigger.wait timeSleep ⟨none, [.fin (-1)], 0⟩ silentSource).2.raised
      = some ⟨.valueError, "sleep length must be non-negative"⟩ := by
    decide +kernel
  exact ⟨_, rfl, houtcome, fun h => absurd (h.raises _ houtcome) (by decide)⟩

end Spork
