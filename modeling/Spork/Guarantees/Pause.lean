import Spork.Daemon.Shared
import Spork.Guarantees.Handling

/-!
# What a pause stops

`spork pause` promises to stop Tier 1.  The message loop looks at `paused` once in a round, before
it asks the source, and then waits for the source, which is where it spends its time; so a pause
that is answered after the look is only seen in the next round, and every message of this one is
processed.

`HoldsBack` says that a round is past that danger: if the daemon is paused from here on, what is
left of the round starts no message.  It does so before the look (`holdsBack_of_unlooked`), behind
the start of the last message of its batch, and behind a poll that has brought nothing
(`holdsBack_of_started`).  A pause that is answered where the round holds back takes effect at once
(`no_start_while_paused`); `pause_ignored_during_poll` is one that is not.
-/

set_option autoImplicit false

namespace Spork

open Effects

/-- What happens to the message loop: a call of its own, or a handler. -/
abbrev LoopEvent : Type := Task.Happening sig Handler

/-- What a round does once it has read the rules. -/
def afterPoll (config : LoopConfig) (batch : MessageBatch) (rules : List Rule) :
    Proc (Next Unit Unit) :=
  if batch.messages = [] then idleRound config batch.checkpoint else busyRound config rules batch

/-! ## Starting a message -/

/-- The loop itself takes a step, and hands message `id` to `process_message` with it. -/
def StartsMessage (A : Allowed) (config : LoopConfig) (c c' : DaemonPoint) (id : String) : Prop :=
  Task.Step (daemonMachine A) Op.awaits (fun _ _ => False) (messageLoop config) c c' ∧
    ∃ k, c'.rest = .call (.hasProcessed id) k

/-- The pause or resume command that was answered last is a pause. -/
def Daemon.PauseAnsweredLast (d : Daemon) : Prop := d.enqueued.getLast? = some .daemonPaused

/-! ## Holding back -/

/-- The answers of a daemon that is paused and stays so. -/
def StaysPaused : (op : Op) → Except Exn op.Ret → Prop
  | .isPaused, r => r = .ok true
  | _, _ => True

/-- If the daemon is paused from here on, the program starts no message. -/
def HoldsBack {α : Type} (p : Proc α) : Prop :=
  p.OnlyGiven StaysPaused fun op : Op => op.startsMessage = false

/-- A pause is only answered where the round holds back; every other handler runs anywhere. -/
def PausesWhereItHoldsBack (c : DaemonPoint) (h : Handler) : Prop :=
  h = .request .pause → HoldsBack c.rest

theorem drainEvents_holdsBack : ∀ events : List PendingAuditEvent, HoldsBack (drainEvents events)
  | [] => trivial
  | _ :: events =>
    .perform_bind rfl fun _ _ => .perform_bind rfl fun _ _ => drainEvents_holdsBack events

/-- **A round that begins while the daemon is paused starts no message.** -/
theorem messageLoop_holdsBack (config : LoopConfig) (s : Unit) :
    HoldsBack (messageLoop config s) := by
  refine .perform_bind rfl fun stop _ => ?_
  split
  · trivial
  · refine .perform_bind rfl fun pending _ => (drainEvents_holdsBack pending).bind fun _ => ?_
    refine .perform_bind rfl fun paused hpaused => ?_
    cases hpaused
    exact .perform_bind rfl fun _ _ => trivial

/-- **Before the look** a round holds back, and behind one that has found the daemon paused. -/
theorem holdsBack_of_unlooked {config : LoopConfig} {es : List LoopEvent}
    {p : Proc (Next Unit Unit)} (h : Task.Left (messageLoop config ()) es p)
    (hlook : ∀ op r, .called op r ∈ es → StaysPaused op r) : HoldsBack p :=
  h.onlyGiven (messageLoop_holdsBack config ()) hlook

/-! ### Behind the poll -/

/-- The calls that start a message. -/
abbrev Starts (op : Op) : Prop := op.startsMessage = true

section Starting

variable {config : LoopConfig} {α : Type}

theorem startsNone {p : Proc α} (h : p.Only fun op : Op => op.startsMessage = false) :
    p.AtMost Starts 0 :=
  Prog.atMost_of_only 0 (h.mono fun _ => ne_true_of_eq_false)

theorem ProcessingCall.startsMessage {message : NormalizedMessage} {op : Op}
    (h : ProcessingCall message op) : op.startsMessage = false := by
  cases h with
  | settling h => cases h with
    | supporting h => cases op <;> first | rfl | exact h.elim
    | _ => rfl
  | asking h => cases h with
    | supporting h => cases op <;> first | rfl | exact h.elim
    | asksModel h => cases op <;> first | rfl | exact h.elim
    | record => rfl

theorem Op.Housekeeping.startsMessage {op : Op} (h : op.Housekeeping) :
    op.startsMessage = false := by
  cases h with
  | supporting h => cases op <;> first | rfl | exact h.elim
  | _ => rfl

/-- A message is started once. -/
theorem processOne_atMost (hdeps : config.deps.Wired) (rules : List Rule)
    (message : NormalizedMessage) : (processOne config rules message).AtMost Starts 1 := by
  have hhandle : (handleMessage config.deps rules message).AtMost Starts 1 := by
    obtain ⟨rest, heq, hrest⟩ := handleMessage_gate message hdeps rules
    rw [heq]
    exact Prog.atMost_perform.bind_left fun seen =>
      startsNone ((hrest seen).mono fun _ => ProcessingCall.startsMessage)
  refine (Prog.AtMost.of_bind hhandle).bind_left fun verdict => .ite (startsNone ?_) trivial
  refine ((escalateMessageOrQuarantine_only hdeps.escalation).mono fun _ =>
    ProcessingCall.startsMessage).bind fun _ => ?_
  exact (checkDailyBudgetAlert_only hdeps.tier1.alert).mono fun _ => Op.Housekeeping.startsMessage

theorem processBatch_atMost (hdeps : config.deps.Wired) (rules : List Rule) :
    ∀ messages : List NormalizedMessage,
      (processBatch config rules messages).AtMost Starts messages.length
  | [] => trivial
  | message :: messages => by
    have hstop : (call .stopIsSet).AtMost Starts 0 := startsNone (Prog.only_perform.2 rfl)
    refine hstop.bind_right fun stop => .ite trivial ?_
    rw [List.length_cons, Nat.add_comm]
    exact (processOne_atMost hdeps rules message).bind fun _ =>
      processBatch_atMost hdeps rules messages

theorem acknowledge_startsNone (config : LoopConfig) (checkpoint : Option String) :
    (acknowledge config checkpoint).Only fun op : Op => op.startsMessage = false := by
  unfold acknowledge
  split
  · exact Prog.only_perform.2 rfl
  · trivial

theorem idleRound_startsNone (config : LoopConfig) (checkpoint : Option String) :
    (idleRound config checkpoint).Only fun op : Op => op.startsMessage = false :=
  (acknowledge_startsNone config checkpoint).bind fun _ =>
    Prog.Only.bind (Prog.only_perform.2 rfl) fun _ => trivial

/-- Behind its poll a round starts the messages of its batch, and no others. -/
theorem afterPoll_atMost (hdeps : config.deps.Wired) (batch : MessageBatch) :
    (call .currentRules >>= afterPoll config batch).AtMost Starts batch.messages.length := by
  have hread : (call .currentRules).AtMost Starts 0 := startsNone (Prog.only_perform.2 rfl)
  refine hread.bind_right fun rules => ?_
  refine .ite ((startsNone (idleRound_startsNone config _)).mono (Nat.zero_le _)) ?_
  refine (processBatch_atMost hdeps rules batch.messages).bind_left fun finished => ?_
  exact .ite (startsNone ((acknowledge_startsNone config _).bind fun _ => trivial)) trivial

end Starting

/-- **Behind the start of the last message of its batch** a round holds back; and so it does behind
a poll that has brought none. -/
theorem holdsBack_of_started {config : LoopConfig} (hdeps : config.deps.Wired)
    {batch : MessageBatch} {es : List LoopEvent} {p : Proc (Next Unit Unit)}
    (h : Task.Left (call .currentRules >>= afterPoll config batch) es p)
    (hstarted : batch.messages.length ≤ es.countP (Task.Happening.calls Starts)) :
    HoldsBack p := by
  have hleft := h.atMost (afterPoll_atMost hdeps batch)
  rw [Nat.sub_eq_zero_of_le hstarted] at hleft
  have honly : p.Only fun op : Op => op.startsMessage = false :=
    (Prog.only_of_atMost hleft).mono fun _ => Bool.eq_false_of_not_eq_true
  exact honly.given

/-! ## The invariant -/

/-- A paused daemon holds back, and one whose last command was a pause is paused. -/
structure PauseHolds (c : DaemonPoint) : Prop where
  holdsBack : c.world.shared.daemonState.paused = true → HoldsBack c.rest
  paused : c.world.PauseAnsweredLast → c.world.shared.daemonState.paused = true

section Steps

variable {A : Allowed} {config : LoopConfig} {c c' : DaemonPoint}

/-- A call: what is left after it still holds back, and a round that has asked knows the answer. -/
theorem PauseHolds.call {op : Op} {k : Except Exn op.Ret → Proc (Next Unit Unit)} {d d' : Daemon}
    {b : Bool} {r : Except Exn op.Ret} (hM : daemonMachine A d op r d')
    (h : PauseHolds ⟨.call op k, d, b⟩) : PauseHolds ⟨k r, d', op.awaits⟩ where
  holdsBack hpaused := by
    rw [hM.paused] at hpaused
    refine (h.holdsBack hpaused).2 r ?_
    cases op with
    | isPaused => exact hM.isPaused.1.trans (congrArg _ hpaused)
    | _ => trivial
  paused hlast := by
    unfold Daemon.PauseAnsweredLast at hlast
    rw [hM.enqueued] at hlast
    rw [hM.paused]
    exact h.paused hlast

/-- A handler: a pause finds the round holding back, and no other handler pauses. -/
theorem PauseHolds.handle {handler : Handler} (hmay : PausesWhereItHoldsBack c handler)
    (h : PauseHolds c) : PauseHolds { c with world := c.world.handle handler } where
  holdsBack hpaused := by
    rw [Daemon.paused_handle] at hpaused
    cases hevent : handler.event with
    | none =>
      rw [hevent] at hpaused
      exact h.holdsBack hpaused
    | some event =>
      refine hmay ?_
      rw [hevent, decide_eq_true_eq] at hpaused
      rw [hpaused] at hevent
      unfold Handler.event at hevent
      split at hevent
      · rfl
      · exact absurd hevent (by decide)
      · cases hevent
  paused hlast := by
    unfold Daemon.PauseAnsweredLast at hlast
    rw [Daemon.enqueued_handle] at hlast
    rw [Daemon.paused_handle]
    cases hevent : handler.event with
    | none =>
      rw [hevent, Option.toList_none, List.append_nil] at hlast
      exact h.paused hlast
    | some event =>
      rw [hevent, Option.toList_some, List.getLast?_concat, Option.some_inj] at hlast
      exact decide_eq_true hlast

theorem PauseHolds.step (h : PauseHolds c)
    (hs : Task.Step (daemonMachine A) Op.awaits (handlers PausesWhereItHoldsBack)
      (messageLoop config) c c') : PauseHolds c' := by
  cases hs with
  | call hM => exact h.call hM
  | again => exact ⟨fun _ => messageLoop_holdsBack config (), h.paused⟩
  | handle _ hrun =>
    obtain ⟨handler, hmay, rfl⟩ := hrun
    exact h.handle hmay

theorem LoopRun.pauseHolds {w : World} {s : SharedMemory}
    (h : LoopRun A config PausesWhereItHoldsBack (.start w s) c) : PauseHolds c := by
  induction h with
  | refl => exact ⟨fun _ => messageLoop_holdsBack config (), fun h => by cases h⟩
  | tail _ hs ih => exact ih.step hs

end Steps

/-! ## The guarantee -/

/-- The loop's own steps are steps among handlers. -/
theorem StartsMessage.step {A : Allowed} {config : LoopConfig} {c c' : DaemonPoint} {id : String}
    (h : StartsMessage A config c c' id) (may : DaemonPoint → Handler → Prop) :
    Task.Step (daemonMachine A) Op.awaits (handlers may) (messageLoop config) c c' := by
  cases h.1 with
  | call hM => exact .call hM
  | again => exact .again
  | handle _ hrun => exact hrun.elim

/-- **Where pauses are answered while the round holds back, no message starts under a pause.** -/
theorem no_start_while_paused {A : Allowed} {config : LoopConfig} {w : World} {s : SharedMemory}
    {c c' : DaemonPoint} {id : String}
    (hrun : LoopRun A config PausesWhereItHoldsBack (.start w s) c)
    (hstart : StartsMessage A config c c' id) : ¬c'.world.PauseAnsweredLast := by
  intro hlast
  have hholds : PauseHolds c' := hrun.pauseHolds.step (hstart.step _)
  obtain ⟨k, hk⟩ := hstart.2
  have hback := hholds.holdsBack (hholds.paused hlast)
  rw [hk] at hback
  cases hback.1

/-! ### A day with one letter -/

/-- A day on which every poll brings the same letter. -/
def Env.mail : Env := fun _ op =>
  match op with
  | .pollBatch => .ok ⟨[letter], some "s1"⟩
  | op => .ok (quietAnswer op)

theorem Env.mail_lawful : Env.mail.Lawful := by
  intro w op e h
  cases op <;> cases h

/-- The daemon of that day. -/
def mailDaemon : Daemon := .start ⟨.empty, []⟩ { rules := [always { type := .ignore }] }

/-- The daemon's loop on that day. -/
def mailLoop : LoopConfig := { deps := oneCall.deps, cursorAccountId := some "A1" }

/-- The loop moves on. -/
theorem Env.moves {env : Env} (hlaw : env.Lawful) (config : LoopConfig) {c : DaemonPoint} (op : Op)
    {k : Except Exn op.Ret → Proc (Next Unit Unit)} (hc : c.rest = .call op k) :
    Task.Step (daemonMachine anything) Op.awaits (fun _ _ => False) (messageLoop config) c
      (Task.move Op.awaits env.onDaemon (fun h d => d.handle h) (messageLoop config) c .go) := by
  obtain ⟨rest, d, b⟩ := c
  cases hc
  exact .call (env.onDaemon_responds hlaw d op)

/-- A day on which the letter comes once the loop has slept. -/
def Env.laterMail : Env := fun w op =>
  match op with
  | .pollBatch =>
    let slept := w.trace.any fun e => match e.op with
      | .sleep => true
      | _ => false
    .ok (if slept then ⟨[letter], some "s1"⟩ else ⟨[], none⟩)
  | op => .ok (quietAnswer op)

theorem Env.laterMail_lawful : Env.laterMail.Lawful := by
  intro w op e h
  cases op <;> cases h

/-- The first round of that day, until it sleeps. -/
def firstRound : DaemonPoint :=
  Env.laterMail.schedule mailLoop mailDaemon [.go, .go, .go, .go, .go]

/-- The pause is answered during the sleep. -/
def pausedDuringSleep : DaemonPoint :=
  { firstRound with world := firstRound.world.handle (.request .pause) }

/-- A round that finds the daemon paused, the resume, and the round that polls again. -/
def resumeLater : List (Task.Move Handler) :=
  .replicate 7 .go ++ .handle (.request .resume) :: .replicate 9 .go

/-- The loop when the letter has come. -/
def letterHasCome : DaemonPoint :=
  Task.follow Op.awaits Env.laterMail.onDaemon (fun h d => d.handle h) (messageLoop mailLoop)
    pausedDuringSleep resumeLater

theorem letterHasCome_run :
    LoopRun anything mailLoop PausesWhereItHoldsBack mailDaemon letterHasCome := by
  have hfirst : LoopRun anything mailLoop PausesWhereItHoldsBack mailDaemon firstRound :=
    Env.schedule_run Env.laterMail_lawful _ _ _ fun h hh => by simp at hh
  have hleft : Task.Left (call .currentRules >>= afterPoll mailLoop ⟨[], none⟩)
      ([.called .currentRules (.ok [])] : List LoopEvent) firstRound.rest := .call .start _
  have hback : HoldsBack firstRound.rest :=
    holdsBack_of_started oneCall.wired hleft (Nat.zero_le _)
  have hpause : LoopRun anything mailLoop PausesWhereItHoldsBack mailDaemon pausedDuringSleep :=
    hfirst.tail (.handle rfl ⟨.request .pause, fun _ => hback, rfl⟩)
  refine hpause.trans (Task.follow_reaches (Env.onDaemon_responds Env.laterMail_lawful) _ ?_ _)
  refine fun h hh c => ⟨h, fun hpause => ?_, rfl⟩
  subst hpause
  simp [resumeLater] at hh

/-- A pause during a sleep holds the next round back; after a resume the letter that arrives is
started, and no pause is in force. -/
theorem no_start_while_paused_mail :
    ∃ c c', LoopRun anything mailLoop PausesWhereItHoldsBack mailDaemon c ∧
      c.world.enqueued = [.daemonPaused, .daemonResumed] ∧
      StartsMessage anything mailLoop c c' "M1" ∧ ¬c'.world.PauseAnsweredLast := by
  have hstart := Env.moves Env.laterMail_lawful mailLoop (c := letterHasCome) .stopIsSet rfl
  exact ⟨_, _, letterHasCome_run, rfl, ⟨hstart, _, rfl⟩,
    no_start_while_paused letterHasCome_run ⟨hstart, _, rfl⟩⟩

/-- **A pause that is answered during a poll is ignored**: the letter that the poll brings is
processed, although the daemon has confirmed that it is paused. -/
theorem pause_ignored_during_poll :
    ∃ c c', LoopRun anything mailLoop anyHandler mailDaemon c ∧
      StartsMessage anything mailLoop c c' "M1" ∧ c'.world.PauseAnsweredLast := by
  have hstart := Env.moves Env.mail_lawful mailLoop (c := Env.mail.schedule mailLoop mailDaemon
    [.go, .go, .go, .handle (.request .pause), .go, .go]) .stopIsSet rfl
  exact ⟨_, _, Env.schedule_run Env.mail_lawful _ _ _ fun _ _ _ => trivial, ⟨hstart, _, rfl⟩, rfl⟩

end Spork
