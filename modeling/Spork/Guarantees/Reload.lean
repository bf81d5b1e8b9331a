import Spork.Guarantees.Handling
import Spork.Guarantees.Pause
import Spork.Tails

/-!
# Reloading the rules

`reload` may land anywhere: during a poll, between two messages of a batch, during the Tier 2 half
of one.  The loop reads `rules_state.rules` at one place only, behind its poll and without being
suspended in between, and hands on what it has read.

A run is looked at with its history.  `RoundPhase` says where a round stands: before its poll, just
behind it, or at work.  What a round does once it has polled is `afterPoll`, which has the rules as
an argument, and what it does to the messages of its batch is `processOne`, for one message after
the other, with these rules (`WorksOn`, `reload_atomic`).
-/

set_option autoImplicit false

namespace Spork

open Effects

/-- The histories of `_run_message_loop` among handlers, from its start in `d`. -/
abbrev LoopHistory (A : Allowed) (config : LoopConfig) (d : Daemon) :
    List LoopEvent → DaemonPoint → Prop :=
  Task.History (daemonMachine A) Op.awaits (fun h d => d.handle h) (messageLoop config)
    ⟨messageLoop config (), d, false⟩

/-! ## What has been loaded -/

/-- The rules in force behind an event: a reload that loads a valid file replaces them. -/
def LoopEvent.load (rules : List Rule) : LoopEvent → List Rule
  | .handled (.request (.reload (.ok newRules))) => newRules
  | _ => rules

/-- The result of the last successful load, where `rules` is the initial one. -/
def lastLoad (rules : List Rule) (es : List LoopEvent) : List Rule := es.foldl LoopEvent.load rules

/-- The batch that a call brings, if it is a poll. -/
def batchOf : (op : Op) → Except Exn op.Ret → Option MessageBatch
  | .pollBatch, .ok batch => some batch
  | .poll, .ok messages => some ⟨messages, none⟩
  | _, _ => none

/-- The event is a read of the rules. -/
def LoopEvent.ReadsRules : LoopEvent → Prop
  | .called .currentRules _ => True
  | _ => False

/-- The history ends with a poll that brought `batch`, and handlers. -/
def EndsWithPoll (es : List LoopEvent) (batch : MessageBatch) : Prop :=
  ∃ before op r handlers, es = before ++ .called op r :: handlers ∧ batchOf op r = some batch ∧
    ∀ e ∈ handlers, ∃ h, e = .handled h

/-- `process_message` is called. -/
def LoopEvent.StartsMessage : LoopEvent → Prop
  | .called op _ => op.startsMessage = true
  | .handled _ => False

/-- Messages are worked on in their order, each behind what starts none, and each as `processOne`
does with these rules. -/
inductive WorksOn (config : LoopConfig) (rules : List Rule) :
    List NormalizedMessage → List LoopEvent → Prop where
  /-- No further message has been started. -/
  | between {messages : List NormalizedMessage} {es : List LoopEvent}
      (hes : ∀ e ∈ es, ¬LoopEvent.StartsMessage e) : WorksOn config rules messages es
  /-- The first message is being worked on. -/
  | within {message : NormalizedMessage} {messages : List NormalizedMessage}
      {before es : List LoopEvent} {p : Proc Unit}
      (hbefore : ∀ e ∈ before, ¬LoopEvent.StartsMessage e)
      (hone : Task.Left (processOne config rules message) es p) :
      WorksOn config rules (message :: messages) (before ++ es)
  /-- The first message is done. -/
  | next {message : NormalizedMessage} {messages : List NormalizedMessage}
      {before es after : List LoopEvent} (hbefore : ∀ e ∈ before, ¬LoopEvent.StartsMessage e)
      (hone : Task.Left (processOne config rules message) es (.done (.ok ())))
      (hafter : WorksOn config rules messages after) :
      WorksOn config rules (message :: messages) (before ++ (es ++ after))

/-- A round that has read its rules: what is left of it, and what it has done to its messages. -/
structure RoundWith (config : LoopConfig) (batch : MessageBatch) (rules : List Rule)
    (es : List LoopEvent) (p : Proc (Next Unit Unit)) : Prop where
  left : Task.Left (afterPoll config batch rules) es p
  works : WorksOn config rules batch.messages es

/-- What happened since the rules were read: the round goes on with them, or is over. -/
def GoesOnWith (config : LoopConfig) (batch : MessageBatch) (rules : List Rule)
    (es : List LoopEvent) (p : Proc (Next Unit Unit)) : Prop :=
  RoundWith config batch rules es p ∨
    ∃ round next, es = round ++ next ∧
      RoundWith config batch rules round (.done (.ok (.again ())))

/-! ## The phases of a round -/

/-- A call that neither polls nor reads the rules. -/
def Op.Steady (op : Op) : Prop := op ≠ .currentRules ∧ ∀ r, batchOf op r = none

/-- A round before its poll. -/
def BeforePoll (config : LoopConfig) : Proc (Next Unit Unit) → Prop
  | .done _ => True
  | .call op k => op ≠ .currentRules ∧ ∀ r,
    match batchOf op r with
    | some batch => k r = call .currentRules >>= afterPoll config batch
    | none => BeforePoll config (k r)

section Phases

variable {config : LoopConfig} {α : Type}

theorem BeforePoll.bind {f : α → Proc (Next Unit Unit)} (hf : ∀ a, BeforePoll config (f a)) :
    ∀ {p : Proc α}, p.Only (fun op : Op => op.Steady) → BeforePoll config (p >>= f)
  | .done (.ok a), _ => hf a
  | .done (.error _), _ => trivial
  | .call op k, h => by
    refine ⟨h.1.1, fun r => ?_⟩
    rw [h.1.2 r]
    exact BeforePoll.bind hf (h.2 r)

theorem supporting_steady {op : Op} (h : op.Supporting) : op.Steady := by
  cases op <;> first | exact h.elim | exact ⟨fun h => (by cases h), fun _ => rfl⟩

theorem steady_call {op : Op} (h : op.Steady) : (call op).Only fun op : Op => op.Steady :=
  Prog.only_perform.2 h

theorem drainEvents_steady : ∀ events : List PendingAuditEvent,
    (drainEvents events).Only fun op : Op => op.Steady
  | [] => trivial
  | event :: events => by
    refine (steady_call (supporting_steady (by trivial))).bind fun ts => ?_
    refine (steady_call ⟨fun h => (by cases h), fun _ => rfl⟩).bind fun _ => ?_
    exact drainEvents_steady events

theorem pollRound_beforePoll (config : LoopConfig) : BeforePoll config (pollRound config) := by
  rw [pollRound, nextBatch]
  split
  · refine ⟨fun h => (by cases h), fun r => ?_⟩
    cases r with
    | ok batch => rfl
    | error e => trivial
  · refine ⟨fun h => (by cases h), fun r => ?_⟩
    cases r with
    | ok messages => rfl
    | error e => trivial

/-- A round starts before its poll. -/
theorem messageLoop_beforePoll (config : LoopConfig) :
    BeforePoll config (messageLoop config ()) := by
  have hcall : ∀ {op : Op} {f : op.Ret → Proc (Next Unit Unit)}, op.Steady →
      (∀ a, BeforePoll config (f a)) → BeforePoll config (call op >>= f) :=
    fun hop hf => BeforePoll.bind hf (steady_call hop)
  refine hcall ⟨fun h => (by cases h), fun _ => rfl⟩ fun stop => ?_
  cases stop with
  | true => trivial
  | false =>
    refine hcall ⟨fun h => (by cases h), fun _ => rfl⟩ fun pending => ?_
    refine BeforePoll.bind (fun _ => ?_) (drainEvents_steady pending)
    refine hcall ⟨fun h => (by cases h), fun _ => rfl⟩ fun paused => ?_
    cases paused with
    | true => exact hcall ⟨fun h => (by cases h), fun _ => rfl⟩ fun _ => trivial
    | false => exact pollRound_beforePoll config

/-! ### Behind the poll -/

theorem SettlingCall.steady {message : NormalizedMessage} {op : Op} (h : SettlingCall message op) :
    op.Steady := by
  cases h with
  | supporting h => exact supporting_steady h
  | _ => exact ⟨fun h => (by cases h), fun _ => rfl⟩

theorem AskingCall.steady {op : Op} (h : AskingCall op) : op.Steady := by
  cases h with
  | supporting h => exact supporting_steady h
  | asksModel h => cases op <;> first | exact h.elim | exact ⟨fun h => (by cases h), fun _ => rfl⟩
  | record => exact ⟨fun h => (by cases h), fun _ => rfl⟩

theorem HandlingCall.steady {message : NormalizedMessage} {op : Op} (h : HandlingCall message op) :
    op.Steady := by
  cases h with
  | settling h => exact h.steady
  | asking h => exact h.steady
  | gate => exact ⟨fun h => (by cases h), fun _ => rfl⟩

theorem ProcessingCall.steady {message : NormalizedMessage} {op : Op}
    (h : ProcessingCall message op) : op.Steady := by
  cases h with
  | settling h => exact h.steady
  | asking h => exact h.steady

theorem checkDailyBudgetAlert_steady (hdeps : config.deps.Wired) (tiering : TieringConfig) :
    (checkDailyBudgetAlert tiering config.deps.tier1.ops).Only fun op : Op => op.Steady := by
  refine (steady_call (supporting_steady (by trivial))).bind fun ts => ?_
  refine (steady_call ⟨fun h => (by cases h), fun _ => rfl⟩).bind fun alerted => .ite trivial ?_
  refine (steady_call (supporting_steady (by trivial))).bind fun usage => .ite trivial ?_
  refine (steady_call ⟨fun h => (by cases h), fun _ => rfl⟩).bind fun _ => ?_
  refine (steady_call (supporting_steady (by trivial))).bind fun _ => ?_
  exact (hdeps.tier1.alert _ _ _).mono fun _ => supporting_steady

theorem processOne_steady (hdeps : config.deps.Wired) (rules : List Rule)
    (message : NormalizedMessage) :
    (processOne config rules message).Only fun op : Op => op.Steady := by
  have hprocess : (processMessage config.deps.tier1 false message rules).Only
      fun op : Op => op.Steady :=
    ((handleMessage_only hdeps rules).mono fun _ => HandlingCall.steady).of_bind
  refine hprocess.bind fun verdict => .ite ?_ trivial
  refine ((escalateMessageOrQuarantine_only hdeps.escalation).mono fun _ =>
    ProcessingCall.steady).bind fun _ => ?_
  exact checkDailyBudgetAlert_steady hdeps _

theorem processBatch_steady (hdeps : config.deps.Wired) (rules : List Rule) :
    ∀ messages : List NormalizedMessage,
      (processBatch config rules messages).Only fun op : Op => op.Steady
  | [] => trivial
  | message :: messages => by
    refine (steady_call ⟨fun h => (by cases h), fun _ => rfl⟩).bind fun stop => .ite trivial ?_
    refine (processOne_steady hdeps rules message).bind fun _ => ?_
    exact processBatch_steady hdeps rules messages

theorem afterPoll_steady (hdeps : config.deps.Wired) (batch : MessageBatch) (rules : List Rule) :
    (afterPoll config batch rules).Only fun op : Op => op.Steady := by
  have hack : (acknowledge config batch.checkpoint).Only fun op : Op => op.Steady := by
    unfold acknowledge
    split
    · exact steady_call ⟨fun h => (by cases h), fun _ => rfl⟩
    · trivial
  refine .ite (hack.bind fun _ => (steady_call ⟨fun h => (by cases h), fun _ => rfl⟩).bind fun _ =>
    trivial) ?_
  exact (processBatch_steady hdeps rules batch.messages).bind fun finished =>
    .ite (hack.bind fun _ => trivial) trivial

end Phases

/-! ### The messages of a batch -/

section Works

variable {config : LoopConfig} {rules : List Rule} {α : Type} {p q : Proc α} {es : List LoopEvent}

/-- A program that makes no such call starts no message. -/
theorem startsNone_of_left (hp : p.Only fun op : Op => op.startsMessage = false)
    (h : Task.Left p es q) : ∀ e ∈ es, ¬LoopEvent.StartsMessage e := by
  intro e he hstarts
  cases e with
  | called op r => exact Bool.false_ne_true (((h.only hp).1 op r he).symm.trans hstarts)
  | handled i => exact hstarts

/-- **A loop over messages works on them**, whatever comes behind it that starts none. -/
theorem worksOn_processBatch {f : Bool → Proc α}
    (hf : ∀ finished, (f finished).Only fun op : Op => op.startsMessage = false) :
    ∀ (messages : List NormalizedMessage) {es : List LoopEvent} {q : Proc α},
      Task.Left (processBatch config rules messages >>= f) es q → WorksOn config rules messages es
  | [], _, _, h => .between (startsNone_of_left (hf true) h)
  | message :: messages, es, q, h => by
    have hstop : (call .stopIsSet).Only fun op : Op => op.startsMessage = false :=
      Prog.only_perform.2 rfl
    rw [processBatch, bind_assoc] at h
    rcases h.bind_cases with ⟨p', -, h⟩ | ⟨stop, before, rest, rfl, hlook, h⟩
    · exact .between (startsNone_of_left hstop h)
    · have hbefore := startsNone_of_left hstop hlook
      cases stop with
      | true =>
        refine .between fun e he => (List.mem_append.1 he).elim (hbefore e) ?_
        exact startsNone_of_left (hf false) h e
      | false =>
        rw [if_neg Bool.false_ne_true, bind_assoc] at h
        rcases h.bind_cases with ⟨p', -, h⟩ | ⟨_, one, after, rfl, hone, h⟩
        · exact .within hbefore h
        · exact .next hbefore hone (worksOn_processBatch hf messages h)

/-- **Once it has read its rules, a round works on its batch with them.** -/
theorem RoundWith.of_left {batch : MessageBatch} {p : Proc (Next Unit Unit)}
    (h : Task.Left (afterPoll config batch rules) es p) : RoundWith config batch rules es p := by
  refine ⟨h, ?_⟩
  rw [afterPoll] at h
  split at h
  · exact .between (startsNone_of_left (idleRound_startsNone config _) h)
  · refine worksOn_processBatch (fun finished => ?_) batch.messages h
    exact .ite ((acknowledge_startsNone config _).bind fun _ => trivial) trivial

end Works

/-! ## Every history -/

theorem lastLoad_append (rules : List Rule) (es : List LoopEvent) (e : LoopEvent) :
    lastLoad rules (es ++ [e]) = LoopEvent.load (lastLoad rules es) e := by
  rw [lastLoad, List.foldl_append]
  rfl

theorem Daemon.rules_handle (d : Daemon) (h : Handler) :
    (d.handle h).shared.rules = LoopEvent.load d.shared.rules (.handled h) := by
  cases h with
  | stop => rfl
  | request r =>
    cases r with
    | status | pause | resume | unknown => rfl
    | reload loaded => cases loaded <;> rfl

/-- Where a round stands. -/
inductive RoundPhase (config : LoopConfig) (es : List LoopEvent) (p : Proc (Next Unit Unit)) :
    Prop where
  | fresh (h : BeforePoll config p)
  | polled (batch : MessageBatch) (hes : EndsWithPoll es batch)
      (hp : p = call .currentRules >>= afterPoll config batch)
  | working (h : p.Only fun op : Op => op.Steady)

/-- What every history satisfies, where the loop starts with the rules `initial`. -/
structure RulesInv (config : LoopConfig) (initial : List Rule) (es : List LoopEvent)
    (c : DaemonPoint) : Prop where
  rules : c.world.shared.rules = lastLoad initial es
  phase : RoundPhase config es c.rest
  read : ∀ before rules after, es = before ++ .called .currentRules (.ok rules) :: after →
    (∀ e ∈ after, ¬LoopEvent.ReadsRules e) →
      rules = lastLoad initial before ∧
        ∃ batch, EndsWithPoll before batch ∧ GoesOnWith config batch rules after c.rest

section Histories

variable {A : Allowed} {config : LoopConfig} {rules : List Rule} {es : List LoopEvent}

theorem RoundPhase.call (hdeps : config.deps.Wired) {op : Op}
    {k : Except Exn op.Ret → Proc (Next Unit Unit)} (h : RoundPhase config es (.call op k))
    (r : Except Exn op.Ret) : RoundPhase config (es ++ [.called op r]) (k r) := by
  cases h with
  | fresh h =>
    have hr := h.2 r
    cases hbatch : batchOf op r with
    | none =>
      rw [hbatch] at hr
      exact .fresh hr
    | some batch =>
      rw [hbatch] at hr
      exact .polled batch ⟨es, op, r, [], rfl, hbatch, fun e he => by cases he⟩ hr
  | polled batch hes hp =>
    cases hp
    cases r with
    | ok readRules => exact .working (afterPoll_steady hdeps batch readRules)
    | error e => exact .working trivial
  | working h => exact .working (h.2 r)

theorem RoundPhase.handle {p : Proc (Next Unit Unit)} (h : RoundPhase config es p) (i : Handler) :
    RoundPhase config (es ++ [.handled i]) p := by
  cases h with
  | fresh h => exact .fresh h
  | polled batch hes hp =>
    obtain ⟨before, op, r, handlers, rfl, hbatch, hhandlers⟩ := hes
    refine .polled batch ⟨before, op, r, handlers ++ [.handled i], by simp, hbatch, ?_⟩ hp
    intro e he
    rcases List.mem_append.1 he with he | he
    · exact hhandlers e he
    · exact ⟨i, List.mem_singleton.1 he⟩
  | working h => exact .working h

theorem GoesOnWith.call {batch : MessageBatch} {op : Op}
    {k : Except Exn op.Ret → Proc (Next Unit Unit)}
    (h : GoesOnWith config batch rules es (.call op k)) (r : Except Exn op.Ret) :
    GoesOnWith config batch rules (es ++ [.called op r]) (k r) := by
  rcases h with h | ⟨round, next, rfl, h⟩
  · exact .inl (.of_left (h.left.call r))
  · exact .inr ⟨round, next ++ [.called op r], List.append_assoc _ _ _, h⟩

theorem GoesOnWith.again {batch : MessageBatch} {p : Proc (Next Unit Unit)}
    (h : GoesOnWith config batch rules es (.done (.ok (.again ())))) :
    GoesOnWith config batch rules es p := by
  rcases h with h | h
  · exact .inr ⟨es, [], (List.append_nil _).symm, h⟩
  · exact .inr h

theorem GoesOnWith.handle {batch : MessageBatch} {p : Proc (Next Unit Unit)}
    (h : GoesOnWith config batch rules es p) (i : Handler) :
    GoesOnWith config batch rules (es ++ [.handled i]) p := by
  rcases h with h | ⟨round, next, rfl, h⟩
  · exact .inl (.of_left (h.left.handle i))
  · exact .inr ⟨round, next ++ [.handled i], List.append_assoc _ _ _, h⟩

/-- **Every history** keeps track of the rules. -/
theorem LoopHistory.rulesInv (hdeps : config.deps.Wired) {d : Daemon} {c : DaemonPoint}
    (h : LoopHistory A config d es c) : RulesInv config d.shared.rules es c := by
  induction h with
  | start =>
    exact ⟨rfl, .fresh (messageLoop_beforePoll config), fun before readRules after hes => by
      cases before <;> cases hes⟩
  | @call es op k w w' b r hist h ih =>
    refine ⟨?_, ih.phase.call hdeps r, fun before readRules after hes hafter => ?_⟩
    · rw [lastLoad_append, ← ih.rules]
      exact Daemon.Responds.rules h
    · rcases Tails.snoc_eq_split hes with ⟨rfl, he, rfl⟩ | ⟨after', hes', rfl⟩
      · cases he
        have hread := Except.ok.inj (Daemon.Responds.currentRules h)
        cases ih.phase with
        | fresh hfresh => exact absurd rfl hfresh.1
        | working hworking => exact absurd rfl hworking.1.1
        | polled batch hpoll hp =>
          cases hp
          exact ⟨hread.trans ih.rules, batch, hpoll, .inl (.of_left .start)⟩
      · obtain ⟨hread, batch, hpoll, hgoes⟩ := ih.read before readRules after' hes'
          fun e he => hafter e (List.mem_append_left _ he)
        exact ⟨hread, batch, hpoll, hgoes.call r⟩
  | again _ ih =>
    refine ⟨ih.rules, .fresh (messageLoop_beforePoll config),
      fun before readRules after hes hafter => ?_⟩
    obtain ⟨hread, batch, hpoll, hgoes⟩ := ih.read before readRules after hes hafter
    exact ⟨hread, batch, hpoll, hgoes.again⟩
  | @handle es c _ _ i ih =>
    refine ⟨?_, ih.phase.handle i, fun before readRules after hes hafter => ?_⟩
    · rw [lastLoad_append, ← ih.rules]
      exact c.world.rules_handle i
    · rcases Tails.snoc_eq_split hes with ⟨rfl, he, rfl⟩ | ⟨after', hes', rfl⟩
      · cases he
      · obtain ⟨hread, batch, hpoll, hgoes⟩ := ih.read before readRules after' hes'
          fun e he => hafter e (List.mem_append_left _ he)
        exact ⟨hread, batch, hpoll, hgoes.handle i⟩

end Histories

/-- A configuration of a run is one that some history leads to. -/
theorem loopRun_iff_history {A : Allowed} {config : LoopConfig} {d : Daemon} {c : DaemonPoint} :
    LoopRun A config anyHandler d c ↔ ∃ es, LoopHistory A config d es c := by
  have hhandlers : handlers anyHandler = fun c d => ∃ h, d = c.world.handle h :=
    funext fun c => funext fun d => propext
      ⟨fun ⟨h, _, hd⟩ => ⟨h, hd⟩, fun ⟨h, hd⟩ => ⟨h, trivial, hd⟩⟩
  rw [LoopRun, hhandlers]
  exact Task.reaches_iff_history fun (h : Handler) (d : Daemon) => d.handle h

/-- A reload that fails changes nothing in the process, and is answered with the error. -/
theorem failed_reload (d : Daemon) (e : Exn) :
    d.shared.dispatch (.reload (.error e)) = (.error e.message, d.shared) ∧
      d.handle (.request (.reload (.error e))) = d := by
  refine ⟨rfl, ?_⟩
  rw [Daemon.handle]
  exact congrArg (Daemon.mk d.world d.shared) (List.append_nil _)

/-- **Reloading is atomic with respect to batches.**  Every run of the message loop has a history,
and in each: behind each read of the rules the round goes on with the list that was read, and
processes every message that it starts with this list; that list is the result of the last
successful load before the read, which follows the poll with nothing but handlers in between; and a
reload that fails is answered with its error and leaves the whole configuration as it was. -/
theorem reload_atomic (A : Allowed) (config : LoopConfig) (hdeps : config.deps.Wired) (d : Daemon)
    {c : DaemonPoint} (hrun : LoopRun A config anyHandler d c) :
    (∃ es, LoopHistory A config d es c) ∧
    (∀ es, LoopHistory A config d es c → ∀ before rules after,
      es = before ++ .called .currentRules (.ok rules) :: after →
      (∀ e ∈ after, ¬LoopEvent.ReadsRules e) →
        rules = lastLoad d.shared.rules before ∧
          ∃ batch, EndsWithPoll before batch ∧ GoesOnWith config batch rules after c.rest) ∧
    ∀ e : Exn, c.world.shared.dispatch (.reload (.error e)) = (.error e.message, c.world.shared) ∧
      { c with world := c.world.handle (.request (.reload (.error e))) } = c := by
  refine ⟨loopRun_iff_history.1 hrun, fun es h => (LoopHistory.rulesInv hdeps h).read, fun e => ?_⟩
  obtain ⟨hanswer, hsame⟩ := failed_reload c.world e
  exact ⟨hanswer, by rw [hsame]⟩

/-! ### A reload that lands behind the poll -/

/-- A daemon whose rules ignore everything. -/
def ignoringDaemon : Daemon := .start ⟨.empty, []⟩ { rules := [always { type := .ignore }] }

/-- A reload that files everything. -/
def fileAll : Handler :=
  .request (.reload (.ok [always { type := .move, mailbox := some "Archive" }]))

/-- A day with a letter, on which the reload arrives while the loop is still suspended on its poll,
and a second one while the letter is processed. -/
def reloadSchedule : List (Task.Move Handler) :=
  [.go, .go, .go, .go, .handle fileAll, .go, .go, .go, .handle (.request (.reload (.ok []))), .go]

/-- What happens on that day. -/
def reloadEvents : List LoopEvent :=
  Task.happenings Op.awaits Env.mail.onDaemon (fun h d => d.handle h) (messageLoop mailLoop)
    ⟨messageLoop mailLoop (), ignoringDaemon, false⟩ reloadSchedule

theorem reloadEvents_history : LoopHistory anything mailLoop ignoringDaemon reloadEvents
    (Env.mail.schedule mailLoop ignoringDaemon reloadSchedule) :=
  Task.follow_history (Env.onDaemon_responds Env.mail_lawful) reloadSchedule .start

/-- The rules that are read are the ones that the first reload has loaded, and the letter is
processed with them. -/
theorem reload_atomic_quiet :
    [always { type := .move, mailbox := some "Archive" }] =
        lastLoad ignoringDaemon.shared.rules (reloadEvents.take 5) ∧
      ∃ batch, EndsWithPoll (reloadEvents.take 5) batch ∧
        GoesOnWith mailLoop batch [always { type := .move, mailbox := some "Archive" }]
          (reloadEvents.drop 6)
          (Env.mail.schedule mailLoop ignoringDaemon reloadSchedule).rest := by
  refine (reload_atomic anything mailLoop oneCall.wired ignoringDaemon
    (Env.schedule_run Env.mail_lawful _ _ _ fun _ _ _ => trivial)).2.1 reloadEvents
      reloadEvents_history (reloadEvents.take 5) _ (reloadEvents.drop 6) rfl fun e he hreads => ?_
  have hafter : reloadEvents.drop 6 = [.called .stopIsSet (.ok false),
      .called (.hasProcessed "M1") (.ok false), .handled (.request (.reload (.ok []))),
      .called .now (.ok "2026-01-05T09:00:00+00:00")] := rfl
  rw [hafter] at he
  simp only [List.mem_cons, List.not_mem_nil, or_false] at he
  rcases he with rfl | rfl | rfl | rfl <;> exact hreads

end Spork
