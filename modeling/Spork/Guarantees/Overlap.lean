import Spork.Guarantees.Handling
import Spork.Daemon.Loop
import Spork.Cli.Backfill
import Spork.Effects.Interleave

/-!
# The daemon and a backfill at the same time

Both handle messages, each in its own process, and all they share is the store.  The gate of a
message, its action and its mark are three calls of a process, and the other one may move in
between: if it passes the gate there, the message is handled twice (`overlap_applies_twice`).

That is the only way.  A process is followed through the *window* of a message, which its gate opens
and its mark closes (`Window`); in the order of its own calls, a process applies nothing outside a
window and at most one action inside (`turns`, proved of both loops on their own).  So if no gate is
passed while the other process has a window on the message, the action is applied once
(`serial_applies_once`).
-/

set_option autoImplicit false

namespace Spork

open Effects Machine

/-! ## Windows -/

/-- The message that a call handles, if it is the gate, an action or the mark of one. -/
def Op.handles : Op → Option String
  | .hasProcessed id => some id
  | .apply message _ => some message.messageId
  | .markProcessed id _ => some id
  | _ => none

/-- Where a process is with a message. -/
inductive Window where
  /-- Not between its gate and its mark. -/
  | closed
  /-- Past the gate. -/
  | opened
  /-- Past the gate, and an action has been applied. -/
  | acted
  /-- A call was made out of turn. -/
  | broken
  deriving DecidableEq, Repr

/-- What a call that handles the message does to its window. -/
def Window.next (window : Window) : Event → Window
  | ⟨.hasProcessed _, .ok false⟩ => if window = .closed then .opened else .broken
  | ⟨.apply _ _, .ok _⟩ => if window = .opened then .acted else .broken
  | ⟨.markProcessed _ _, .ok _⟩ =>
    if window = .opened ∨ window = .acted then .closed else .broken
  | _ => window

/-- What a call does to the window of message `id`. -/
def Window.after (id : String) (window : Window) (e : Event) : Window :=
  if e.op.handles = some id then window.next e else window

/-- A process seen through the window of one message, as long as nothing fails. -/
def turns (id : String) : Machine sig Window := fun window op r window' =>
  r.isOk = true ∧ window' = window.after id ⟨op, r⟩

section Turns

variable {id : String} {window : Window} {α β : Type} {message : NormalizedMessage}

theorem Op.Supporting.handles {op : Op} (h : op.Supporting) : op.handles = none := by
  cases op <;> first | exact h.elim | rfl

theorem Op.Housekeeping.handles {op : Op} (h : op.Housekeeping) : op.handles = none := by
  cases h with
  | supporting h => exact h.handles
  | _ => rfl

theorem AskingCall.handles {op : Op} (h : AskingCall op) : op.handles = none := by
  cases h with
  | supporting h => exact h.handles
  | asksModel h => cases op <;> first | exact h.elim | rfl
  | record => rfl

theorem HandlingCall.handles {op : Op} (h : HandlingCall message op)
    (hid : message.messageId ≠ id) : op.handles ≠ some id := by
  have hne : some message.messageId ≠ some id := fun h => hid (Option.some_inj.1 h)
  cases h with
  | settling h =>
    cases h with
    | supporting h =>
      rw [h.handles]
      exact fun h => by cases h
    | apply | mark => exact hne
    | draft | audit => exact fun h => by cases h
  | asking h =>
    rw [h.handles]
    exact fun h => by cases h
  | gate => exact hne

theorem ne_broken_of_eq {w : Window} (hw : window ≠ .broken) (h : w = window) : w ≠ .broken :=
  h ▸ hw

/-- Calls that do not handle the message leave its window alone. -/
theorem turns_keeps {p : Proc α} (hp : p.Only fun op : Op => op.handles ≠ some id) :
    (turns id).Keeps (· = window) p := by
  refine keeps_of_only (fun window' op r window'' hop hw h => ?_) hp
  rw [h.2, Window.after, if_neg hop, hw]

theorem turns_apart {p : Proc α} (hp : p.Only fun op : Op => op.handles = none) :
    (turns id).Keeps (· = window) p :=
  turns_keeps (hp.mono fun op h => by rw [h]; exact fun h => by cases h)

theorem turns_supporting {p : Proc α} (hp : p.Only Op.Supporting) :
    (turns id).Keeps (· = window) p := turns_apart (hp.mono fun _ h => h.handles)

/-- Such a call, before anything else. -/
theorem turns_call {op : Op} {f : op.Ret → Proc α} {Q : Except Exn α → Window → Prop}
    (hop : op.handles = none) (hw : window ≠ .broken)
    (hf : ∀ a, (turns id).wp (· ≠ .broken) (f a) Q window) :
    (turns id).wp (· ≠ .broken) (call op >>= f) Q window := by
  refine Machine.wp_perform_bind hw (fun a w' h => ?_) fun e w' h => by cases h.1
  have hsame : w' = window := h.2.trans (if_neg (by rw [hop]; exact fun h => by cases h))
  rw [hsame]
  exact hf a

/-- Programs that do not handle the message, before anything else. -/
theorem turns_before {p : Proc α} {f : α → Proc β} {Q : Except Exn β → Window → Prop}
    (hp : (turns id).Keeps (· = window) p) (hw : window ≠ .broken)
    (hf : ∀ a, (turns id).wp (· ≠ .broken) (f a) Q window) (he : ∀ e, Q (.error e) window) :
    (turns id).wp (· ≠ .broken) (p >>= f) Q window :=
  Keeps.wp_bind hp (fun _ h => h ▸ hw) rfl (fun a _ h => by rw [h]; exact hf a)
    fun e _ h => by rw [h]; exact he e

/-- A window that is open. -/
def Window.Open (window : Window) : Prop := window = .opened ∨ window = .acted

theorem Window.Open.ne_broken (h : window.Open) : window ≠ .broken := by
  rcases h with rfl | rfl <;> exact fun h => by cases h

/-- How the handling of a message may end: with its window closed, or raised. -/
def Closes (r : Except Exn α) (window : Window) : Prop := r.isOk = true → window = .closed

/-- A program that returns behind a given window, before anything else. -/
theorem turns_then {p : Proc α} {f : α → Proc β} {Q : Except Exn β → Window → Prop}
    {window' : Window}
    (hp : (turns id).wp (· ≠ .broken) p (fun r w => r.isOk = true ∧ w = window') window)
    (hf : ∀ a, (turns id).wp (· ≠ .broken) (f a) Q window') :
    (turns id).wp (· ≠ .broken) (p >>= f) Q window := by
  refine wp_bind.2 (wp_mono (fun _ h => h) (fun r w _ hr => ?_) hp)
  cases r with
  | ok a =>
    rw [hr.2]
    exact hf a
  | error e => cases hr.1

theorem closes_of_eq {r : Except Exn α} (h : window = .closed) : Closes r window := fun _ => h

/-- The mark closes the window. -/
theorem mark_turns {row : ProcessedRow} (hw : window.Open) :
    (turns id).wp (· ≠ .broken) (call (.markProcessed id row))
      (fun r w => r.isOk = true ∧ w = .closed) window := by
  refine Machine.wp_perform hw.ne_broken fun r w' h => ?_
  cases r with
  | error e => cases h.1
  | ok u =>
    have hclosed : w' = .closed := h.2.trans ((if_pos rfl).trans (if_pos hw))
    exact ⟨hclosed ▸ fun h => (by cases h), rfl, hclosed⟩

/-! ### Handling a message -/

theorem auditThenMark_turns (hid : message.messageId = id) (hw : window.Open) (ts event : String)
    (detail : Option String) (row : ProcessedRow) :
    (turns id).wp (· ≠ .broken) (Tier1.auditThenMark message ts event detail row)
      (fun r w => r.isOk = true ∧ w = .closed) window := by
  subst hid
  exact turns_call rfl hw.ne_broken fun _ => mark_turns hw

theorem execute_turns {executor : ActionExecutor} (h : executor.applier.Wired) (action : Action)
    (hid : message.messageId = id) :
    (turns id).wp (· ≠ .broken) (executor.execute message action)
      (fun _ w => w.Open) .opened := by
  subst hid
  rcases executor.execute_cases message action with ⟨he, _⟩ | ⟨he, _⟩ | ⟨e, he, _⟩ <;> rw [he]
  · rcases h message action with ha | ha <;> rw [ha]
    · refine Machine.wp_perform (fun h => by cases h) fun r w' h => ?_
      cases r with
      | error e => cases h.1
      | ok u =>
        have hacted : w' = .acted := h.2.trans ((if_pos rfl).trans rfl)
        exact ⟨hacted ▸ fun h => (by cases h), .inr hacted⟩
    · exact ⟨fun h => (by cases h), .inl rfl⟩
  · exact ⟨fun h => (by cases h), .inl rfl⟩
  · exact ⟨fun h => (by cases h), .inl rfl⟩

/-- Any branch but the escalation is one window. -/
theorem runBranch_turns {deps : Tier1Deps} (hdeps : deps.Wired) (hid : message.messageId = id)
    (ts : String) (verdict : RuleVerdict) (hescalate : verdict.action.type ≠ .escalate) :
    (turns id).wp (· ≠ .broken) (Tier1.runBranch deps message ts verdict) Closes .opened := by
  have hclose : ∀ {w : Window} {event : String} {detail : Option String} {row : ProcessedRow},
      w.Open → (turns id).wp (· ≠ .broken) (Tier1.auditThenMark message ts event detail row)
        Closes w := fun hw =>
    wp_mono (fun _ h => h) (fun _ _ _ h _ => h.2) (auditThenMark_turns hid hw _ _ _ _)
  have hopen : Window.Open .opened := .inl rfl
  rw [Tier1.runBranch]
  split
  · exact absurd ‹_› hescalate
  · split
    · exact ⟨hopen.ne_broken, fun h => by cases h⟩
    · rename_i components hc
      exact turns_before (turns_supporting (archiveReceipt_only
        (hdeps.receiptArchive components hc) message (some ts))) hopen.ne_broken
        (fun _ => hclose hopen) fun _ h => by cases h
  · refine wp_bind.2 (wp_mono (fun _ h => h) (fun r w hw hopen' => ?_)
      (execute_turns hdeps.applier verdict.action hid))
    cases r with
    | ok u => exact hclose hopen'
    | error e => exact ⟨hw, fun h => by cases h⟩

/-- What Tier 2 may leave a window as: closed if it returns, still open if it raises. -/
def ClosesOrOpen (r : Except Exn α) (window : Window) : Prop :=
  if r.isOk = true then window = .closed else window.Open

theorem settle_turns {deps : EscalateDeps} (hdeps : deps.Wired) (hid : message.messageId = id)
    (ts : String) (verdict : Verdict) (band : ConfidenceBand) :
    (turns id).wp (· ≠ .broken) (Tier2.settle deps.tier2 message ts verdict band) ClosesOrOpen
      .opened := by
  have hopen : Window.Open .opened := .inl rfl
  have hact : ∀ (c : Bool) t b u, (turns id).wp (· ≠ .broken) (do
      deps.tier2.executor.execute message verdict.suggestedAction
      if c then deps.tier2.ops.alert t b u else pure ()) (fun _ w => w.Open) .opened := by
    intro c t b u
    refine wp_bind.2 (wp_mono (fun _ h => h) (fun r w hw hopen' => ?_)
      (execute_turns hdeps.applier verdict.suggestedAction hid))
    cases r with
    | error e => exact ⟨hw, hopen'⟩
    | ok _ =>
      have hkeeps : (turns id).Keeps (· = w) (if c then deps.tier2.ops.alert t b u else pure ()) :=
        .ite (turns_supporting (hdeps.alert t b u)) keeps_done
      exact wp_mono (fun _ h => h ▸ hw) (fun _ _ h _ => h ▸ hopen') (hkeeps w rfl)
  have hperform : (turns id).wp (· ≠ .broken)
      (Tier2.perform deps.tier2 message verdict band) (fun _ w => w.Open) .opened := by
    cases band with
    | alertOnly =>
      exact wp_mono (fun _ h => h ▸ hopen.ne_broken) (fun _ _ h _ => h ▸ hopen)
        (turns_supporting (hdeps.alert _ _ _) _ rfl)
    | autoact => exact hact _ _ _ _
    | autoactAlert => exact hact _ _ _ _
  have hdraft : (Tier2.draft deps.tier2 message verdict).Only
      fun op : Op => op.handles ≠ some id := by
    rw [Tier2.draft]
    split
    · trivial
    · exact (hdeps.createDraft message _).mono fun op hop => by
        rw [hop]
        exact fun h => by cases h
  refine wp_bind.2 (wp_mono (fun _ h => h) (fun r w hw hopen' => ?_) hperform)
  cases r with
  | error e => exact ⟨hw, hopen'⟩
  | ok _ =>
    refine turns_before (turns_keeps hdraft) hw (fun _ => ?_) fun _ => hopen'
    refine turns_call rfl hw fun _ => turns_call rfl hw fun json => ?_
    subst hid
    exact wp_mono (fun _ h => h) (fun r _ _ h => by rw [ClosesOrOpen, if_pos h.1]; exact h.2)
      (mark_turns hopen')

theorem processTier2Message_turns {deps : EscalateDeps} (hdeps : deps.Wired) (input : Tier2Input)
    (hid : input.message.messageId = id) :
    (turns id).wp (· ≠ .broken) (processTier2Message deps.tier2 input) ClosesOrOpen .opened := by
  have hopen : Window.Open .opened := .inl rfl
  rw [processTier2Message_eq]
  refine turns_call rfl hopen.ne_broken fun ts => turns_call rfl hopen.ne_broken fun _ => ?_
  refine turns_call rfl hopen.ne_broken fun usage => ?_
  split
  · have hask : (turns id).Keeps (· = .opened) (Tier2.askModel deps.tier2 input ts) :=
      turns_apart ((Tier2.askModel_only hdeps input ts).mono fun _ h => h.handles)
    refine turns_before hask hopen.ne_broken (fun verdict => ?_) fun _ => hopen
    rcases Tier2.accept_cases deps.tier2 input verdict with
      ⟨hok, _⟩ | ⟨e, herr, _⟩ | ⟨e, herr, _⟩
    · rw [hok, ofExcept_ok, pure_bind]
      refine wp_bind.2 (wp_mono (fun _ h => h) (fun r w hw hr => ?_)
        (settle_turns hdeps hid ts verdict _))
      cases r with
      | ok _ => exact ⟨hw, hr⟩
      | error e => exact ⟨hw, hr⟩
    · rw [herr]
      exact ⟨hopen.ne_broken, hopen⟩
    · rw [herr]
      exact ⟨hopen.ne_broken, hopen⟩
  · have hskip : (turns id).wp (· ≠ .broken) (Tier2.skipModel deps.tier2 input.message ts)
        ClosesOrOpen .opened :=
      turns_before (turns_supporting (hdeps.alert _ _ _)) hopen.ne_broken
        (fun _ => wp_mono (fun _ h => h)
          (fun r _ _ h => by rw [ClosesOrOpen, if_pos h.1]; exact h.2)
          (auditThenMark_turns hid hopen _ _ _ _)) fun _ => hopen
    refine wp_bind.2 (wp_mono (fun _ h => h) (fun r w hw hr => ?_) hskip)
    cases r with
    | ok _ => exact ⟨hw, hr⟩
    | error e => exact ⟨hw, hr⟩

theorem quarantine_turns {deps : EscalateDeps} (hdeps : deps.Wired) (hid : message.messageId = id)
    (hw : window.Open) (e : Exn) :
    (turns id).wp (· ≠ .broken) (quarantine deps.tier2.ops message e) Closes window := by
  subst hid
  refine turns_call rfl hw.ne_broken fun ts => turns_call rfl hw.ne_broken fun _ => ?_
  refine turns_then (mark_turns hw) fun _ => ?_
  have hclosed : Window.closed ≠ .broken := fun h => by cases h
  refine turns_call rfl hclosed fun _ => ?_
  exact turns_before (turns_supporting (hdeps.alert _ _ _)) hclosed
    (fun _ => ⟨hclosed, fun _ => rfl⟩) fun _ _ => rfl

/-- An escalation is the rest of a window. -/
theorem escalateMessageOrQuarantine_turns {deps : EscalateDeps} (hdeps : deps.Wired)
    (hid : message.messageId = id) :
    (turns id).wp (· ≠ .broken) (escalateMessageOrQuarantine deps message) Closes .opened := by
  have hopen : Window.Open .opened := .inl rfl
  have htry : (turns id).wp (· ≠ .broken) (escalateMessage deps message) ClosesOrOpen .opened := by
    refine turns_before (turns_supporting (hdeps.getThreadContext message)) hopen.ne_broken
      (fun context => ?_) fun _ => hopen
    refine turns_before (turns_supporting hdeps.listMailboxes) hopen.ne_broken
      (fun mailboxes => ?_) fun _ => hopen
    exact processTier2Message_turns hdeps (tier2Input message context mailboxes) hid
  refine wp_tryCatch.2 (wp_bind.2 (wp_mono (fun _ h => h) (fun r w hw hr => ?_) htry))
  cases r with
  | ok verdict => exact ⟨hw, hw, fun _ => hr⟩
  | error e =>
    refine ⟨hw, ?_⟩
    show (turns id).wp _ (if e.cls.quarantinable then _ else _) _ w
    split
    · exact quarantine_turns hdeps hid hr e
    · exact ⟨hw, fun h => by cases h⟩

/-- **Handling a message is one window on it, and none on any other.** -/
theorem handleMessage_turns {deps : MessageDeps} (hdeps : deps.Wired) (rules : List Rule)
    (message : NormalizedMessage) :
    (turns id).wp (· ≠ .broken) (handleMessage deps rules message) Closes .closed := by
  have hclosed : Window.closed ≠ .broken := fun h => by cases h
  by_cases hid : message.messageId = id
  · have hopen : Window.Open .opened := .inl rfl
    rw [handleMessage_eq]
    refine Machine.wp_perform_bind hclosed (fun seen w' h => ?_) fun e w' h => by cases h.1
    cases seen with
    | true =>
      have hsame : w' = .closed := h.2.trans ((if_pos (congrArg some hid)).trans rfl)
      exact ⟨hsame ▸ hclosed, fun _ => hsame⟩
    | false =>
      have hopened : w' = .opened := h.2.trans ((if_pos (congrArg some hid)).trans rfl)
      rw [hopened, if_neg Bool.false_ne_true]
      refine turns_call rfl hopen.ne_broken fun ts => turns_call rfl hopen.ne_broken fun _ => ?_
      refine turns_before (turns_supporting (evaluate_only
        (fun c hc => hdeps.tier1.classify c hc message) rules _)) hopen.ne_broken
        (fun verdict => ?_) fun _ h => by cases h
      by_cases hescalate : verdict.action.type = .escalate
      · rw [if_pos hescalate, Tier1.runBranch, hescalate]
        dsimp only
        rw [bind_assoc]
        refine turns_before (turns_supporting (Tier1.alertIfImmediate_only hdeps.tier1.alert
          message verdict)) hopen.ne_broken (fun _ => ?_) fun _ h => by cases h
        refine turns_call rfl hopen.ne_broken fun _ => ?_
        refine wp_bind.2 (wp_mono (fun _ h => h) (fun r w hw hr => ?_)
          (escalateMessageOrQuarantine_turns hdeps.escalation hid))
        cases r with
        | ok _ => exact ⟨hw, fun _ => hr rfl⟩
        | error e => exact ⟨hw, fun h => by cases h⟩
      · rw [if_neg hescalate]
        refine wp_bind.2 (wp_mono (fun _ h => h) (fun r w hw hr => ?_)
          (runBranch_turns hdeps.tier1 hid ts verdict hescalate))
        cases r with
        | ok _ => exact ⟨hw, fun _ => hr rfl⟩
        | error e => exact ⟨hw, fun h => by cases h⟩
  · have hkeeps : (turns id).Keeps (· = .closed) (handleMessage deps rules message) :=
      turns_keeps ((handleMessage_only hdeps rules).mono fun _ h => h.handles hid)
    exact wp_mono (fun _ => ne_broken_of_eq hclosed) (fun _ _ h _ => closes_of_eq h) (hkeeps _ rfl)

/-! ### The two loops -/

/-- Between two messages every window is closed, so a loop may look at its next call. -/
theorem closes_bind {p : Proc α} {f : α → Proc β} {Q : Except Exn β → Window → Prop}
    (hp : (turns id).wp (· ≠ .broken) p Closes .closed)
    (hf : ∀ a, (turns id).wp (· ≠ .broken) (f a) Q .closed)
    (he : ∀ e w, Q (.error e) w) : (turns id).wp (· ≠ .broken) (p >>= f) Q .closed := by
  refine wp_bind.2 (wp_mono (fun _ h => h) (fun r w hw hr => ?_) hp)
  cases r with
  | ok a =>
    rw [hr rfl]
    exact hf a
  | error e => exact ⟨hw, he e w⟩

theorem closes_pure {a : α} : (turns id).wp (· ≠ .broken) (pure a : Proc α) Closes .closed :=
  ⟨fun h => (by cases h), fun _ => rfl⟩

theorem closes_call {op : Op} {f : op.Ret → Proc α} {Q : Except Exn α → Window → Prop}
    (hop : op.handles = none) (hf : ∀ a, (turns id).wp (· ≠ .broken) (f a) Q .closed) :
    (turns id).wp (· ≠ .broken) (call op >>= f) Q .closed :=
  turns_call hop (fun h => by cases h) hf

theorem closes_apart {p : Proc α} (hp : p.Only fun op : Op => op.handles = none) :
    (turns id).wp (· ≠ .broken) p Closes .closed :=
  wp_mono (fun _ => ne_broken_of_eq fun h => by cases h) (fun _ _ h _ => closes_of_eq h)
    (turns_apart hp .closed rfl)

theorem processBatch_turns {config : LoopConfig} (hdeps : config.deps.Wired)
    (hobserve : config.observe = false) (rules : List Rule) :
    ∀ messages : List NormalizedMessage,
      (turns id).wp (· ≠ .broken) (processBatch config rules messages) Closes .closed
  | [] => closes_pure
  | message :: messages => by
    refine closes_call rfl fun stop => ?_
    split
    · exact closes_pure
    · refine closes_bind ?_ (fun _ => processBatch_turns hdeps hobserve rules messages)
        fun _ _ h => by cases h
      rw [processOne_eq config hobserve]
      refine closes_bind (handleMessage_turns hdeps rules message) (fun result => ?_)
        fun _ _ h => by cases h
      split
      · exact closes_apart ((checkDailyBudgetAlert_only hdeps.tier1.alert).mono
          fun _ h => h.handles)
      · exact closes_pure

/-- A round of the daemon closes every window it opens. -/
theorem messageLoop_turns {config : LoopConfig} (hdeps : config.deps.Wired)
    (hobserve : config.observe = false) :
    (turns id).wp (· ≠ .broken) (messageLoop config ()) Closes .closed := by
  refine closes_call rfl fun stop => ?_
  split
  · exact closes_pure
  refine closes_call rfl fun pending => ?_
  refine closes_bind (closes_apart ((drainEvents_only pending).mono fun _ h => h.handles))
    (fun _ => closes_call rfl fun paused => ?_) fun _ _ h => by cases h
  split
  · exact closes_call rfl fun _ => closes_pure
  have hack : ∀ checkpoint, (acknowledge config checkpoint).Only
      fun op : Op => op.handles = none := by
    intro checkpoint
    unfold acknowledge
    split
    · exact Prog.only_perform.2 rfl
    · trivial
  have hbatch : (nextBatch config).Only fun op : Op => op.handles = none :=
    .ite (Prog.only_perform.2 rfl) (Prog.Only.bind (Prog.only_perform.2 rfl) fun _ => trivial)
  refine closes_bind (closes_apart hbatch) (fun batch => closes_call rfl fun rules => ?_)
    fun _ _ h => by cases h
  split
  · exact closes_bind (closes_apart (hack _)) (fun _ => closes_call rfl fun _ => closes_pure)
      fun _ _ h => by cases h
  · refine closes_bind (processBatch_turns hdeps hobserve rules batch.messages) (fun finished => ?_)
      fun _ _ h => by cases h
    split
    · exact closes_bind (closes_apart (hack _)) (fun _ => closes_pure) fun _ _ h => by cases h
    · exact closes_pure

theorem backfillMessages_turns {deps : MessageDeps} (hdeps : deps.Wired) (rules : List Rule)
    (limit : Nat) : ∀ (messages : List NormalizedMessage) (counts : BackfillCounts),
      (turns id).wp (· ≠ .broken) (backfillMessages deps rules limit messages counts) Closes .closed
  | [], _ => closes_pure
  | message :: messages, counts => by
    rw [backfillMessages]
    split
    · exact closes_pure
    · rw [backfillOne_eq]
      refine closes_bind (closes_bind (handleMessage_turns hdeps rules message)
        (fun _ => closes_pure) fun _ _ h => by cases h) (fun counts => ?_) fun _ _ h => by cases h
      split
      · exact closes_pure
      · exact backfillMessages_turns hdeps rules limit messages counts

/-- So does a page of the backfill. -/
theorem backfillPage_turns {deps : MessageDeps} (hdeps : deps.Wired) (rules : List Rule)
    (options : BackfillOptions) (s : BackfillState) :
    (turns id).wp (· ≠ .broken) (backfillPage deps rules options s) Closes .closed := by
  rw [backfillPage]
  split
  · refine closes_call rfl fun page => ?_
    split
    · exact closes_pure
    · refine closes_bind (backfillMessages_turns hdeps rules _ _ _) (fun counts => ?_)
        fun _ _ h => by cases h
      split <;> exact closes_pure
  · exact closes_pure

end Turns

/-! ## Two processes, one store -/

/-- The two processes. -/
inductive Pid where
  | daemon
  | backfill
  deriving DecidableEq, Repr

/-- The store file, and who has called what so far. -/
structure Shared where
  db : StateDB
  log : List (Pid × Event)

/-- A call of process `i`.  A store method is one transaction, whoever calls it. -/
def sharing (A : Allowed) (i : Pid) : Machine sig Shared := fun s op r s' =>
  ∃ w', Responds A ⟨s.db, []⟩ op r w' ∧ s' = ⟨w'.db, s.log ++ [(i, ⟨op, r⟩)]⟩

/-- The window that process `i` has on message `id`. -/
def Shared.window (id : String) (i : Pid) (s : Shared) : Window :=
  s.log.foldl (fun window e => if e.1 = i then window.after id e.2 else window) .closed

/-- How many actions have been applied to message `id`, by whomever. -/
def Shared.applied (id : String) (s : Shared) : Nat := s.log.countP fun e => e.2.applied id

/-- As long as nothing fails, and nobody passes the gate of a message on which somebody else has a
window. -/
def serial (i : Pid) : Machine sig Shared := fun s op r s' =>
  sharing noRaise i s op r s' ∧
    ∀ id, (⟨op, r⟩ : Event) = ⟨.hasProcessed id, .ok false⟩ → ∀ j, j ≠ i → s.window id j = .closed

/-- The state of each loop. -/
abbrev LoopState : Pid → Type
  | .daemon => Unit
  | .backfill => BackfillState

/-- What each loop ends with. -/
abbrev LoopResult : Pid → Type
  | .daemon => Unit
  | .backfill => BackfillCounts

/-- What the two processes are run with. -/
structure Overlap where
  daemon : Deployment
  checkpointed : Bool
  cursorAccountId : Option String
  backfill : Deployment
  rules : List Rule
  options : BackfillOptions

/-- The daemon's configuration. -/
def Overlap.loop (o : Overlap) : LoopConfig where
  deps := o.daemon.deps
  checkpointed := o.checkpointed
  cursorAccountId := o.cursorAccountId

/-- The rounds of each process. -/
def Overlap.body (o : Overlap) : (i : Pid) → LoopState i → Proc (Next (LoopState i) (LoopResult i))
  | .daemon => messageLoop o.loop
  | .backfill => backfillPage o.backfill.backfillDeps o.rules o.options

/-- What each process starts with. -/
def Overlap.start (o : Overlap) : (i : Pid) → Proc (Next (LoopState i) (LoopResult i))
  | .daemon => messageLoop o.loop ()
  | .backfill => Spork.backfill o.backfill.backfillDeps o.rules o.options

section Shared

variable {id : String} {s s' : Shared} {i j : Pid} {op : Op} {r : Except Exn op.Ret}

theorem sharing.window {A : Allowed} (h : sharing A i s op r s') :
    s'.window id i = (s.window id i).after id ⟨op, r⟩ := by
  obtain ⟨w', _, rfl⟩ := h
  rw [Shared.window, List.foldl_append]
  exact if_pos rfl

theorem sharing.window_of_ne {A : Allowed} (h : sharing A i s op r s') (hj : j ≠ i) :
    s'.window id j = s.window id j := by
  obtain ⟨w', _, rfl⟩ := h
  rw [Shared.window, List.foldl_append]
  exact if_neg (Ne.symm hj)

theorem sharing.applied {A : Allowed} (h : sharing A i s op r s') :
    s'.applied id = s.applied id + if Event.applied id ⟨op, r⟩ = true then 1 else 0 := by
  obtain ⟨w', _, rfl⟩ := h
  rw [Shared.applied, Shared.applied, List.countP_append, List.countP_singleton]

/-- Nobody handles a message that somebody else handles, and what has been applied is accounted for:
by an open window, or by the row. -/
structure Exclusive (id : String) (s : Shared) : Prop where
  unique : ∀ i j, s.window id i ≠ .closed → s.window id j ≠ .closed → i = j
  unprocessed : ∀ i, s.window id i ≠ .closed → s.db.hasProcessed id = false
  opened : ∀ i, s.window id i = .opened → s.applied id = 0
  fresh : (∀ i, s.window id i = .closed) → s.db.hasProcessed id = false → s.applied id = 0
  applied : s.applied id ≤ 1

theorem Exclusive.congr (hs : Exclusive id s) (hwindow : ∀ j, s'.window id j = s.window id j)
    (hdb : s'.db.hasProcessed id = s.db.hasProcessed id) (happlied : s'.applied id = s.applied id) :
    Exclusive id s' := by
  refine ⟨fun i j => ?_, fun i => ?_, fun i => ?_, fun h => ?_, happlied ▸ hs.applied⟩
  · rw [hwindow, hwindow]
    exact hs.unique i j
  · rw [hwindow, hdb]
    exact hs.unprocessed i
  · rw [hwindow, happlied]
    exact hs.opened i
  · rw [hdb, happlied]
    exact hs.fresh fun i => hwindow i ▸ h i

/-- Another process's window, in a world in which `i` is at `id`. -/
theorem Exclusive.closed (hs : Exclusive id s) (hi : s.window id i ≠ .closed) (hj : j ≠ i) :
    s.window id j = .closed := by
  by_contra h
  exact hj (hs.unique j i h hi)

/-- Nothing but its own mark gives a message its row. -/
theorem sharing.hasProcessed {A : Allowed} (h : sharing A i s op r s')
    (hop : ∀ row, op ≠ .markProcessed id row) :
    s'.db.hasProcessed id = s.db.hasProcessed id := by
  obtain ⟨w', hr, rfl⟩ := h
  rcases hr.db with hdb | hdb
  · rw [hdb]
  · rw [hdb, StateDB.hasProcessed, StateDB.hasProcessed]
    cases op with
    | markProcessed id' row =>
      have hne : id ≠ id' := fun h => hop row (by rw [h])
      show (Function.update s.db.processedMessages id' (some row) id).isSome = _
      rw [Function.update_of_ne hne]
    | recordLlmCall date a b =>
      obtain ⟨usage, hcommit⟩ := Op.commit_recordLlmCall s.db date a b
      rw [hcommit]
    | _ => rfl

/-- Who is past the gate is alone there. -/
theorem Exclusive.gate (hs : Exclusive id s) (h : serial i s (.hasProcessed id) (.ok false) s')
    (hturn : s'.window id i ≠ .broken) : Exclusive id s' := by
  obtain ⟨hshare, hserial⟩ := h
  have hdb : s'.db.hasProcessed id = s.db.hasProcessed id :=
    hshare.hasProcessed fun _ h => by cases h
  have hunseen : s.db.hasProcessed id = false := by
    obtain ⟨w', hr, _⟩ := hshare
    rcases hr.inv with ⟨a, db', heq, hgives, _⟩ | ⟨e, heq, _⟩
    · cases heq
      exact (gives_hasProcessed.1 hgives).1
    · cases heq
  have hnext : s'.window id i = if s.window id i = .closed then .opened else .broken :=
    hshare.window.trans (if_pos rfl)
  have hi : s.window id i = .closed := by
    by_contra hopen
    rw [if_neg hopen] at hnext
    exact hturn hnext
  have hall : ∀ j, s.window id j = .closed := fun j => by
    by_cases hj : j = i
    · exact hj ▸ hi
    · exact hserial id rfl j hj
  have hclosed : ∀ j, j ≠ i → s'.window id j = .closed := fun j hj =>
    (hshare.window_of_ne hj).trans (hall j)
  have happlied : s'.applied id = 0 := hshare.applied.trans (hs.fresh hall hunseen)
  have honly : ∀ j, s'.window id j ≠ .closed → j = i := fun j hj => by
    by_contra hne
    exact hj (hclosed j hne)
  refine ⟨fun j k hj hk => (honly j hj).trans (honly k hk).symm, fun _ _ => hdb.trans hunseen,
    fun _ _ => happlied, fun _ _ => happlied, by omega⟩

/-- The one who is at the message applies its action. -/
theorem Exclusive.act {message : NormalizedMessage} {action : Action} {u : Unit}
    (hs : Exclusive message.messageId s)
    (h : sharing noRaise i s (.apply message action) (.ok u) s')
    (hturn : s'.window message.messageId i ≠ .broken) : Exclusive message.messageId s' := by
  have hdb : s'.db.hasProcessed message.messageId = s.db.hasProcessed message.messageId :=
    h.hasProcessed fun _ h => by cases h
  have hnext : s'.window message.messageId i
      = if s.window message.messageId i = .opened then .acted else .broken :=
    h.window.trans (if_pos rfl)
  have hi : s.window message.messageId i = .opened := by
    by_contra hne
    rw [if_neg hne] at hnext
    exact hturn hnext
  have hopen : s.window message.messageId i ≠ .closed := by rw [hi]; exact fun h => by cases h
  rw [if_pos hi] at hnext
  have honly : ∀ j, s'.window message.messageId j ≠ .closed → j = i := fun j hj => by
    by_contra hne
    exact hj ((h.window_of_ne hne).trans (hs.closed hopen hne))
  have happlied : s'.applied message.messageId = 1 := by
    rw [h.applied, hs.opened i hi]
    simp [Event.applied]
  refine ⟨fun j k hj hk => (honly j hj).trans (honly k hk).symm,
    fun _ _ => hdb.trans (hs.unprocessed i hopen), fun j hj => ?_, fun hall => ?_, by omega⟩
  · rw [honly j (by rw [hj]; exact fun h => by cases h), hnext] at hj
    cases hj
  · rw [hall i] at hnext
    cases hnext

/-- And marks it, which closes the gate for everybody. -/
theorem Exclusive.mark {row : ProcessedRow} {u : Unit} (hs : Exclusive id s)
    (h : sharing noRaise i s (.markProcessed id row) (.ok u) s')
    (hturn : s'.window id i ≠ .broken) : Exclusive id s' := by
  have hprocessed : s'.db.hasProcessed id = true := by
    obtain ⟨w', hr, rfl⟩ := h
    rcases hr.inv with ⟨a, db', heq, hgives, hw⟩ | ⟨e, heq, _⟩
    · rw [hw, World.db_record, ← gives_markProcessed.1 hgives, StateDB.hasProcessed,
        StateDB.processedMessages_markProcessed, Function.update_self]
      rfl
    · cases heq
  have hnext : s'.window id i
      = if s.window id i = .opened ∨ s.window id i = .acted then .closed else .broken :=
    h.window.trans (if_pos rfl)
  have hi : s.window id i = .opened ∨ s.window id i = .acted := by
    by_contra hne
    rw [if_neg hne] at hnext
    exact hturn hnext
  have hopen : s.window id i ≠ .closed := by
    rcases hi with hi | hi <;> rw [hi] <;> exact fun h => by cases h
  rw [if_pos hi] at hnext
  have hclosed : ∀ j, s'.window id j = .closed := fun j => by
    by_cases hj : j = i
    · exact hj ▸ hnext
    · exact (h.window_of_ne hj).trans (hs.closed hopen hj)
  have happlied : s'.applied id = s.applied id := h.applied
  refine ⟨fun j _ hj => absurd (hclosed j) hj, fun j hj => absurd (hclosed j) hj, fun j hj => ?_,
    fun _ hunseen => ?_, happlied ▸ hs.applied⟩
  · rw [hclosed j] at hj
    cases hj
  · rw [hprocessed] at hunseen
    cases hunseen

/-- **The step lemma.**  A call that is in turn keeps the windows exclusive. -/
theorem Exclusive.step (hs : Exclusive id s) (h : serial i s op r s')
    (hturn : s'.window id i ≠ .broken) : Exclusive id s' := by
  have hshare := h.1
  have hsame : ∀ {j}, s.window id i = s'.window id i → s'.window id j = s.window id j := by
    intro j hi
    by_cases hj : j = i
    · exact hj ▸ hi.symm
    · exact hshare.window_of_ne hj
  by_cases hop : op.handles = some id
  · obtain ⟨a, rfl⟩ : ∃ a, r = .ok a := by
      obtain ⟨w', hr, _⟩ := hshare
      exact hr.allowed
    cases op with
    | hasProcessed id' =>
      cases hop
      cases a with
      | true =>
        exact hs.congr (fun _ => hsame (hshare.window.trans (if_pos rfl)).symm)
          (hshare.hasProcessed fun _ h => by cases h) hshare.applied
      | false => exact hs.gate h hturn
    | apply message action =>
      cases hop
      exact hs.act hshare hturn
    | markProcessed id' row =>
      cases hop
      exact hs.mark hshare hturn
    | _ => cases hop
  · refine hs.congr (fun _ => hsame (hshare.window.trans (if_neg hop)).symm)
      (hshare.hasProcessed fun row h => hop (by rw [h]; rfl)) (hshare.applied.trans ?_)
    have hnot : Event.applied id ⟨op, r⟩ = false := by
      cases op with
      | apply message action =>
        cases r with
        | ok u => exact decide_eq_false fun h => hop (congrArg some h)
        | error e => rfl
      | _ => rfl
    rw [hnot]
    rfl

end Shared

/-- **Where the windows never overlap, a message is acted on once.**  In every interleaving of a
daemon and a backfill in which nothing fails and nobody passes the gate of a message on which the
other one has a window, at most one action is applied to each message. -/
theorem serial_applies_once (o : Overlap) (db : StateDB)
    (c : Interleave.Config sig Pid Shared LoopState LoopResult)
    (h : Interleave.Reaches serial o.body (o.start, ⟨db, []⟩) c) (id : String) :
    c.2.applied id ≤ 1 := by
  have hloop : ∀ {i : Pid} {p : Proc (Next (LoopState i) (LoopResult i))},
      (turns id).wp (· ≠ .broken) p Closes .closed →
      (turns id).wp (· ≠ .broken) p (Loop.Continues fun _ window => window = .closed) .closed :=
    fun hp => wp_mono (fun _ h => h) (fun r w _ hr s hs => hr (by rw [hs]; rfl)) hp
  have hbody : ∀ (i : Pid) (s : LoopState i) (window : Window), window = .closed →
      (turns id).wp (· ≠ .broken) (o.body i s)
        (Loop.Continues fun _ window => window = .closed) window := by
    rintro i s _ rfl
    cases i with
    | daemon => exact hloop (messageLoop_turns o.daemon.wired rfl)
    | backfill => exact hloop (backfillPage_turns o.backfill.backfill_wired o.rules o.options s)
  have hstart : ∀ i, (turns id).wp (· ≠ .broken) (o.start i)
      (Loop.Continues fun _ window => window = .closed) .closed := by
    intro i
    cases i with
    | daemon => exact hloop (messageLoop_turns o.daemon.wired rfl)
    | backfill =>
      exact hloop (closes_call rfl fun ts => closes_call rfl fun _ =>
        backfillPage_turns o.backfill.backfill_wired o.rules o.options {})
  have hfresh : Exclusive id ⟨db, []⟩ :=
    ⟨fun _ _ h => absurd rfl h, fun _ h => absurd rfl h, fun _ _ => rfl, fun _ _ => rfl,
      Nat.zero_le 1⟩
  have hview : ∀ {i : Pid} {s : Shared} {op : Op} {r : Except Exn op.Ret} {s' : Shared},
      serial i s op r s' → turns id (s.window id i) op r (s'.window id i) := by
    rintro i s op r s' ⟨hshare, _⟩
    refine ⟨?_, hshare.window⟩
    obtain ⟨w', hr, _⟩ := hshare
    obtain ⟨a, ha⟩ := hr.allowed
    rw [ha]
    rfl
  exact (Interleave.reaches_inv (fun i s => s.window id i) (fun _ => turns id)
    (fun _ window => window ≠ .broken) (fun _ _ window => window = .closed) (Exclusive id) hview
    (fun h hj => h.1.window_of_ne hj) hbody (fun hs hturn h => hs.step h hturn) hstart hfresh
    h).applied

/-! ### Both at `letter` -/

/-- A day on which both processes are given `letter`, and a rule files it. -/
def Env.overlapping : Env := fun _ op =>
  match op with
  | .pollBatch => .ok ⟨[letter], none⟩
  | .queryMessages _ _ _ => .ok ⟨[letter], 0, 1, none, false⟩
  | .currentRules => .ok [always { type := .move, mailbox := some "Archive" }]
  | op => .ok (quietAnswer op)

theorem Env.overlapping_lawful : Env.overlapping.Lawful := by
  intro w op e h
  cases op <;> cases h

/-- The two processes of that day. -/
def bothAtLetter : Overlap where
  daemon := oneCall
  checkpointed := true
  cursorAccountId := none
  backfill := oneCall
  rules := [always { type := .move, mailbox := some "Archive" }]
  options := {}

/-- How the day answers process `i`. -/
def overlapAnswer (i : Pid) (s : Shared) (op : Op) : Except Exn op.Ret × Shared :=
  let answer := Env.overlapping.answer ⟨s.db, []⟩ op
  (answer.1, ⟨answer.2.db, s.log ++ [(i, ⟨op, answer.1⟩)]⟩)

/-- Every call but the recording of usage, which nobody makes that day. -/
def works : Op → Bool
  | .recordLlmCall _ _ _ => false
  | _ => true

theorem overlapAnswer_sharing {i : Pid} {s : Shared} {op : Op} (h : works op = true) :
    sharing noRaise i s op (overlapAnswer i s op).1 (overlapAnswer i s op).2 := by
  have hok : ∃ a, (Env.overlapping.answer ⟨s.db, []⟩ op).1 = .ok a := by
    cases op with
    | recordLlmCall => cases h
    | _ => exact ⟨_, rfl⟩
  exact ⟨_, Env.responds Env.overlapping_lawful hok, rfl⟩

/-- The other process. -/
def Pid.other : Pid → Pid
  | .daemon => .backfill
  | .backfill => .daemon

/-- Nobody passes a gate into the other one's window. -/
def inTurn (i : Pid) (s : Shared) (op : Op) : Bool :=
  works op && match op with
    | .hasProcessed id => s.db.hasProcessed id || decide (s.window id i.other = .closed)
    | _ => true

theorem overlapAnswer_serial {i : Pid} {s : Shared} {op : Op} (h : inTurn i s op = true) :
    serial i s op (overlapAnswer i s op).1 (overlapAnswer i s op).2 := by
  unfold inTurn at h
  rw [Bool.and_eq_true] at h
  refine ⟨overlapAnswer_sharing h.1, fun id hgate j hj => ?_⟩
  obtain ⟨rfl, hreply⟩ := Event.mk.injEq .. ▸ hgate
  have hother : j = i.other := by cases i <;> cases j <;> first | rfl | exact absurd rfl hj
  have hunseen : s.db.hasProcessed id = false := by
    have hanswer : (overlapAnswer i s (.hasProcessed id)).1 = .ok (s.db.hasProcessed id) := rfl
    rw [hanswer] at hreply
    simpa using hreply
  have hturn := h.2
  dsimp only at hturn
  rw [hunseen, Bool.false_or, decide_eq_true_eq] at hturn
  exact hother ▸ hturn

/-- The daemon handles `letter` while the backfill waits at its gate. -/
def politely : List Pid :=
  List.replicate 9 .daemon ++ List.replicate 9 .backfill ++ List.replicate 3 .daemon ++
    [.backfill]

/-- On that day, if nobody passes a gate out of turn, `letter` is filed once. -/
theorem serial_applies_once_letter : ∃ c,
    Interleave.Reaches serial bothAtLetter.body (bothAtLetter.start, ⟨.empty, []⟩) c ∧
      c.2.db.hasProcessed "M1" = true ∧ 0 < c.2.applied "M1" ∧ c.2.applied "M1" ≤ 1 := by
  have hrun := Interleave.follow_reaches inTurn overlapAnswer bothAtLetter.body
    (fun i s op h => overlapAnswer_serial h) politely
    (bothAtLetter.start, (⟨.empty, []⟩ : Shared))
  exact ⟨_, hrun, by decide +kernel, by decide +kernel,
    serial_applies_once bothAtLetter .empty _ hrun "M1"⟩

/-- The backfill passes the gate while the daemon is about to act. -/
def rudely : List Pid :=
  List.replicate 9 .daemon ++ List.replicate 9 .backfill ++ List.replicate 3 .daemon

/-- **The gate and the mark are two transactions**: on that day, in another order, `letter` is filed
twice though nothing fails. -/
theorem overlap_applies_twice : ¬∀ (o : Overlap) (db : StateDB)
    (c : Interleave.Config sig Pid Shared LoopState LoopResult),
    Interleave.Reaches (sharing noRaise) o.body (o.start, ⟨db, []⟩) c →
      ∀ id, c.2.applied id ≤ 1 := by
  intro hclaim
  have hrun := Interleave.follow_reaches (M := sharing noRaise) (fun _ _ op => works op)
    overlapAnswer bothAtLetter.body
    (fun i s op h => overlapAnswer_sharing h) rudely (bothAtLetter.start, (⟨.empty, []⟩ : Shared))
  exact absurd (hclaim bothAtLetter .empty _ hrun "M1") (by decide +kernel)

end Spork
