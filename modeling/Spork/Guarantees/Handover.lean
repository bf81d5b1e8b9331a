import Spork.Guarantees.Cursor

/-!
# From an observe run to a live one

A message that observe mode does not finish has no row, and a later run has to take it in again.
What that run gets to see is fixed by the cursor it finds, so the question is what the observe run
has acknowledged.

A batch that comes to its end is settled: each of its messages has a row or has been escalated, and
observe mode escalates to nobody (`processBatch_settles`).  `Behind q r` says that the cursor stands
at `q`, that the source has read up to `r`, and that whatever has been delivered without being done
was created in between.  Every call but the acknowledgement keeps it; an acknowledgement does if
nothing that was escalated is without a row (`Acknowledgeable`).  The code does not ask
(`escalated_letter_lost`).
-/

set_option autoImplicit false

namespace Spork

open Effects Machine

/-! ## What becomes of a message -/

/-- This run has escalated the message. -/
def World.Escalated (w : World) (m : NormalizedMessage) : Prop :=
  ∃ ts, (⟨.writeAuditEntry ts m.messageId "escalated_pending_tier2" none, .ok ()⟩ : Event) ∈ w.trace

/-- It has a row, or this run has escalated it. -/
def World.Settled (w : World) (m : NormalizedMessage) : Prop :=
  w.db.hasProcessed m.messageId = true ∨ w.Escalated m

section Settled

variable {A : Allowed} {m message : NormalizedMessage} {w w' : World}

theorem World.Settled.mono (h : w.Settled m) (hdb : w.db.Grows w'.db)
    (htrace : w.trace <+: w'.trace) :
    w'.Settled m :=
  h.imp (hdb.hasProcessed _) fun ⟨ts, hmem⟩ => ⟨ts, htrace.subset hmem⟩

theorem Responds.settled {op : Op} {r : Except Exn op.Ret} (hr : Responds A w op r w')
    (h : w.Settled m) : w'.Settled m :=
  h.mono hr.grows ⟨_, hr.trace.symm⟩

theorem keeps_settled {α : Type} (p : Proc α) : (machine A).Keeps (fun w => w.Settled m) p :=
  keeps_of_only (fun _ _ _ _ _ h hr => Responds.settled hr h) (Prog.only_true p)

/-- Settled at first, settled at the end. -/
theorem settles_bind {α β : Type} {p : Proc α} {f : α → Proc β}
    (hp : (machine A).wp (fun _ => True) p (fun r w' => r.isOk = true → w'.Settled m) w) :
    (machine A).wp (fun _ => True) (p >>= f) (fun r w' => r.isOk = true → w'.Settled m) w := by
  refine wp_bind.2 (wp_mono (fun _ h => h) (fun r w' _ hr => ?_) hp)
  cases r with
  | error e => exact ⟨trivial, fun h => by cases h⟩
  | ok a =>
    refine wp_mono (p := f a) (fun _ _ => trivial) ?_ (keeps_settled (f a) w' (hr rfl))
    exact fun _ _ hw'' _ _ => hw''

/-- When it returns, the branch of a verdict has settled the message. -/
theorem runBranch_settles (deps : Tier1Deps) (ts : String) (verdict : RuleVerdict) (w : World) :
    (machine A).wp (fun _ => True) (Tier1.runBranch deps message ts verdict)
      (fun r w' => r.isOk = true → w'.Settled message) w := by
  by_cases hescalate : verdict.action.type = .escalate
  · rw [Tier1.runBranch, hescalate]
    refine wp_bind_right (fun _ w₁ => ?_) (fun _ _ h => by cases h) w
    refine wp_call trivial (fun u db' _ hg => ⟨trivial, fun _ => .inr ⟨ts, ?_⟩⟩)
      fun _ _ _ => ⟨trivial, fun h => by cases h⟩
    exact List.mem_append_right _ (List.mem_singleton_self _)
  · exact wp_mono (fun _ h => h) (fun _ _ _ h hok => .inl (h hok))
      (Tier1.runBranch_marks deps message ts verdict hescalate w)

/-- **When `process_message` returns, the message is settled.** -/
theorem processMessage_settles (deps : Tier1Deps) (rules : List Rule) (w : World) :
    (machine A).wp (fun _ => True) (processMessage deps false message rules)
      (fun r w' => r.isOk = true → w'.Settled message) w := by
  rw [processMessage_eq, processMessage', if_neg Bool.false_ne_true]
  refine wp_call_bind trivial (fun seen db' _ hg => ?_) fun _ _ _ => ⟨trivial, fun h => by cases h⟩
  obtain ⟨hseen, hdb⟩ := gives_hasProcessed.1 hg
  cases seen with
  | true => exact ⟨trivial, fun _ => .inl (hdb ▸ hseen)⟩
  | false =>
    rw [if_neg Bool.false_ne_true]
    exact wp_bind_right (fun ts => wp_bind_right (fun _ => wp_bind_right
      (fun verdict w₁ => settles_bind (runBranch_settles deps ts verdict w₁))
      fun _ _ h => (by cases h)) fun _ _ h => (by cases h)) (fun _ _ h => by cases h) _

theorem processOne_settles (config : LoopConfig) (rules : List Rule) (w : World) :
    (machine A).wp (fun _ => True) (processOne config rules message)
      (fun r w' => r.isOk = true → w'.Settled message) w :=
  settles_bind (processMessage_settles config.deps.tier1 rules w)

/-- **A batch that comes to its end is settled.** -/
theorem processBatch_settles (config : LoopConfig) (rules : List Rule) :
    ∀ (messages : List NormalizedMessage) (w : World),
      (machine A).wp (fun _ => True) (processBatch config rules messages)
        (fun out w' => out = .ok true → ∀ m ∈ messages, w'.Settled m) w :=
  processBatch_each rules (fun _ => processOne_settles config rules) fun _ _ => keeps_settled _

end Settled

/-! ## What an observe run leaves behind -/

/-- A checkpoint is only acknowledged when nothing that has been delivered and escalated is without
a row. -/
def Acknowledgeable (s : Ingest) (op : Op) : Prop :=
  op.setsCursor = true → ∀ batch ∈ s.world.batches, ∀ m ∈ batch.messages, s.world.Escalated m →
    s.world.db.hasProcessed m.messageId = true

/-- The cursor stands at `q`, the source has read up to `r`, and every message that has been
delivered has a row or was created in between. -/
structure Behind (server : MailServer) (accountId : String) (q r : Nat) (s : Ingest) : Prop where
  cursor : s.world.db.getCursor accountId = some (server.state q)
  since : s.since = some (server.state r)
  le : q ≤ r
  undone : ∀ batch ∈ s.world.batches, ∀ m ∈ batch.messages,
    s.world.db.hasProcessed m.messageId = true ∨ m ∈ server.window q r

/-- Everything that has been delivered is settled, `messages` aside. -/
def SettledBut (messages : List NormalizedMessage) (s : Ingest) : Prop :=
  ∀ batch ∈ s.world.batches, ∀ m ∈ batch.messages, m ∈ messages ∨ s.world.Settled m

/-- The invariant: nothing has been delivered yet, or nothing undone is before the cursor. -/
def Recoverable (server : MailServer) (accountId : String) (s : Ingest) : Prop :=
  (∃ since, Fresh accountId since s) ∨ ∃ q r, Behind server accountId q r s

/-- The invariant at the head of a round: a source without a cursor has read nothing, and everything
is settled. -/
def Ready (server : MailServer) (accountId : String) (s : Ingest) : Prop :=
  (Fresh accountId none s ∨ ∃ q r, Behind server accountId q r s) ∧ SettledBut [] s

/-- The invariant behind a poll, with the checkpoint that came with it. -/
def PolledUpTo (server : MailServer) (accountId : String) (checkpoint : Option String)
    (s : Ingest) : Prop :=
  (∃ q, checkpoint = some (server.state q) ∧ Fresh accountId (some (server.state q)) s) ∨
    ∃ q r, (checkpoint = none ∨ checkpoint = some (server.state r)) ∧ Behind server accountId q r s

section Behind

variable {server : MailServer} {A : Allowed} {accountId : String} {q r : Nat}
  {since checkpoint : Option String} {messages : List NormalizedMessage} {s s' : Ingest}
  {config : LoopConfig}

theorem Fresh.recoverable (h : Fresh accountId since s) : Recoverable server accountId s :=
  .inl ⟨since, h⟩

theorem Behind.recoverable (h : Behind server accountId q r s) : Recoverable server accountId s :=
  .inr ⟨q, r, h⟩

theorem Ready.recoverable (h : Ready server accountId s) : Recoverable server accountId s := by
  rcases h.1 with h | ⟨q, r, h⟩
  · exact h.recoverable
  · exact h.recoverable

theorem PolledUpTo.recoverable (h : PolledUpTo server accountId checkpoint s) :
    Recoverable server accountId s := by
  rcases h with ⟨q, -, h⟩ | ⟨q, r, -, h⟩
  · exact h.recoverable
  · exact h.recoverable

/-- Neither the cursor nor the source has moved, and no batch has come. -/
structure Unmoved (accountId : String) (s s' : Ingest) : Prop where
  cursor : s'.world.db.getCursor accountId = s.world.db.getCursor accountId
  since : s'.since = s.since
  batches : s'.world.batches = s.world.batches
  grows : s.world.db.Grows s'.world.db
  trace : s.world.trace <+: s'.world.trace

theorem Fresh.unmoved (hs : Fresh accountId since s) (h : Unmoved accountId s s') :
    Fresh accountId since s' :=
  ⟨h.cursor.trans hs.cursor, h.since.trans hs.since, h.batches ▸ hs.batches⟩

theorem Behind.unmoved (hs : Behind server accountId q r s) (h : Unmoved accountId s s') :
    Behind server accountId q r s' := by
  refine ⟨h.cursor.trans hs.cursor, h.since.trans hs.since, hs.le, fun batch hbatch m hm => ?_⟩
  rw [h.batches] at hbatch
  exact (hs.undone batch hbatch m hm).imp_left (h.grows.hasProcessed _)

theorem SettledBut.unmoved (hs : SettledBut messages s) (h : Unmoved accountId s s') :
    SettledBut messages s' := by
  intro batch hbatch m hm
  rw [h.batches] at hbatch
  exact (hs batch hbatch m hm).imp_right fun hsettled => hsettled.mono h.grows h.trace

theorem Ready.unmoved (hs : Ready server accountId s) (h : Unmoved accountId s s') :
    Ready server accountId s' := by
  refine ⟨?_, hs.2.unmoved h⟩
  rcases hs.1 with hs | ⟨q, r, hs⟩
  · exact .inl (hs.unmoved h)
  · exact .inr ⟨q, r, hs.unmoved h⟩

theorem PolledUpTo.unmoved (hs : PolledUpTo server accountId checkpoint s)
    (h : Unmoved accountId s s') :
    PolledUpTo server accountId checkpoint s' := by
  rcases hs with ⟨q, hc, hs⟩ | ⟨q, r, hc, hs⟩
  · exact .inl ⟨q, hc, hs.unmoved h⟩
  · exact .inr ⟨q, r, hc, hs.unmoved h⟩

/-- A call is one more event. -/
theorem Ingests.trace {op : Op} {out : Except Exn op.Ret} (h : Ingests server A s op out s') :
    s'.world.trace = s.world.trace ++ [⟨op, out⟩] := by
  cases h with
  | other _ h => exact Responds.trace h
  | _ => rfl

/-- A neutral call moves nothing. -/
theorem Ingests.unmoved {op : Op} {out : Except Exn op.Ret} (h : Ingests server A s op out s')
    (accountId : String) (hop : op.Neutral) : Unmoved accountId s s' := by
  obtain ⟨hsince, hcursor, hbatches, hgrows⟩ := h.neutral accountId hop
  exact ⟨hcursor, hsince, hbatches, hgrows, _, h.trace.symm⟩

/-- A poll that fails moves nothing. -/
theorem Ingests.unmoved_of_pollRaises {e : Exn}
    (h : Ingests server A s .pollBatch (.error e) s') : Unmoved accountId s s' := by
  have htrace := h.trace
  cases h with
  | pollRaises =>
    exact ⟨rfl, rfl, by simp [World.batches, World.record, Event.batch], .refl _, _, htrace.symm⟩
  | other hop h => exact absurd rfl hop

/-- A poll adds its batch. -/
theorem Ingests.batches_of_poll {batch : MessageBatch}
    (h : Ingests server A s .pollBatch (.ok batch) s') :
    s'.world.batches = s.world.batches ++ [batch] := by
  rw [World.batches, World.batches, h.trace, List.filterMap_append]
  rfl

/-- What a poll brings, from the head of a round: a baseline, or everything since the last one. -/
theorem Ready.poll (hs : Ready server accountId s) {batch : MessageBatch}
    (h : Ingests server A s .pollBatch (.ok batch) s') :
    PolledUpTo server accountId batch.checkpoint s' ∧ SettledBut batch.messages s' := by
  have hbatches := h.batches_of_poll
  refine ⟨?_, fun b hb m hm => ?_⟩
  · cases h with
    | @baseline q hsince =>
      rcases hs.1 with hs | ⟨q', r, hs⟩
      · refine .inl ⟨q, rfl, hs.cursor, rfl, fun b hb => ?_⟩
        rcases List.mem_append.1 (hbatches ▸ hb) with hb | hb
        · exact hs.batches b hb
        · rw [List.mem_singleton.1 hb]
      · rw [hs.since] at hsince
        cases hsince
    | @changes p r checkpoint hsince hpr hc =>
      rcases hs.1 with hs | ⟨q, p', hs⟩
      · rw [hs.since] at hsince
        cases hsince
      · rw [hs.since, Option.some_inj] at hsince
        obtain rfl := server.state_injective hsince
        have hwindow : ∀ {i j m}, q ≤ i → j ≤ r → m ∈ server.window i j →
            m ∈ server.window q r := by
          intro i j m hi hj hm
          obtain ⟨k, hik, hkj, hk⟩ := MailServer.mem_window.1 hm
          exact MailServer.mem_window.2 ⟨k, hi.trans hik, hkj.trans_le hj, hk⟩
        refine .inr ⟨q, r, hc, hs.cursor, rfl, hs.le.trans hpr, fun b hb m hm => ?_⟩
        rcases List.mem_append.1 (hbatches ▸ hb) with hb | hb
        · exact (hs.undone b hb m hm).imp_right (hwindow (Nat.le_refl q) hpr)
        · rw [List.mem_singleton.1 hb] at hm
          exact .inr (hwindow hs.le (Nat.le_refl r) hm)
    | other hop h => exact absurd rfl hop
  · have hgrows : s.world.db.Grows s'.world.db := by
      cases h with
      | other hop h => exact absurd rfl hop
      | _ => exact .refl _
    rcases List.mem_append.1 (hbatches ▸ hb) with hb | hb
    · refine .inr (((hs.2 b hb m hm).resolve_left List.not_mem_nil).mono hgrows ⟨_, h.trace.symm⟩)
    · rw [List.mem_singleton.1 hb] at hm
      exact .inl hm

/-- The cursor catches up with the source, behind messages that all have their rows. -/
theorem Ingests.setCursor_behind (hsince : s.since = some (server.state r))
    (hdone : ∀ batch ∈ s.world.batches, ∀ m ∈ batch.messages,
      s.world.db.hasProcessed m.messageId = true) {out : Except Exn Unit}
    (h : Ingests server A s (.setCursor accountId (server.state r)) out s') :
    (out = .ok () ∧ Behind server accountId r r s' ∧ SettledBut [] s') ∨
      (∃ e, out = .error e) ∧ Unmoved accountId s s' := by
  have htrace := h.trace
  rcases Ingests.setCursor h with ⟨rfl, rfl⟩ | ⟨e, rfl, rfl⟩
  · have hdone' : ∀ batch ∈ (s.world.record (.setCursor accountId (server.state r)) (.ok ())
        (s.world.db.setCursor accountId (server.state r))).batches, ∀ m ∈ batch.messages,
        s.world.db.hasProcessed m.messageId = true := by
      rw [batches_setCursor]
      exact hdone
    exact .inl ⟨rfl, ⟨by simp, hsince, Nat.le_refl r, fun b hb m hm => .inl (hdone' b hb m hm)⟩,
      fun b hb m hm => .inr (.inl (hdone' b hb m hm))⟩
  · exact .inr ⟨⟨e, rfl⟩, rfl, rfl, batches_setCursor s.world, .refl _, _, htrace.symm⟩

/-! ### One round -/

/-- The machine of an observe run that acknowledges nothing undone. -/
abbrev careful (server : MailServer) (A : Allowed) : Machine sig Ingest :=
  (ingesting server A).guarded Acknowledgeable

theorem careful_keeps {K : Ingest → Prop} {α : Type} {prog : Proc α}
    (hK : ∀ s s', Unmoved accountId s s' → K s → K s') (hp : prog.Only Op.Neutral) :
    (careful server A).Keeps K prog :=
  keeps_of_only (fun s _ _ s' hop hs h => hK s s' (Ingests.unmoved h.2 accountId hop) hs) hp

/-- What has been delivered is acknowledged, with care. -/
theorem acknowledge_ready (haccount : config.cursorAccountId = some accountId)
    (hs : PolledUpTo server accountId checkpoint s) (hsettled : SettledBut [] s) :
    (careful server A).wp (Recoverable server accountId) (acknowledge config checkpoint)
      (fun out s' => out = .ok () → Ready server accountId s') s := by
  have hset : ∀ {r}, s.since = some (server.state r) → checkpoint = some (server.state r) →
      (careful server A).wp (Recoverable server accountId) (acknowledge config checkpoint)
        (fun out s' => out = .ok () → Ready server accountId s') s := by
    rintro r hsince rfl
    rw [acknowledge_some haccount]
    refine Machine.wp_perform hs.recoverable fun out s' h => ?_
    have hdone : ∀ batch ∈ s.world.batches, ∀ m ∈ batch.messages,
        s.world.db.hasProcessed m.messageId = true := fun b hb m hm =>
      ((hsettled b hb m hm).resolve_left List.not_mem_nil).elim id (h.1 rfl b hb m hm)
    rcases h.2.setCursor_behind hsince hdone with ⟨rfl, hs', hsettled'⟩ | ⟨⟨e, rfl⟩, hunmoved⟩
    · exact ⟨hs'.recoverable, fun _ => ⟨.inr ⟨r, r, hs'⟩, hsettled'⟩⟩
    · exact ⟨(hs.unmoved hunmoved).recoverable, fun h => by cases h⟩
  rcases hs with ⟨q, hc, hfresh⟩ | ⟨q, r, hc | hc, hbehind⟩
  · exact hset hfresh.since hc
  · subst hc
    exact ⟨hbehind.recoverable, fun _ => ⟨.inr ⟨q, r, hbehind⟩, hsettled⟩⟩
  · exact hset hbehind.since hc

/-- Behind an acknowledgement a round goes on from the head. -/
theorem acknowledge_continues {p : Proc (Next Unit Unit)}
    (haccount : config.cursorAccountId = some accountId)
    (hs : PolledUpTo server accountId checkpoint s)
    (hsettled : SettledBut [] s)
    (hp : ∀ s', Ready server accountId s' → (careful server A).wp (Recoverable server accountId) p
      (Loop.Continues fun _ => Ready server accountId) s') :
    (careful server A).wp (Recoverable server accountId)
      (acknowledge config checkpoint >>= fun _ => p)
      (Loop.Continues fun _ => Ready server accountId) s := by
  refine wp_bind.2 (wp_mono (fun _ h => h) (fun out s' hs' hout => ?_)
    (acknowledge_ready haccount hs hsettled))
  cases out with
  | error e => exact ⟨hs', fun _ h => by cases h⟩
  | ok u => exact hp s' (hout rfl)

/-- Processing a batch moves nothing, and a batch that comes to its end is settled. -/
theorem processBatch_polled (hdeps : config.deps.Wired) (rules : List Rule)
    (hs : PolledUpTo server accountId checkpoint s) (hsettled : SettledBut messages s) :
    (careful server A).wp (PolledUpTo server accountId checkpoint)
      (processBatch config rules messages)
      (fun out s' => out = .ok true → SettledBut [] s') s := by
  have honly := processBatch_only hdeps rules messages
  have hsettles := wp_comap (N := careful server A) (f := Ingest.world)
    (fun s op out s' hop ⟨_, h⟩ => by
      cases h with
      | other _ h => exact h
      | _ => exact absurd rfl hop.1)
    honly (processBatch_settles (A := A) config rules messages s.world)
  have hkeeps : (careful server A).Keeps (fun s => PolledUpTo server accountId checkpoint s ∧
      SettledBut messages s) (processBatch config rules messages) :=
    careful_keeps (fun _ _ h hs => ⟨hs.1.unmoved h, hs.2.unmoved h⟩) honly
  refine wp_mono (fun _ h => h.2.1) (fun out s' hs' hq hout b hb m hm => .inr ?_)
    (wp_and hsettles (hkeeps s ⟨hs, hsettled⟩))
  exact (hs'.2.2 b hb m hm).elim (hq.1 hout m) id

/-- What a round does once it has polled. -/
theorem afterPoll_ready (hdeps : config.deps.Wired)
    (haccount : config.cursorAccountId = some accountId)
    (rules : List Rule) {batch : MessageBatch} (hs : PolledUpTo server accountId batch.checkpoint s)
    (hsettled : SettledBut batch.messages s) :
    (careful server A).wp (Recoverable server accountId)
      (if batch.messages = [] then idleRound config batch.checkpoint
        else busyRound config rules batch)
      (Loop.Continues fun _ => Ready server accountId) s := by
  split
  · rename_i hnil
    refine acknowledge_continues haccount hs (hnil ▸ hsettled) fun s' hs' => ?_
    exact Keeps.wp_bind (careful_keeps (fun _ _ h hs => hs.unmoved h)
      (only_neutral_call ⟨fun h => (by cases h), rfl⟩)) (fun _ => Ready.recoverable) hs'
      (fun _ s'' hs'' => ⟨hs''.recoverable, fun _ _ => hs''⟩) fun _ _ _ _ h => by cases h
  · refine wp_bind.2 (wp_mono (fun _ h => h.recoverable) (fun out s' hs' hout => ?_)
      (processBatch_polled hdeps rules hs hsettled))
    cases out with
    | error e => exact ⟨hs'.recoverable, fun _ h => by cases h⟩
    | ok finished =>
      cases finished with
      | false => exact ⟨hs'.recoverable, fun _ h => by cases h⟩
      | true =>
        exact acknowledge_continues haccount hs' (hout rfl)
          fun s'' hs'' => ⟨hs''.recoverable, fun _ _ => hs''⟩

/-- A round that starts ready ends ready, and nothing is lost in between. -/
theorem messageLoop_ready (hdeps : config.deps.Wired) (hcheckpointed : config.checkpointed = true)
    (haccount : config.cursorAccountId = some accountId) (hs : Ready server accountId s) :
    (careful server A).wp (Recoverable server accountId) (messageLoop config ())
      (Loop.Continues fun _ => Ready server accountId) s := by
  have hneutral : ∀ {α : Type} {prog : Proc α} {f : α → Proc (Next Unit Unit)} {s : Ingest},
      prog.Only Op.Neutral → Ready server accountId s →
      (∀ a s', Ready server accountId s' →
        (careful server A).wp (Recoverable server accountId) (f a)
        (Loop.Continues fun _ => Ready server accountId) s') →
      (careful server A).wp (Recoverable server accountId) (prog >>= f)
        (Loop.Continues fun _ => Ready server accountId) s := fun hp hs hf =>
    Keeps.wp_bind (careful_keeps (fun _ _ h hs => hs.unmoved h) hp)
      (fun _ => Ready.recoverable) hs hf
      fun _ _ _ _ h => by cases h
  refine hneutral (only_neutral_call ⟨fun h => (by cases h), rfl⟩) hs fun stop s hs => ?_
  cases stop with
  | true => exact ⟨hs.recoverable, fun _ h => by cases h⟩
  | false =>
    rw [if_neg Bool.false_ne_true]
    refine hneutral (only_neutral_call ⟨fun h => (by cases h), rfl⟩) hs fun pending s hs => ?_
    refine hneutral ((drainEvents_only pending).mono fun _ => housekeeping_neutral) hs
      fun _ s hs => ?_
    refine hneutral (only_neutral_call ⟨fun h => (by cases h), rfl⟩) hs fun paused s hs => ?_
    cases paused with
    | true =>
      exact hneutral (only_neutral_call ⟨fun h => (by cases h), rfl⟩) hs
        fun _ s hs => ⟨hs.recoverable, fun _ _ => hs⟩
    | false =>
      rw [if_neg Bool.false_ne_true, pollRound, nextBatch, if_pos hcheckpointed]
      refine Machine.wp_perform_bind hs.recoverable (fun batch s' h => ?_) (fun e s' h => ?_)
      · have hrules : (careful server A).Keeps (fun s =>
            PolledUpTo server accountId batch.checkpoint s ∧ SettledBut batch.messages s)
            (call .currentRules) :=
          careful_keeps (fun _ _ h hs => ⟨hs.1.unmoved h, hs.2.unmoved h⟩)
            (only_neutral_call ⟨fun h => (by cases h), rfl⟩)
        exact hrules.wp_bind (fun _ h => h.1.recoverable) (hs.poll h.2)
          (fun rules s'' hs'' => afterPoll_ready hdeps haccount rules hs''.1 hs''.2)
          fun _ _ _ _ h => by cases h
      · exact ⟨(hs.unmoved h.2.unmoved_of_pollRaises).recoverable, fun _ h => by cases h⟩

/-- **What a careful observe run leaves behind can be recovered**, wherever it ends. -/
theorem observe_recoverable (hdeps : config.deps.Wired) (hcheckpointed : config.checkpointed = true)
    (haccount : config.cursorAccountId = some accountId) {db : StateDB}
    (hdb : db.getCursor accountId = none ∨ ∃ p, db.getCursor accountId = some (server.state p))
    {c : Loop.Config sig Ingest Unit Unit}
    (hrun : Loop.Reaches (careful server A) (messageLoop config)
      (messageLoop config (), bootSource accountId ⟨⟨db, []⟩, none⟩) c) :
    Recoverable server accountId c.2 := by
  have hstart : Ready server accountId (bootSource accountId ⟨⟨db, []⟩, none⟩) := by
    refine ⟨?_, fun b hb => by cases hb⟩
    rcases hdb with hdb | ⟨p, hdb⟩
    · exact .inl ⟨hdb, hdb, fun b hb => by cases hb⟩
    · exact .inr ⟨p, p, hdb, hdb, Nat.le_refl p, fun b hb => by cases hb⟩
  exact Loop.reaches_inv (J := fun _ => Ready server accountId) (s := ())
    (fun _ s hs => messageLoop_ready hdeps hcheckpointed haccount hs) hstart hrun

end Behind

/-! ## What the next run gets to see -/

/-- A run that was started at `q`, behind the first `old` batches, has been delivered exactly what
was created since. -/
structure Resuming (server : MailServer) (q old r : Nat) (s : Ingest) : Prop where
  since : s.since = some (server.state r)
  le : q ≤ r
  old_le : old ≤ s.world.batches.length
  delivered : ∀ m, m ∈ server.window q r ↔
    ∃ batch ∈ s.world.batches.drop old, m ∈ batch.messages

section Resuming

variable {server : MailServer} {A : Allowed} {q old r : Nat} {s s' : Ingest}

theorem MailServer.mem_window_append {i j k : Nat} (hij : i ≤ j) (hjk : j ≤ k)
    {m : NormalizedMessage} :
    m ∈ server.window i k ↔ m ∈ server.window i j ∨ m ∈ server.window j k := by
  simp only [MailServer.mem_window]
  constructor
  · rintro ⟨n, hin, hnk, hn⟩
    rcases Nat.lt_or_ge n j with hnj | hjn
    · exact .inl ⟨n, hin, hnj, hn⟩
    · exact .inr ⟨n, hjn, hnk, hn⟩
  · rintro (⟨n, hin, hnj, hn⟩ | ⟨n, hjn, hnk, hn⟩)
    · exact ⟨n, hin, hnj.trans_le hjk, hn⟩
    · exact ⟨n, hij.trans hjn, hnk, hn⟩

/-- Any call of any program. -/
theorem Resuming.step (hs : Resuming server q old r s) {op : Op} {out : Except Exn op.Ret}
    (h : Ingests server A s op out s') : ∃ r', Resuming server q old r' s' := by
  have hunmoved : s'.since = s.since → s'.world.batches = s.world.batches →
      ∃ r', Resuming server q old r' s' := fun hsince hbatches =>
    ⟨r, hsince.trans hs.since, hs.le, hbatches ▸ hs.old_le, hbatches ▸ hs.delivered⟩
  by_cases hop : op = .pollBatch
  · subst hop
    cases h with
    | baseline hsince =>
      rw [hs.since] at hsince
      cases hsince
    | @changes p r' checkpoint hsince hpr hc =>
      rw [hs.since, Option.some_inj] at hsince
      obtain rfl := server.state_injective hsince
      have hbatches : (s.world.record .pollBatch (.ok ⟨server.window r r', checkpoint⟩)
          s.world.db).batches = s.world.batches ++ [⟨server.window r r', checkpoint⟩] := by
        simp [World.batches, World.record, Event.batch]
      refine ⟨r', rfl, hs.le.trans hpr, ?_, fun m => ?_⟩
      · rw [hbatches, List.length_append]
        exact hs.old_le.trans (Nat.le_add_right _ _)
      · rw [hbatches, List.drop_append_of_le_length hs.old_le,
          server.mem_window_append hs.le hpr, hs.delivered m]
        simp only [List.mem_append, List.mem_singleton, or_and_right, exists_or, exists_eq_left]
    | pollRaises => exact hunmoved rfl (by simp [World.batches, World.record, Event.batch])
    | other hop h => exact absurd rfl hop
  · refine hunmoved ?_ (h.batches_of_ne hop)
    cases h with
    | other _ h => rfl
    | _ => exact absurd rfl hop

/-- **A run that resumes from a cursor is delivered exactly what was created since.** -/
theorem resumes {accountId : String} {body : Unit → Proc (Next Unit Unit)}
    (hcursor : s.world.db.getCursor accountId = some (server.state q))
    {c : Loop.Config sig Ingest Unit Unit}
    (hrun : Loop.Reaches (ingesting server A) body (body (), bootSource accountId s) c) :
    ∃ r, Resuming server q s.world.batches.length r c.2 := by
  have hkeeps : ∀ p : Proc (Next Unit Unit), (ingesting server A).Keeps
      (fun s' => ∃ r, Resuming server q s.world.batches.length r s') p := fun p =>
    keeps_of_only (fun _ _ _ _ _ ⟨_, hs⟩ h => hs.step h) (Prog.only_true p)
  have hstart : Resuming server q s.world.batches.length q (bootSource accountId s) :=
    ⟨hcursor, Nat.le_refl q, Nat.le_refl _, fun m => by simp [MailServer.window, bootSource]⟩
  exact Loop.reaches_inv (J := fun _ s' => ∃ r, Resuming server q s.world.batches.length r s')
    (s := ()) (fun _ s' hs' => wp_mono (fun _ h => h) (fun _ _ h _ _ _ => h) (hkeeps _ s' hs'))
    ⟨q, hstart⟩ hrun

end Resuming

/-! ## Both runs -/

/-- **Mail that a careful observe run has not finished is delivered again.**  Wherever the observe
run ends, a live run that resumes from its cursor and has read as far as the observe run had has
been delivered every message of the observe run that has no row. -/
theorem observed_mail_redelivered (d d' : Deployment) (server : MailServer) (accountId : String)
    {A A' : Allowed} {db : StateDB}
    (hdb : db.getCursor accountId = none ∨ ∃ p, db.getCursor accountId = some (server.state p))
    {c c' : Loop.Config sig Ingest Unit Unit}
    (hobserve : Loop.Reaches (careful server A) (messageLoop (d.runDaemon true (some accountId)))
      (messageLoop (d.runDaemon true (some accountId)) (), bootSource accountId ⟨⟨db, []⟩, none⟩) c)
    (hlive : Loop.Reaches (ingesting server A') (messageLoop (d'.runDaemon false (some accountId)))
      (messageLoop (d'.runDaemon false (some accountId)) (), bootSource accountId c.2) c') :
    ∀ batch ∈ c.2.world.batches, ∀ m ∈ batch.messages,
      c.2.world.db.hasProcessed m.messageId = false →
      ∀ p r, c.2.since = some (server.state p) → c'.2.since = some (server.state r) → p ≤ r →
        ∃ batch' ∈ c'.2.world.batches.drop c.2.world.batches.length, m ∈ batch'.messages := by
  intro batch hbatch m hm hunmarked p r hp hr hpr
  rcases observe_recoverable (d.runDaemon_wired true (some accountId)) rfl rfl hdb hobserve with
    ⟨since, hfresh⟩ | ⟨q, p', hbehind⟩
  · rw [hfresh.batches batch hbatch] at hm
    cases hm
  · obtain ⟨r', hresuming⟩ := resumes hbehind.cursor hlive
    have hp' : p' = p := server.state_injective (Option.some_inj.1 (hbehind.since.symm.trans hp))
    have hr' : r' = r := server.state_injective (Option.some_inj.1 (hresuming.since.symm.trans hr))
    subst hp' hr'
    rcases hbehind.undone batch hbatch m hm with hmarked | hwindow
    · rw [hunmarked] at hmarked
      cases hmarked
    · rw [← hresuming.delivered m, server.mem_window_append hbehind.le hpr]
      exact .inl hwindow

/-! ### A letter that is escalated -/

/-- A round of an observe run that takes `letter` in. -/
def observedRound : Except Exn (Next Unit Unit) × Ingest :=
  (messageLoop (oneCall.runDaemon true (some "A1")) ()).eval quietIngest
    (bootSource "A1" quietStart)

/-- The same server, with a baseline for a source that has no state yet. -/
def baselineIngest (s : Ingest) : (op : Op) → Except Exn op.Ret × Ingest
  | .pollBatch =>
    if s.since = none then
      (.ok ⟨[], some (quietServer.state 0)⟩,
        ⟨s.world.record .pollBatch (.ok ⟨[], some (quietServer.state 0)⟩) s.world.db,
          some (quietServer.state 0)⟩)
    else quietIngest s .pollBatch
  | op => quietIngest s op

theorem baselineIngest_ingests (s : Ingest) (op : Op) :
    Ingests quietServer anything s op (baselineIngest s op).1 (baselineIngest s op).2 := by
  cases op with
  | pollBatch =>
    unfold baselineIngest
    split
    · exact .baseline ‹_›
    · exact quietIngest_ingests s .pollBatch
  | _ => exact quietIngest_ingests s _

/-- A daemon without a cursor. -/
def freshStart : Ingest := bootSource "A1" ⟨⟨.empty, []⟩, none⟩

/-- The first round of an observe run takes its baseline and acknowledges it. -/
def acknowledged : Ingest :=
  ((messageLoop (oneCall.runDaemon true (some "A1")) ()).eval baselineIngest freshStart).2

/-- What is left behind when the run is cut off after its second poll. -/
def cutOff : Ingest :=
  (baselineIngest (baselineIngest (baselineIngest (baselineIngest acknowledged .stopIsSet).2
    .takePendingEvents).2 .isPaused).2 .pollBatch).2

theorem cutOff_reached : ∃ p, Loop.Reaches (careful quietServer anything)
    (messageLoop (oneCall.runDaemon true (some "A1")))
    (messageLoop (oneCall.runDaemon true (some "A1")) (), freshStart) (p, cutOff) := by
  have hcall : ∀ (s : Ingest) (op : Op), Acknowledgeable s op →
      careful quietServer anything s op (baselineIngest s op).1 (baselineIngest s op).2 :=
    fun s op hop => ⟨hop, baselineIngest_ingests s op⟩
  have hother : ∀ (s : Ingest) (op : Op), op.setsCursor = false →
      careful quietServer anything s op (baselineIngest s op).1 (baselineIngest s op).2 :=
    fun s op hop => hcall s op fun h => absurd (hop.symm.trans h) Bool.false_ne_true
  have hround : (careful quietServer anything).Reaches
      (messageLoop (oneCall.runDaemon true (some "A1")) ()) freshStart
      (.done (.ok (.again ()))) acknowledged := by
    refine .head (.call (hother _ .stopIsSet rfl)) ?_
    refine .head (.call (hother _ .takePendingEvents rfl)) ?_
    refine .head (.call (hother _ .isPaused rfl)) ?_
    refine .head (.call (hother _ .pollBatch rfl)) ?_
    refine .head (.call (hother _ .currentRules rfl)) ?_
    refine .head (.call (hcall _ (.setCursor "A1" _) fun _ batch hbatch m hm => ?_)) ?_
    · obtain rfl := List.mem_singleton.1 hbatch
      cases hm
    · exact .head (.call (hother _ .sleep rfl)) .refl
  have hpoll : Loop.Reaches (careful quietServer anything)
      (messageLoop (oneCall.runDaemon true (some "A1")))
      (messageLoop (oneCall.runDaemon true (some "A1")) (), acknowledged) (_, cutOff) :=
    Loop.reaches_of_machine (.head (.call (hother _ .stopIsSet rfl))
      (.head (.call (hother _ .takePendingEvents rfl)) (.head (.call (hother _ .isPaused rfl))
        (.head (.call (hother _ .pollBatch rfl)) .refl))))
  exact ⟨_, (Loop.reaches_of_machine hround).trans (.head .again hpoll)⟩

/-- The live run that follows. -/
def liveRound : Except Exn (Next Unit Unit) × Ingest :=
  (messageLoop (oneCall.runDaemon false (some "A1")) ()).eval quietIngest (bootSource "A1" cutOff)

/-- It resumes from the cursor of the observe run, and takes `letter` in again. -/
theorem observed_mail_redelivered_cutOff :
    cutOff.world.db.getCursor "A1" = some (quietServer.state 0) ∧
      cutOff.world.db.hasProcessed letter.messageId = false ∧
      ∃ batch ∈ liveRound.2.world.batches.drop cutOff.world.batches.length,
        letter ∈ batch.messages := by
  obtain ⟨p, hobserve⟩ := cutOff_reached
  have hlive : Loop.Reaches (ingesting quietServer anything)
      (messageLoop (oneCall.runDaemon false (some "A1")))
      (messageLoop (oneCall.runDaemon false (some "A1")) (), bootSource "A1" cutOff)
      (.done liveRound.1, liveRound.2) :=
    Loop.reaches_of_machine (Prog.eval_reaches quietIngest_ingests _ _)
  have hunmarked : cutOff.world.db.hasProcessed letter.messageId = false := by decide +kernel
  have hbatch : (⟨[letter], some (quietServer.state 1)⟩ : MessageBatch) ∈ cutOff.world.batches := by
    decide +kernel
  have hsince : cutOff.since = some (quietServer.state 1) := by decide +kernel
  have hcursor : cutOff.world.db.getCursor "A1" = some (quietServer.state 0) := by decide +kernel
  exact ⟨hcursor, hunmarked, observed_mail_redelivered oneCall oneCall quietServer "A1"
    (.inl rfl) hobserve hlive _ hbatch letter
    (List.mem_singleton_self _) hunmarked
    1 1 hsince (by decide +kernel) (Nat.le_refl 1)⟩

/-- **An escalated letter is lost**: the observe run hands it on to nobody, leaves it without a row
and acknowledges it, and no live run that resumes is ever delivered it. -/
theorem escalated_letter_lost : ∃ c : Loop.Config sig Ingest Unit Unit,
    Loop.Reaches (ingesting quietServer anything) (messageLoop (oneCall.runDaemon true (some "A1")))
      (messageLoop (oneCall.runDaemon true (some "A1")) (), bootSource "A1" quietStart) c ∧
    (∃ batch ∈ c.2.world.batches, letter ∈ batch.messages) ∧
    c.2.world.db.hasProcessed letter.messageId = false ∧
    ∀ c', Loop.Reaches (ingesting quietServer anything)
        (messageLoop (oneCall.runDaemon false (some "A1")))
        (messageLoop (oneCall.runDaemon false (some "A1")) (), bootSource "A1" c.2) c' →
      ∀ batch ∈ c'.2.world.batches.drop c.2.world.batches.length, letter ∉ batch.messages := by
  have hcursor : observedRound.2.world.db.getCursor "A1" = some (quietServer.state 1) := by
    decide +kernel
  refine ⟨(.done observedRound.1, observedRound.2),
    Loop.reaches_of_machine (Prog.eval_reaches quietIngest_ingests _ _), by decide +kernel,
    by decide +kernel, fun c' hlive batch hbatch hletter => ?_⟩
  obtain ⟨r, hresuming⟩ := resumes hcursor hlive
  obtain ⟨k, hk, -, hcreated⟩ :=
    MailServer.mem_window.1 ((hresuming.delivered letter).2 ⟨batch, hbatch, hletter⟩)
  have hnothing : quietServer.created k = [] := if_neg (by omega)
  rw [hnothing] at hcreated
  cases hcreated

end Spork
