import Spork.Guarantees.Handling
import Spork.Daemon.Loop

/-!
# The durable cursor skips no mail

The persisted cursor says: everything up to here is done.  A checkpointed source reads a mail
server's log of changes from the position it was last given (`Ingests`), a process that dies is
restarted from the persisted cursor (`Loop.Lives`), and the loop writes a checkpoint only behind the
last message of its batch.

The invariant lives on positions of the server's log.  `Following base q p r` says that the cursor
stands at `q`, that the source has read up to `r`, and that everything from `base` to `p` has a row.
A round takes `p` to `r` message by message and only then moves `q`; a crash in between forgets `p`
and `r`, and what is left (`Resumable`) is what the next process starts from.
-/

set_option autoImplicit false

namespace Spork

open Effects Machine

/-! ## An honest server -/

/-- A mail server's log: the Inbox messages that appear with each change, and the name of the state
before each change. -/
structure MailServer where
  created : Nat → List NormalizedMessage
  state : Nat → String
  state_injective : Function.Injective state

/-- The messages created from position `i` up to position `j`. -/
def MailServer.window (server : MailServer) (i j : Nat) : List NormalizedMessage :=
  (List.range' i (j - i)).flatMap server.created

theorem MailServer.mem_window {server : MailServer} {i j : Nat} {m : NormalizedMessage} :
    m ∈ server.window i j ↔ ∃ k, i ≤ k ∧ k < j ∧ m ∈ server.created k := by
  rw [window, List.mem_flatMap]
  constructor
  · rintro ⟨k, hk, hm⟩
    rw [List.mem_range'_1] at hk
    exact ⟨k, hk.1, by omega, hm⟩
  · rintro ⟨k, hik, hkj, hm⟩
    exact ⟨k, List.mem_range'_1.2 ⟨hik, by omega⟩, hm⟩

/-- The world of a daemon that reads from a server: `since` is the state its source has read up to,
which is lost with the process. -/
structure Ingest where
  world : World
  since : Option String

/-- How a call comes back to such a daemon.  Without a state the source only takes a baseline; with
one it returns everything created since, with or without a checkpoint for it. -/
inductive Ingests (server : MailServer) (A : Allowed) :
    Ingest → (op : Op) → Except Exn op.Ret → Ingest → Prop where
  | baseline {s : Ingest} {q : Nat} (hs : s.since = none) :
      Ingests server A s .pollBatch (.ok ⟨[], some (server.state q)⟩)
        ⟨s.world.record .pollBatch (.ok ⟨[], some (server.state q)⟩) s.world.db,
          some (server.state q)⟩
  | changes {s : Ingest} {p r : Nat} {checkpoint : Option String}
      (hs : s.since = some (server.state p)) (hpr : p ≤ r)
      (hc : checkpoint = none ∨ checkpoint = some (server.state r)) :
      Ingests server A s .pollBatch (.ok ⟨server.window p r, checkpoint⟩)
        ⟨s.world.record .pollBatch (.ok ⟨server.window p r, checkpoint⟩) s.world.db,
          some (server.state r)⟩
  | pollRaises {s : Ingest} {e : Exn} :
      Ingests server A s .pollBatch (.error e)
        ⟨s.world.record .pollBatch (.error e) s.world.db, s.since⟩
  | other {s : Ingest} {op : Op} {r : Except Exn op.Ret} {w : World} (hop : op ≠ .pollBatch)
      (h : Responds A s.world op r w) : Ingests server A s op r ⟨w, s.since⟩

/-- The machine of such a daemon. -/
def ingesting (server : MailServer) (A : Allowed) : Machine sig Ingest :=
  fun s op r s' => Ingests server A s op r s'

/-- The batch an event returned, if it is a poll that did. -/
def Event.batch : Event → Option MessageBatch
  | ⟨.pollBatch, .ok batch⟩ => some batch
  | _ => none

/-- Every batch polled so far. -/
def World.batches (w : World) : List MessageBatch := w.trace.filterMap Event.batch

/-- What starting a process does: the source resumes from the persisted cursor. -/
def bootSource (accountId : String) (s : Ingest) : Ingest :=
  ⟨s.world, s.world.db.getCursor accountId⟩

/-! ## The invariant -/

/-- Every message created from `i` up to `j` has a row. -/
def Covered (server : MailServer) (db : StateDB) (i j : Nat) : Prop :=
  ∀ m ∈ server.window i j, db.hasProcessed m.messageId = true

/-- A batch is empty, or what was created from some position not before `base` up to the one its
checkpoint names. -/
def FromWindow (server : MailServer) (base : Nat) (batch : MessageBatch) : Prop :=
  batch.messages = [] ∨ ∃ i j, base ≤ i ∧ batch.messages = server.window i j ∧
    ∀ c, batch.checkpoint = some c → c = server.state j

/-- No cursor yet: nothing but baselines has been polled. -/
structure Fresh (accountId : String) (since : Option String) (s : Ingest) : Prop where
  cursor : s.world.db.getCursor accountId = none
  since : s.since = since
  batches : ∀ b ∈ s.world.batches, b.messages = []

/-- The cursor stands at `q`, the source has read up to `r`, and everything from `base` to `p` has
a row. -/
structure Following (server : MailServer) (accountId : String) (base q p r : Nat) (s : Ingest) :
    Prop where
  cursor : s.world.db.getCursor accountId = some (server.state q)
  since : s.since = some (server.state r)
  base_le : base ≤ q
  le : q ≤ p
  covered : Covered server s.world.db base p
  batches : ∀ b ∈ s.world.batches, FromWindow server base b

/-- The invariant at the head of a round: everything read is done. -/
def CaughtUp (server : MailServer) (accountId : String) (s : Ingest) : Prop :=
  Fresh accountId none s ∨ ∃ base q p, Following server accountId base q p p s

/-- What survives a crash: everything up to the cursor is done. -/
def Resumable (server : MailServer) (accountId : String) (s : Ingest) : Prop :=
  (s.world.db.getCursor accountId = none ∧ ∀ b ∈ s.world.batches, b.messages = []) ∨
    ∃ base q, s.world.db.getCursor accountId = some (server.state q) ∧ base ≤ q ∧
      Covered server s.world.db base q ∧ ∀ b ∈ s.world.batches, FromWindow server base b

section Invariant

variable {server : MailServer} {accountId : String} {base q p r : Nat} {since : Option String}
  {s s' : Ingest} {db db' : StateDB}

theorem Covered.mono {i j i' j' : Nat} (h : Covered server db i j) (hi : i ≤ i') (hj : j' ≤ j) :
    Covered server db i' j' := by
  intro m hm
  obtain ⟨k, hik, hkj, hk⟩ := MailServer.mem_window.1 hm
  exact h m (MailServer.mem_window.2 ⟨k, by omega, by omega, hk⟩)

theorem Covered.grows {i j : Nat} (h : Covered server db i j) (hdb : db.Grows db') :
    Covered server db' i j := fun m hm => hdb.hasProcessed _ (h m hm)

/-- Two stretches that meet are one. -/
theorem Covered.append {i j k : Nat} (h : Covered server db i j) (h' : Covered server db j k) :
    Covered server db i k := by
  intro m hm
  obtain ⟨n, hin, hnk, hn⟩ := MailServer.mem_window.1 hm
  by_cases hnj : n < j
  · exact h m (MailServer.mem_window.2 ⟨n, hin, hnj, hn⟩)
  · exact h' m (MailServer.mem_window.2 ⟨n, by omega, hnk, hn⟩)

theorem Fresh.resumable (h : Fresh accountId since s) : Resumable server accountId s :=
  .inl ⟨h.cursor, h.batches⟩

theorem Following.resumable (h : Following server accountId base q p r s) :
    Resumable server accountId s :=
  .inr ⟨base, q, h.cursor, h.base_le, h.covered.mono (Nat.le_refl _) h.le, h.batches⟩

theorem CaughtUp.resumable (h : CaughtUp server accountId s) : Resumable server accountId s := by
  rcases h with h | ⟨base, q, p, h⟩
  · exact h.resumable
  · exact h.resumable

/-- A new process starts caught up with the cursor it finds. -/
theorem Resumable.boot (h : Resumable server accountId s) :
    CaughtUp server accountId (bootSource accountId s) := by
  rcases h with ⟨hc, hb⟩ | ⟨base, q, hc, hle, hcov, hb⟩
  · exact .inl ⟨hc, hc, hb⟩
  · exact .inr ⟨base, q, q, hc, hc, hle, Nat.le_refl _, hcov, hb⟩

/-! ### Calls that touch neither the source nor the cursor -/

/-- Neither a poll nor a cursor write. -/
def Op.Neutral (op : Op) : Prop := op ≠ .pollBatch ∧ op.setsCursor = false

/-- Only a poll brings a batch. -/
theorem Ingests.batches_of_ne {A : Allowed} {op : Op} {out : Except Exn op.Ret}
    (h : Ingests server A s op out s') (hop : op ≠ .pollBatch) :
    s'.world.batches = s.world.batches := by
  cases h with
  | baseline hs => exact absurd rfl hop
  | changes hs hpr hc => exact absurd rfl hop
  | pollRaises => exact absurd rfl hop
  | other _ h =>
    rw [World.batches, World.batches, h.trace, List.filterMap_append]
    have hnone : Event.batch ⟨op, out⟩ = none := by
      cases op <;> first | exact absurd rfl hop | rfl
    simp [hnone]

/-- What a neutral call leaves alone. -/
theorem Ingests.neutral {A : Allowed} {op : Op} {out : Except Exn op.Ret}
    (h : Ingests server A s op out s') (accountId : String) (hop : op.Neutral) :
    s'.since = s.since ∧ s'.world.db.getCursor accountId = s.world.db.getCursor accountId ∧
      s'.world.batches = s.world.batches ∧ s.world.db.Grows s'.world.db := by
  have hbatches := h.batches_of_ne hop.1
  cases h with
  | baseline hs => exact absurd rfl hop.1
  | changes hs hpr hc => exact absurd rfl hop.1
  | pollRaises => exact absurd rfl hop.1
  | other hne h =>
    exact ⟨rfl, by rw [StateDB.getCursor, h.pushCursor hop.2]; rfl, hbatches, h.grows⟩

theorem Fresh.neutral {A : Allowed} {op : Op} {out : Except Exn op.Ret}
    (hs : Fresh accountId since s) (h : Ingests server A s op out s') (hop : op.Neutral) :
    Fresh accountId since s' := by
  obtain ⟨hsince, hcursor, hbatches, _⟩ := h.neutral accountId hop
  exact ⟨hcursor.trans hs.cursor, hsince.trans hs.since, hbatches ▸ hs.batches⟩

theorem Following.neutral {A : Allowed} {op : Op} {out : Except Exn op.Ret}
    (hs : Following server accountId base q p r s) (h : Ingests server A s op out s')
    (hop : op.Neutral) : Following server accountId base q p r s' := by
  obtain ⟨hsince, hcursor, hbatches, hgrows⟩ := h.neutral accountId hop
  exact ⟨hcursor.trans hs.cursor, hsince.trans hs.since, hs.base_le, hs.le,
    hs.covered.grows hgrows, hbatches ▸ hs.batches⟩

theorem CaughtUp.neutral {A : Allowed} {op : Op} {out : Except Exn op.Ret}
    (hs : CaughtUp server accountId s) (h : Ingests server A s op out s') (hop : op.Neutral) :
    CaughtUp server accountId s' := by
  rcases hs with hs | ⟨base, q, p, hs⟩
  · exact .inl (hs.neutral h hop)
  · exact .inr ⟨base, q, p, hs.neutral h hop⟩

end Invariant

/-! ## One round -/

section Round

variable {server : MailServer} {A : Allowed} {accountId : String} {base q p r : Nat}
  {config : LoopConfig} {s : Ingest}

theorem supporting_neutral {op : Op} (h : op.Supporting) : op.Neutral := by
  cases op <;> first | exact h.elim | exact ⟨fun h => (by cases h), rfl⟩

theorem AskingCall.neutral {op : Op} (h : AskingCall op) : op.Neutral := by
  cases h with
  | supporting h => exact supporting_neutral h
  | asksModel h => cases op <;> first | exact h.elim | exact ⟨fun h => (by cases h), rfl⟩
  | record => exact ⟨fun h => (by cases h), rfl⟩

theorem HandlingCall.neutral {message : NormalizedMessage} {op : Op}
    (h : HandlingCall message op) : op.Neutral := by
  cases h with
  | settling h =>
    cases h with
    | supporting h => exact supporting_neutral h
    | _ => exact ⟨fun h => (by cases h), rfl⟩
  | asking h => exact h.neutral
  | gate => exact ⟨fun h => (by cases h), rfl⟩

theorem only_neutral_call {op : Op} (h : op.Neutral) : (call op).Only Op.Neutral :=
  Prog.only_perform.2 h

theorem housekeeping_neutral {op : Op} (h : op.Housekeeping) : op.Neutral := by
  cases h with
  | supporting h => exact supporting_neutral h
  | _ => exact ⟨fun h => (by cases h), rfl⟩

theorem ProcessingCall.neutral {message : NormalizedMessage} {op : Op}
    (h : ProcessingCall message op) : op.Neutral := by
  cases h with
  | settling h => exact (HandlingCall.settling h).neutral
  | asking h => exact h.neutral

theorem processOne_only (hdeps : config.deps.Wired) (rules : List Rule)
    (message : NormalizedMessage) : (processOne config rules message).Only Op.Neutral := by
  have hprocess : (processMessage config.deps.tier1 false message rules).Only Op.Neutral :=
    ((handleMessage_only hdeps rules).mono fun _ => HandlingCall.neutral).of_bind
  refine hprocess.bind fun verdict => .ite ?_ trivial
  refine ((escalateMessageOrQuarantine_only hdeps.escalation).mono fun _ =>
    ProcessingCall.neutral).bind fun _ => ?_
  exact (checkDailyBudgetAlert_only hdeps.tier1.alert).mono fun _ => housekeeping_neutral

theorem processBatch_only (hdeps : config.deps.Wired) (rules : List Rule) :
    ∀ messages : List NormalizedMessage, (processBatch config rules messages).Only Op.Neutral
  | [] => trivial
  | message :: messages => by
    refine (only_neutral_call ⟨fun h => (by cases h), rfl⟩).bind fun stop => .ite trivial ?_
    refine (processOne_only hdeps rules message).bind fun _ => ?_
    exact processBatch_only hdeps rules messages

/-- What a message has when it has been processed, and what nothing takes from it, all messages of
a batch have when the batch comes to its end. -/
theorem processBatch_each {P : NormalizedMessage → World → Prop} (rules : List Rule)
    (hone : ∀ m w, (machine A).wp (fun _ => True) (processOne config rules m)
      (fun r w' => r.isOk = true → P m w') w)
    (hkeeps : ∀ m messages, (machine A).Keeps (P m) (processBatch config rules messages)) :
    ∀ (messages : List NormalizedMessage) (w : World),
      (machine A).wp (fun _ => True) (processBatch config rules messages)
        (fun out w' => out = .ok true → ∀ m ∈ messages, P m w') w
  | [], _ => ⟨trivial, fun _ m hm => by cases hm⟩
  | message :: messages, w => by
    refine wp_call_bind trivial (fun stop db' _ _ => ?_)
      (fun e _ _ => ⟨trivial, fun h => by cases h⟩)
    cases stop with
    | true => exact ⟨trivial, fun h => by cases h⟩
    | false =>
      rw [if_neg Bool.false_ne_true]
      refine wp_bind.2 (wp_mono (fun _ h => h) (fun out w' _ hout => ?_) (hone message _))
      cases out with
      | error e => exact ⟨trivial, fun h => by cases h⟩
      | ok u =>
        -- the first message keeps it while the others get it
        have hrest := wp_and (processBatch_each rules hone hkeeps messages w')
          (hkeeps message messages w' (hout rfl))
        have hkept : (machine A).wp (fun w => True ∧ P message w)
            (processBatch config rules messages) (fun out w' => out = .ok true →
              ∀ m ∈ message :: messages, P m w') w' := by
          refine wp_mono (fun _ h => h) (fun out w'' hw'' hq hok m hm => ?_) hrest
          rcases List.mem_cons.1 hm with rfl | hm
          · exact hw''.2
          · exact hq.1 hok m hm
        exact wp_mono (fun _ _ => trivial) (fun _ _ _ h => h) hkept

/-- A batch that comes to its end has all its rows. -/
theorem processBatch_marks (hobserve : config.observe = false) (rules : List Rule) :
    ∀ (messages : List NormalizedMessage) (w : World),
      (machine A).wp (fun _ => True) (processBatch config rules messages)
        (fun out w' => out = .ok true → ∀ m ∈ messages, w'.db.hasProcessed m.messageId = true) w :=
  processBatch_each rules
    (fun m => by
      rw [processOne_eq config hobserve]
      exact Marks.bind_left (handleMessage_marks config.deps rules m))
    fun _ _ => keeps_hasProcessed _

theorem ingesting_keeps {K : Ingest → Prop} {α : Type} {prog : Proc α}
    (hK : ∀ (s : Ingest) (op : Op) (out : Except Exn op.Ret) (s' : Ingest), op.Neutral → K s →
      Ingests server A s op out s' → K s') (hp : prog.Only Op.Neutral) :
    (ingesting server A).Keeps K prog := keeps_of_only hK hp

/-- Processing a batch leaves the cursor where it is, and a batch that comes to its end has been
done up to the position the source has read to. -/
theorem processBatch_following (hdeps : config.deps.Wired) (hobserve : config.observe = false)
    (rules : List Rule) (hs : Following server accountId base q p r s) :
    (ingesting server A).wp (Following server accountId base q p r)
      (processBatch config rules (server.window p r))
      (fun out s' => out = .ok true → Covered server s'.world.db p r) s := by
  have honly := processBatch_only hdeps rules (server.window p r)
  have hmarks := wp_comap (N := ingesting server A) (f := Ingest.world)
    (fun s op out s' hop h => by
      cases h with
      | baseline => exact absurd rfl hop.1
      | changes => exact absurd rfl hop.1
      | pollRaises => exact absurd rfl hop.1
      | other _ h => exact h)
    honly (processBatch_marks (A := A) hobserve rules (server.window p r) s.world)
  have hkeeps : (ingesting server A).Keeps (Following server accountId base q p r) _ :=
    ingesting_keeps
      (fun _ _ _ _ hop hs h => hs.neutral h hop) honly
  exact wp_mono (fun _ h => h.2) (fun _ _ _ h => h.1) (wp_and hmarks (hkeeps s hs))

/-- A window without messages is done. -/
theorem covered_of_window_nil {db : StateDB} (h : server.window p r = []) :
    Covered server db p r := fun m hm => by rw [h] at hm; cases hm

/-- How a cursor write comes back. -/
theorem Ingests.setCursor {state : String} {out : Except Exn Unit} {s' : Ingest}
    (h : Ingests server A s (.setCursor accountId state) out s') :
    (out = .ok () ∧ s' = ⟨s.world.record (.setCursor accountId state) (.ok ())
        (s.world.db.setCursor accountId state), s.since⟩) ∨
      ∃ e, out = .error e ∧
        s' = ⟨s.world.record (.setCursor accountId state) (.error e) s.world.db, s.since⟩ := by
  cases h with
  | other hop h =>
    rcases Responds.inv h with ⟨u, db', rfl, hg, rfl⟩ | ⟨e, rfl, _, rfl⟩
    · exact .inl ⟨rfl, by rw [← gives_setCursor.1 hg]⟩
    · exact .inr ⟨e, rfl, rfl⟩

/-- The cursor write at the end of a round. -/
theorem setCursor_ingesting {I : Ingest → Prop} {Q : Except Exn Unit → Ingest → Prop}
    {state : String} (hI : I s)
    (hok : I ⟨s.world.record (.setCursor accountId state) (.ok ())
        (s.world.db.setCursor accountId state), s.since⟩ ∧
      Q (.ok ()) ⟨s.world.record (.setCursor accountId state) (.ok ())
        (s.world.db.setCursor accountId state), s.since⟩)
    (herr : ∀ e, I ⟨s.world.record (.setCursor accountId state) (.error e) s.world.db, s.since⟩ ∧
      Q (.error e) ⟨s.world.record (.setCursor accountId state) (.error e) s.world.db, s.since⟩) :
    (ingesting server A).wp I (call (.setCursor accountId state)) Q s := by
  refine Machine.wp_perform hI fun out s' h => ?_
  rcases Ingests.setCursor h with ⟨rfl, rfl⟩ | ⟨e, rfl, rfl⟩
  · exact hok
  · exact herr e

theorem batches_setCursor (w : World) {state : String} {out : Except Exn Unit} {db : StateDB} :
    (w.record (.setCursor accountId state) out db).batches = w.batches := by
  simp [World.batches, World.record, Event.batch]

theorem batches_pollBatch (w : World) {out : Except Exn MessageBatch} {db : StateDB} :
    (w.record .pollBatch out db).batches = w.batches ++ out.toOption.toList := by
  cases out with
  | error e => simp [World.batches, World.record, Event.batch, Except.toOption]
  | ok batch => simp [World.batches, World.record, Event.batch, Except.toOption]

/-- Everything that was read is done: the checkpoint, if there is one, may become the cursor. -/
theorem acknowledge_following {checkpoint : Option String}
    (haccount : config.cursorAccountId = some accountId)
    (hc : checkpoint = none ∨ checkpoint = some (server.state r))
    (hs : Following server accountId base q r r s) :
    (ingesting server A).wp (Resumable server accountId) (acknowledge config checkpoint)
      (fun out s' => out = .ok () → CaughtUp server accountId s') s := by
  rcases hc with rfl | rfl
  · exact ⟨hs.resumable, fun _ => .inr ⟨base, q, r, hs⟩⟩
  · rw [acknowledge_some haccount]
    refine setCursor_ingesting hs.resumable ?_ fun e => ?_
    · have hs' : Following server accountId base r r r
          ⟨s.world.record (.setCursor accountId (server.state r)) (.ok ())
            (s.world.db.setCursor accountId (server.state r)), s.since⟩ :=
        ⟨by simp, hs.since, hs.base_le.trans hs.le, Nat.le_refl _, hs.covered,
          (batches_setCursor s.world).symm ▸ hs.batches⟩
      exact ⟨hs'.resumable, fun _ => .inr ⟨base, r, r, hs'⟩⟩
    · have hs' : Following server accountId base q r r
          ⟨s.world.record (.setCursor accountId (server.state r)) (.error e) s.world.db,
            s.since⟩ :=
        ⟨hs.cursor, hs.since, hs.base_le, hs.le, hs.covered,
          (batches_setCursor s.world).symm ▸ hs.batches⟩
      exact ⟨hs'.resumable, fun h => by cases h⟩

/-- The first cursor of an account is the baseline it was started with. -/
theorem acknowledge_fresh (haccount : config.cursorAccountId = some accountId)
    (hs : Fresh accountId (some (server.state q)) s) :
    (ingesting server A).wp (Resumable server accountId)
      (acknowledge config (some (server.state q)))
      (fun out s' => out = .ok () → CaughtUp server accountId s') s := by
  rw [acknowledge_some haccount]
  refine setCursor_ingesting hs.resumable ?_ fun e => ?_
  · have hs' : Following server accountId q q q q
        ⟨s.world.record (.setCursor accountId (server.state q)) (.ok ())
          (s.world.db.setCursor accountId (server.state q)), s.since⟩ := by
      refine ⟨by simp, hs.since, Nat.le_refl _, Nat.le_refl _, fun m hm => ?_, fun b hb => ?_⟩
      · obtain ⟨k, hqk, hkq, _⟩ := MailServer.mem_window.1 hm
        omega
      · rw [batches_setCursor] at hb
        exact .inl (hs.batches b hb)
    exact ⟨hs'.resumable, fun _ => .inr ⟨q, q, q, hs'⟩⟩
  · have hs' : Fresh accountId (some (server.state q))
        ⟨s.world.record (.setCursor accountId (server.state q)) (.error e) s.world.db,
          s.since⟩ :=
      ⟨hs.cursor, hs.since, (batches_setCursor s.world).symm ▸ hs.batches⟩
    exact ⟨hs'.resumable, fun h => by cases h⟩

/-- An empty batch is acknowledged, and the daemon sleeps on it. -/
theorem idle_caughtUp {checkpoint : Option String}
    (hack : (ingesting server A).wp (Resumable server accountId) (acknowledge config checkpoint)
      (fun out s' => out = .ok () → CaughtUp server accountId s') s) :
    (ingesting server A).wp (Resumable server accountId) (idleRound config checkpoint)
      (Loop.Continues fun _ => CaughtUp server accountId) s := by
  refine wp_bind.2 (wp_mono (fun _ h => h) (fun out s' hs' hout => ?_) hack)
  cases out with
  | error e => exact ⟨hs', fun _ h => by cases h⟩
  | ok u =>
    refine Keeps.wp_bind (ingesting_keeps (fun _ _ _ _ hop hs h => hs.neutral h hop)
      (only_neutral_call ⟨fun h => (by cases h), rfl⟩)) (fun _ => CaughtUp.resumable) (hout rfl)
      (fun _ s'' hs'' => ⟨hs''.resumable, fun _ _ => hs''⟩) fun _ _ _ _ h => by cases h

/-- A batch of messages is processed, and acknowledged behind its last one. -/
theorem busy_caughtUp {checkpoint : Option String} (hdeps : config.deps.Wired)
    (hobserve : config.observe = false) (haccount : config.cursorAccountId = some accountId)
    (hc : checkpoint = none ∨ checkpoint = some (server.state r)) (hpr : p ≤ r) (rules : List Rule)
    (hs : Following server accountId base q p r s) :
    (ingesting server A).wp (Resumable server accountId)
      (busyRound config rules ⟨server.window p r, checkpoint⟩)
      (Loop.Continues fun _ => CaughtUp server accountId) s := by
  refine wp_bind.2 (wp_mono (fun _ h => h.resumable) (fun out s' hs' hout => ?_)
    (processBatch_following hdeps hobserve rules hs))
  cases out with
  | error e => exact ⟨hs'.resumable, fun _ h => by cases h⟩
  | ok finished =>
    cases finished with
    | false => exact ⟨hs'.resumable, fun _ h => by cases h⟩
    | true =>
      have hdone : Following server accountId base q r r s' :=
        { hs' with le := hs'.le.trans hpr, covered := hs'.covered.append (hout rfl) }
      refine wp_bind.2 (wp_mono (fun _ h => h) (fun out s'' hs'' hout => ?_)
        (acknowledge_following haccount hc hdone))
      cases out with
      | error e => exact ⟨hs'', fun _ h => by cases h⟩
      | ok u => exact ⟨hs'', fun _ _ => hout rfl⟩

/-- The first poll of a source without a cursor brings nothing. -/
theorem CaughtUp.baseline (hs : CaughtUp server accountId s) (hsince : s.since = none) :
    Fresh accountId (some (server.state q))
      ⟨s.world.record .pollBatch (.ok ⟨[], some (server.state q)⟩) s.world.db,
        some (server.state q)⟩ := by
  rcases hs with hs | ⟨base, q', p, hs⟩
  · refine ⟨hs.cursor, rfl, fun b hb => ?_⟩
    rw [batches_pollBatch, List.mem_append] at hb
    rcases hb with hb | hb
    · exact hs.batches b hb
    · rw [List.mem_singleton.1 hb]
  · rw [hs.since] at hsince
    cases hsince

/-- A later one brings what was created since the one before. -/
theorem CaughtUp.changes {checkpoint : Option String} (hs : CaughtUp server accountId s)
    (hsince : s.since = some (server.state p))
    (hc : checkpoint = none ∨ checkpoint = some (server.state r)) :
    ∃ base q, Following server accountId base q p r
      ⟨s.world.record .pollBatch (.ok ⟨server.window p r, checkpoint⟩) s.world.db,
        some (server.state r)⟩ := by
  rcases hs with hs | ⟨base, q, p', hs⟩
  · rw [hs.since] at hsince
    cases hsince
  · rw [hs.since, Option.some_inj] at hsince
    obtain rfl := server.state_injective hsince
    refine ⟨base, q, hs.cursor, rfl, hs.base_le, hs.le, hs.covered, fun b hb => ?_⟩
    rw [batches_pollBatch, List.mem_append] at hb
    rcases hb with hb | hb
    · exact hs.batches b hb
    · rw [List.mem_singleton.1 hb]
      refine .inr ⟨p', r, hs.base_le.trans hs.le, rfl, fun c hcheck => ?_⟩
      rcases hc with rfl | rfl
      · cases hcheck
      · exact (Option.some_inj.1 hcheck).symm

/-- A poll that raises leaves the cursor and the batches as they are. -/
theorem Resumable.poll_raises {e : Exn} (hs : Resumable server accountId s) :
    Resumable server accountId ⟨s.world.record .pollBatch (.error e) s.world.db, s.since⟩ := by
  have hbatches : (s.world.record .pollBatch (.error e) s.world.db).batches = s.world.batches :=
    (batches_pollBatch s.world).trans (List.append_nil _)
  rcases hs with ⟨hc, hb⟩ | ⟨base, q, hc, hle, hcov, hb⟩
  · exact .inl ⟨hc, hbatches ▸ hb⟩
  · exact .inr ⟨base, q, hc, hle, hcov, hbatches ▸ hb⟩

theorem pollRound_caughtUp (hdeps : config.deps.Wired) (hobserve : config.observe = false)
    (hcheckpointed : config.checkpointed = true)
    (haccount : config.cursorAccountId = some accountId) (hs : CaughtUp server accountId s) :
    (ingesting server A).wp (Resumable server accountId) (pollRound config)
      (Loop.Continues fun _ => CaughtUp server accountId) s := by
  have hrules : (call .currentRules : Proc (List Rule)).Only Op.Neutral :=
    only_neutral_call ⟨fun h => (by cases h), rfl⟩
  rw [pollRound, nextBatch, if_pos hcheckpointed]
  refine Machine.wp_perform_bind hs.resumable (fun batch s' h => ?_) (fun e s' h => ?_)
  · cases h with
    | @baseline q hsince =>
      refine Keeps.wp_bind (ingesting_keeps (fun _ _ _ _ hop hs h => hs.neutral h hop) hrules)
        (fun _ => Fresh.resumable) (hs.baseline hsince) (fun rules s'' hs'' => ?_)
        fun _ _ _ _ h => by cases h
      rw [if_pos rfl]
      exact idle_caughtUp (acknowledge_fresh haccount hs'')
    | @changes p r checkpoint hsince hpr hc =>
      obtain ⟨base, q, hs'⟩ := hs.changes hsince hc
      refine Keeps.wp_bind (ingesting_keeps (fun _ _ _ _ hop hs h => hs.neutral h hop) hrules)
        (fun _ => Following.resumable) hs' (fun rules s'' hs'' => ?_) fun _ _ _ _ h => by cases h
      split
      · rename_i hnil
        have hdone : Following server accountId base q r r s'' :=
          { hs'' with
            le := hs''.le.trans hpr
            covered := hs''.covered.append (covered_of_window_nil hnil) }
        exact idle_caughtUp (acknowledge_following haccount hc hdone)
      · exact busy_caughtUp hdeps hobserve haccount hc hpr rules hs''
    | other hop h => exact absurd rfl hop
  · cases h with
    | pollRaises => exact ⟨hs.resumable.poll_raises, fun _ h => by cases h⟩
    | other hop h => exact absurd rfl hop

/-- A round that starts caught up ends caught up, and can be resumed from anywhere in between. -/
theorem messageLoop_caughtUp (hdeps : config.deps.Wired) (hobserve : config.observe = false)
    (hcheckpointed : config.checkpointed = true)
    (haccount : config.cursorAccountId = some accountId) (hs : CaughtUp server accountId s) :
    (ingesting server A).wp (Resumable server accountId) (messageLoop config ())
      (Loop.Continues fun _ => CaughtUp server accountId) s := by
  have hneutral : ∀ {α β : Type} {prog : Proc α} {f : α → Proc (Next Unit β)}
      {Q : Except Exn (Next Unit β) → Ingest → Prop} {s : Ingest}, prog.Only Op.Neutral →
      CaughtUp server accountId s → (∀ a s', CaughtUp server accountId s' →
        (ingesting server A).wp (Resumable server accountId) (f a) Q s') →
      (∀ e s', Q (.error e) s') →
      (ingesting server A).wp (Resumable server accountId) (prog >>= f) Q s :=
    fun hp hs hf he => Keeps.wp_bind (ingesting_keeps (fun _ _ _ _ hop hs h => hs.neutral h hop) hp)
      (fun _ => CaughtUp.resumable) hs hf fun e s' _ => he e s'
  refine hneutral (only_neutral_call ⟨fun h => (by cases h), rfl⟩) hs (fun stop s hs => ?_)
    fun _ _ _ h => by cases h
  cases stop with
  | true => exact ⟨hs.resumable, fun _ h => by cases h⟩
  | false =>
    rw [if_neg Bool.false_ne_true]
    refine hneutral (only_neutral_call ⟨fun h => (by cases h), rfl⟩) hs (fun pending s hs => ?_)
      fun _ _ _ h => by cases h
    refine hneutral ((drainEvents_only pending).mono fun _ => housekeeping_neutral) hs
      (fun _ s hs => ?_) fun _ _ _ h => by cases h
    refine hneutral (only_neutral_call ⟨fun h => (by cases h), rfl⟩) hs (fun paused s hs => ?_)
      fun _ _ _ h => by cases h
    cases paused with
    | false => exact pollRound_caughtUp hdeps hobserve hcheckpointed haccount hs
    | true =>
      exact hneutral (only_neutral_call ⟨fun h => (by cases h), rfl⟩) hs
        (fun _ s hs => ⟨hs.resumable, fun _ _ => hs⟩) fun _ _ _ h => by cases h

/-! ### An interrupted round -/

/-- The cursor and the batches of a configuration. -/
def Standing (accountId : String) (cursor : Option String) (batches : List MessageBatch)
    (s : Ingest) : Prop :=
  s.world.db.getCursor accountId = cursor ∧ s.world.batches = batches

theorem keeps_standing {α : Type} {prog : Proc α} {cursor : Option String}
    {batches : List MessageBatch} (hp : prog.Only Op.Neutral) :
    (ingesting server A).Keeps (Standing accountId cursor batches) prog :=
  ingesting_keeps (fun _ _ _ _ hop hs h =>
    ⟨(h.neutral accountId hop).2.1.trans hs.1, (h.neutral accountId hop).2.2.1.trans hs.2⟩) hp

/-- What a round that does not go on has done to the cursor. -/
def Interrupted (accountId : String) (s : Ingest) (out : Except Exn (Next Unit Unit))
    (s' : Ingest) : Prop :=
  (∃ batch ∈ s'.world.batches.drop s.world.batches.length, batch.messages ≠ []) →
    out ≠ .ok (.again ()) → s'.world.db.getCursor accountId = s.world.db.getCursor accountId

/-- As long as the cursor stands, any way out of the round will do. -/
theorem Standing.interrupted {batches : List MessageBatch} {s' : Ingest}
    {out : Except Exn (Next Unit Unit)}
    (h : Standing accountId (s.world.db.getCursor accountId) batches s') :
    Interrupted accountId s out s' := fun _ _ => h.1

/-- Whatever the poll returned, the cursor stands. -/
theorem Ingests.poll (accountId : String) {s' : Ingest} {out : Except Exn MessageBatch}
    (h : Ingests server A s .pollBatch out s') :
    Standing accountId (s.world.db.getCursor accountId) (s.world.batches ++ out.toOption.toList)
      s' := by
  cases h with
  | baseline hs => exact ⟨rfl, batches_pollBatch s.world⟩
  | changes hs hpr hc => exact ⟨rfl, batches_pollBatch s.world⟩
  | pollRaises => exact ⟨rfl, batches_pollBatch s.world⟩
  | other hop h => exact absurd rfl hop

theorem idleRound_interrupted {checkpoint : Option String} {batch : MessageBatch} {s' : Ingest}
    (hnil : batch.messages = []) (hs : s'.world.batches = s.world.batches ++ [batch]) :
    (ingesting server A).wp (fun _ => True) (idleRound config checkpoint)
      (Interrupted accountId s) s' := by
  have honly : (idleRound config checkpoint).Only fun op => op ≠ Op.pollBatch := by
    refine Prog.Only.bind ?_ fun _ => ?_
    · unfold acknowledge
      split
      · exact Prog.only_perform.2 fun h => by cases h
      · trivial
    · exact Prog.Only.bind (Prog.only_perform.2 fun h => by cases h) fun _ => trivial
  have hkeeps : (ingesting server A).Keeps
      (fun s' => s'.world.batches = s.world.batches ++ [batch]) (idleRound config checkpoint) :=
    keeps_of_only (fun s₁ op out s₂ hop hs₁ h => (h.batches_of_ne hop).trans hs₁) honly
  refine wp_mono (fun _ _ => trivial) (fun out s'' hs'' _ => ?_) (hkeeps s' hs)
  rintro ⟨b, hb, hne⟩ _
  rw [hs'', List.drop_left, List.mem_singleton] at hb
  exact absurd (hb ▸ hnil) hne

theorem busyRound_interrupted (hdeps : config.deps.Wired)
    (rules : List Rule) {batch : MessageBatch} {batches : List MessageBatch} {s' : Ingest}
    (hs : Standing accountId (s.world.db.getCursor accountId) batches s') :
    (ingesting server A).wp (fun _ => True) (busyRound config rules batch)
      (Interrupted accountId s) s' := by
  refine Keeps.wp_bind (keeps_standing (processBatch_only hdeps rules batch.messages))
    (fun _ _ => trivial) hs (fun finished s'' hs'' => ?_) fun _ _ hs'' => hs''.interrupted
  cases finished with
  | false => exact ⟨trivial, hs''.interrupted⟩
  | true =>
    rw [if_pos rfl]
    unfold acknowledge
    split
    · -- the write is the last call: once it returns, the round goes on
      refine Machine.wp_perform_bind trivial (fun _ _ _ => ⟨trivial, fun _ h => absurd rfl h⟩)
        (fun e s₃ h => ⟨trivial, ?_⟩)
      have hs₃ : s₃.world.db = s''.world.db := by
        cases h with
        | other hop h =>
          rcases Responds.inv h with ⟨_, _, hout, _⟩ | ⟨_, _, _, hw⟩
          · cases hout
          · rw [hw]
            rfl
      exact fun _ _ => (congrArg (fun db => db.getCursor accountId) hs₃).trans hs''.1
    · exact ⟨trivial, fun _ h => absurd rfl h⟩

/-- A round over messages that ends in a stop or in an exception leaves the cursor alone. -/
theorem messageLoop_interrupted (accountId : String) (hdeps : config.deps.Wired)
    (hcheckpointed : config.checkpointed = true) (s : Ingest) :
    (ingesting server A).wp (fun _ => True) (messageLoop config ())
    (Interrupted accountId s) s := by
  have hneutral : ∀ {α : Type} {prog : Proc α} {f : α → Proc (Next Unit Unit)} {s' : Ingest}
      {batches : List MessageBatch}, prog.Only Op.Neutral →
      Standing accountId (s.world.db.getCursor accountId) batches s' →
      (∀ a s'', Standing accountId (s.world.db.getCursor accountId) batches s'' →
        (ingesting server A).wp (fun _ => True) (f a) (Interrupted accountId s) s'') →
      (ingesting server A).wp (fun _ => True) (prog >>= f) (Interrupted accountId s) s' :=
    fun hp hs hf => Keeps.wp_bind (keeps_standing hp) (fun _ _ => trivial) hs hf
      fun _ _ hs => hs.interrupted
  have hcall : ∀ {op : Op}, op.Neutral → (call op).Only Op.Neutral := only_neutral_call
  refine hneutral (hcall ⟨fun h => (by cases h), rfl⟩) ⟨rfl, rfl⟩ fun stop s₁ hs₁ => ?_
  cases stop with
  | true => exact ⟨trivial, hs₁.interrupted⟩
  | false =>
    rw [if_neg Bool.false_ne_true]
    refine hneutral (hcall ⟨fun h => (by cases h), rfl⟩) hs₁ fun pending s₂ hs₂ => ?_
    refine hneutral ((drainEvents_only pending).mono fun _ => housekeeping_neutral) hs₂
      fun _ s₃ hs₃ => ?_
    refine hneutral (hcall ⟨fun h => (by cases h), rfl⟩) hs₃ fun paused s₄ hs₄ => ?_
    cases paused with
    | true =>
      exact hneutral (hcall ⟨fun h => (by cases h), rfl⟩) hs₄ fun _ _ hs₅ =>
        ⟨trivial, hs₅.interrupted⟩
    | false =>
      rw [if_neg Bool.false_ne_true, pollRound, nextBatch, if_pos hcheckpointed]
      refine Machine.wp_perform_bind trivial (fun batch s₅ h => ?_) (fun e s₅ h => ?_)
      · have hs₅ := Ingests.poll accountId h
        rw [hs₄.1, hs₄.2] at hs₅
        refine hneutral (hcall ⟨fun h => (by cases h), rfl⟩) hs₅ fun rules s₆ hs₆ => ?_
        split
        · rename_i hnil
          exact idleRound_interrupted hnil hs₆.2
        · exact busyRound_interrupted hdeps rules hs₆
      · have hs₅ := Ingests.poll accountId h
        rw [hs₄.1] at hs₅
        exact ⟨trivial, hs₅.interrupted⟩

end Round

/-! ## Every life of the daemon -/

/-- `run_daemon`'s loop over a checkpointed source, without `observe`. -/
def Deployment.loop (d : Deployment) (accountId : String) : LoopConfig where
  deps := d.deps
  cursorAccountId := some accountId

/-- **The durable cursor skips no mail.**  In every state that the daemon reaches over any number of
restarts, every batch whose checkpoint is not beyond the persisted cursor has all its rows; and a
round over messages that is left by a stop or by an exception has not moved the cursor. -/
theorem cursor_skips_no_mail (d : Deployment) (server : MailServer) (accountId : String)
    (db : StateDB)
    (hdb : db.getCursor accountId = none ∨ ∃ p, db.getCursor accountId = some (server.state p)) :
    (∀ c, Loop.Lives (ingesting server anything) (messageLoop (d.loop accountId)) ()
        (bootSource accountId) ⟨⟨db, []⟩, none⟩ c →
      ∀ q, c.2.world.db.getCursor accountId = some (server.state q) →
        ∀ batch ∈ c.2.world.batches, ∀ q' ≤ q, batch.checkpoint = some (server.state q') →
          ∀ m ∈ batch.messages, c.2.world.db.hasProcessed m.messageId = true) ∧
    ∀ (s s' : Ingest) (out : Except Exn (Next Unit Unit)),
      (ingesting server anything).Reaches (messageLoop (d.loop accountId) ()) s (.done out) s' →
      (∃ batch ∈ s'.world.batches.drop s.world.batches.length, batch.messages ≠ []) →
      out ≠ .ok (.again ()) →
        s'.world.db.getCursor accountId = s.world.db.getCursor accountId := by
  refine ⟨fun c h q hq batch hbatch q' hq' hcheckpoint m hm => ?_, fun s s' out h => ?_⟩
  · have hstart : Resumable server accountId ⟨⟨db, []⟩, none⟩ := by
      rcases hdb with hdb | ⟨p, hdb⟩
      · exact .inl ⟨hdb, fun b hb => by cases hb⟩
      · refine .inr ⟨p, p, hdb, Nat.le_refl _, fun m hm => ?_, fun b hb => by cases hb⟩
        obtain ⟨k, hpk, hkp, _⟩ := MailServer.mem_window.1 hm
        omega
    have hinv : Resumable server accountId c.2 :=
      Loop.Lives.inv (J := fun _ => CaughtUp server accountId)
        (fun _ s hs => messageLoop_caughtUp (A := anything) d.wired rfl rfl rfl hs)
        (fun _ hs => hs.boot) hstart h
    rcases hinv with ⟨hc, _⟩ | ⟨base, q₀, hc, _, hcov, hb⟩
    · rw [hc] at hq
      cases hq
    · have hq₀ : q₀ = q := server.state_injective (Option.some_inj.1 (hc.symm.trans hq))
      subst hq₀
      rcases hb batch hbatch with hnil | ⟨i, j, hi, hmsgs, hj⟩
      · rw [hnil] at hm
        cases hm
      · have hjq : q' = j := server.state_injective (hj _ hcheckpoint)
        exact hcov.mono hi (hjq ▸ hq') m (hmsgs ▸ hm)
  · exact (wp_reaches (messageLoop_interrupted accountId d.wired rfl s) h).2

/-! ### A source that does not deliver again -/

/-- A process that is stopped as soon as `letter` has come. -/
def Env.stoppedAtLetter : Env := fun w op =>
  match op with
  | .pollBatch => .ok ⟨[letter], some "s1"⟩
  | .stopIsSet => .ok !w.batches.isEmpty
  | op => .ok (quietAnswer op)

theorem Env.stoppedAtLetter_lawful : Env.stoppedAtLetter.Lawful := by
  intro w op e h
  cases op <;> cases h

/-- The process behind it: by now `letter` has left the Inbox. -/
def Env.letterGone : Env := fun _ op =>
  match op with
  | .pollBatch => .ok ⟨[], some "s2"⟩
  | op => .ok (quietAnswer op)

theorem Env.letterGone_lawful : Env.letterGone.Lawful := by
  intro w op e h
  cases op <;> cases h

/-- A round of the two processes. -/
def roundIn (env : Env) (w : World) : Except Exn (Next Unit Unit) × World :=
  env.eval (messageLoop (oneCall.loop "A1") ()) w

/-- **Over any other source mail is skipped**: a letter that has left the Inbox before the restart
is in a batch, the cursor passes the checkpoint of that batch, and it has no row. -/
theorem departed_letter_skipped : ∃ c : Loop.Config sig World Unit Unit,
    Loop.Lives (machine anything) (messageLoop (oneCall.loop "A1")) () id
      ⟨StateDB.empty.setCursor "A1" "s0", []⟩ c ∧
    c.2.batches = [⟨[letter], some "s1"⟩, ⟨[], some "s2"⟩] ∧
    c.2.db.getCursor "A1" = some "s2" ∧ c.2.db.hasProcessed letter.messageId = false := by
  have hlife : ∀ {env : Env}, env.Lawful → ∀ w, Loop.Reaches (machine anything)
      (messageLoop (oneCall.loop "A1")) (messageLoop (oneCall.loop "A1") (), w)
      (.done (roundIn env w).1, (roundIn env w).2) := fun henv w =>
    Loop.reaches_of_machine (Env.reaches henv (fun _ _ => trivial) _ w)
  refine ⟨_, .restart (.start (hlife Env.stoppedAtLetter_lawful _))
    (hlife Env.letterGone_lawful _), ?_, ?_, ?_⟩
  · decide +kernel
  · decide +kernel
  · decide +kernel

/-! ### A quiet day at the server -/

/-- A server that delivers `letter` first, and then nothing. -/
def quietServer : MailServer where
  created := fun k => if k = 0 then [letter] else []
  state := fun k => String.ofList (List.replicate k 's')
  state_injective := by
    intro j k h
    have hlength := congrArg String.length h
    simpa using hlength

/-- What the server answers: one change at a time, while it knows where the source stands. -/
def quietIngest (s : Ingest) : (op : Op) → Except Exn op.Ret × Ingest
  | .pollBatch =>
    if s.since = some (quietServer.state 0) then
      (.ok ⟨quietServer.window 0 1, some (quietServer.state 1)⟩,
        ⟨s.world.record .pollBatch (.ok ⟨quietServer.window 0 1, some (quietServer.state 1)⟩)
          s.world.db, some (quietServer.state 1)⟩)
    else (.error ⟨.other "TimeoutError", ""⟩,
      ⟨s.world.record .pollBatch (.error ⟨.other "TimeoutError", ""⟩) s.world.db, s.since⟩)
  | op => ((Env.quiet.answer s.world op).1, ⟨(Env.quiet.answer s.world op).2, s.since⟩)

theorem quietIngest_ingests (s : Ingest) (op : Op) :
    Ingests quietServer anything s op (quietIngest s op).1 (quietIngest s op).2 := by
  have hother : ∀ op : Op, op ≠ .pollBatch → Ingests quietServer anything s op
      (Env.quiet.answer s.world op).1 ⟨(Env.quiet.answer s.world op).2, s.since⟩ :=
    fun op hop => .other hop (Env.responds Env.quiet_lawful trivial)
  cases op with
  | pollBatch =>
    unfold quietIngest
    split
    · exact .changes ‹_› (Nat.zero_le 1) (.inr rfl)
    · exact .pollRaises
  | _ => exact hother _ fun h => by cases h

/-- A daemon that has a cursor, before its process is started. -/
def quietStart : Ingest := ⟨⟨StateDB.empty.setCursor "A1" (quietServer.state 0), []⟩, none⟩

/-- Its first round. -/
def quietRound : Except Exn (Next Unit Unit) × Ingest :=
  (messageLoop (oneCall.loop "A1") ()).eval quietIngest (bootSource "A1" quietStart)

/-- A daemon that has a cursor takes `letter` in, marks it, and only then moves the cursor. -/
theorem cursor_skips_no_mail_quiet : ∃ (db : StateDB) (c : Loop.Config sig Ingest Unit Unit),
    db.getCursor "A1" = some (quietServer.state 0) ∧
    Loop.Lives (ingesting quietServer anything) (messageLoop (oneCall.loop "A1")) ()
      (bootSource "A1") ⟨⟨db, []⟩, none⟩ c ∧
    c.2.world.db.getCursor "A1" = some (quietServer.state 1) ∧
    c.2.world.db.hasProcessed letter.messageId = true := by
  have hdb : quietStart.world.db.getCursor "A1" = some (quietServer.state 0) := by decide +kernel
  have hcursor : quietRound.2.world.db.getCursor "A1" = some (quietServer.state 1) := by
    decide +kernel
  have hbatch : (⟨[letter], some (quietServer.state 1)⟩ : MessageBatch)
      ∈ quietRound.2.world.batches := by decide +kernel
  have hlives : Loop.Lives (ingesting quietServer anything) (messageLoop (oneCall.loop "A1")) ()
      (bootSource "A1") quietStart (.done quietRound.1, quietRound.2) :=
    .start ((Prog.eval_reaches quietIngest_ingests _ _).lift id fun _ _ h => .call h)
  have hdone := (cursor_skips_no_mail oneCall quietServer "A1" quietStart.world.db
    (.inr ⟨0, hdb⟩)).1 _ hlives 1 hcursor _ hbatch 1 (Nat.le_refl 1) rfl letter
    (List.mem_singleton_self _)
  exact ⟨_, _, hdb, hlives, hcursor, hdone⟩

end Spork
