import Spork.Guarantees.Delivery

/-!
# The first run

A process without a cursor takes its baseline inside its first poll, behind the trigger.  What has
arrived by then is behind it.  And an email that has been moved by the time that it is fetched is
dropped, while the cursor passes it.  `first_run_covers_iff` says that nothing else is lost.
-/

set_option autoImplicit false

namespace Spork

open Effects Machine Windows

section Process

variable {states : ServerStates} {may : Fate → Prop} {client : JmapClient}

/-- The checkpoint of the last batch, if there is one. -/
def lastCheckpoint (batches : List MessageBatch) : Option String :=
  batches.getLast?.bind MessageBatch.checkpoint

/-- The `n`-th email is in some batch, or it was created after the last checkpoint. -/
def Accounted (states : ServerStates) (batches : List MessageBatch) (n : Nat) (e : JmapEmail) :
    Prop :=
  (∃ batch ∈ batches, ∃ m ∈ batch.messages, e.id = some m.messageId) ∨
    ∀ c, lastCheckpoint batches = some (states.name c) → c ≤ n

theorem Cuts.lastCheckpoint {i j : Nat} {fates : List Fate} {batches : List MessageBatch}
    (h : Cuts states client i fates batches j) (ms : List NormalizedMessage) :
    Spork.lastCheckpoint (⟨ms, some (states.name i)⟩ :: batches) = some (states.name j) := by
  induction h generalizing ms with
  | nil => rfl
  | cons _ ih => exact ih _

/-- An email has one place in the log. -/
theorem MailLog.position_unique (log : MailLog) {n k : Nat} {e : JmapEmail}
    (hn : log.emails[n]? = some e) (hk : log.emails[k]? = some e) : n = k := by
  have hlt : n < log.emails.length := (List.getElem?_eq_some_iff.mp hn).1
  exact (List.getElem?_inj hlt (List.Nodup.of_map _ log.distinct)).mp (hn.trans hk.symm)

/-- What a first run returns: nothing at all, or a baseline and then what was fetched after it. -/
theorem polls_first (hmay : KeepsIds may) {w w' : JmapServer} {batches : List MessageBatch}
    (h : Polls states may client w batches w') (hcursor : w.cursor = none)
    (hat : w.baselineAt = none) :
    (batches = [] ∧ w'.baselineAt = none ∧ w'.passed = w.passed) ∨
      ∃ b j fates windows, batches = ⟨[], some (states.name b)⟩ :: windows ∧ w.length ≤ b ∧
        w'.baselineAt = some b ∧ w'.passed = w.passed ++ fates ∧
        Fetched may w'.log.emails b j fates ∧ Cuts states client b fates windows j := by
  induction h with
  | nil => exact .inl ⟨rfl, hat, rfl⟩
  | returns h hs ih =>
    have hpolled := (Machine.wp_reaches (pollBatch_spec hmay (.inl hcursor) _) h).2
    cases hpolled with
    | window hi => exact absurd (hcursor.symm.trans hi) (by simp)
    | baseline _ _ hn hn' hat hpassed =>
      obtain ⟨j, fates, hasked⟩ := polls_asks hmay hs hn'
      exact .inr ⟨_, j, fates, _, rfl, hn, hasked.baselineAt.trans hat, hpassed ▸ hasked.passed,
        hasked.fetched, hasked.cuts⟩
  | raises h _ ih =>
    have hpolled := (Machine.wp_reaches (pollBatch_spec hmay (.inl hcursor) _) h).2
    cases hpolled with
    | raised h =>
      rw [← h.passed]
      refine (ih (h.cursor.trans hcursor) (h.baselineAt.trans hat)).imp id ?_
      rintro ⟨b, j, fates, windows, hbatches, hb, hrest⟩
      exact ⟨b, j, fates, windows, hbatches, Nat.le_trans h.length_le hb, hrest⟩
  | arrives h _ ih =>
    rw [← h.passed]
    refine (ih (h.cursor.trans hcursor) (h.baselineAt.trans hat)).imp id ?_
    rintro ⟨b, j, fates, windows, hbatches, hb, hrest⟩
    exact ⟨b, j, fates, windows, hbatches, Nat.le_trans h.grows.length_le hb, hrest⟩

/-- The email was still in the Inbox when it was asked for. -/
def StillThere (client : JmapClient) (f : Fate) : Prop :=
  ∃ e ∈ f.2, e.isInbox client.inboxId = true

/-- An email is in the batches exactly if it was fetched and still in the Inbox. -/
theorem Cuts.mem_iff (hmay : KeepsIds may) {log : MailLog} {i j : Nat} {fates : List Fate}
    {batches : List MessageBatch} (h : Cuts states client i fates batches j)
    (hfates : Fetched may log.emails i j fates) {e : JmapEmail} (he : e ∈ log.emails) :
    (∃ batch ∈ batches, ∃ m ∈ batch.messages, e.id = some m.messageId) ↔
      ∃ f ∈ fates, f.1 = e ∧ StillThere client f := by
  have hall : (∃ batch ∈ batches, ∃ m ∈ batch.messages, e.id = some m.messageId) ↔
      ∃ m ∈ client.inboxMessages (fates.filterMap Prod.snd), e.id = some m.messageId := by
    rw [← h.messages]
    simp only [List.mem_flatMap]
    exact ⟨fun ⟨b, hb, m, hm, hid⟩ => ⟨m, ⟨b, hb, hm⟩, hid⟩, fun ⟨m, ⟨b, hb, hm⟩, hid⟩ =>
      ⟨b, hb, m, hm, hid⟩⟩
  rw [hall]
  constructor
  · rintro ⟨m, hm, hid⟩
    obtain ⟨e', he', hinbox, hnormal⟩ := JmapClient.mem_inboxMessages.mp hm
    obtain ⟨f, hf, hfe⟩ := List.mem_filterMap.mp he'
    obtain ⟨m', hm', hmid⟩ := JmapEmail.normalize_ok (hfates.named hmay hf hfe)
    obtain rfl : m = m' := Except.ok.inj (hnormal.symm.trans hm')
    have hids : f.1.id = e.id := by rw [hid, ← hmid, (hmay f (hfates.fates f hf) e' hfe).1]
    exact ⟨f, hf, List.inj_on_of_nodup_map log.distinct (hfates.mem hf) he hids, e', hfe, hinbox⟩
  · rintro ⟨f, hf, rfl, e', hfe, hinbox⟩
    obtain ⟨m, hm, hmid⟩ := JmapEmail.normalize_ok (hfates.named hmay hf hfe)
    refine ⟨m, JmapClient.mem_inboxMessages.mpr ⟨e', List.mem_filterMap.mpr ⟨f, hf, hfe⟩, hinbox,
      hm⟩, ?_⟩
    rw [← hmid, (hmay f (hfates.fates f hf) e' hfe).1]

/-- **When a first run covers the mail that arrives after the daemon was ready.**  The baseline is
taken inside the first poll, once its trigger has fired, and an email is only delivered if it is
still in the Inbox when it is fetched.  So an email is lost exactly if it arrives in the Inbox
between `READY=1` and the server's answer to the baseline request, or has left the Inbox by the time
that it is fetched by the poll that passes it. -/
theorem first_run_covers_iff {w w' : JmapServer} {batches : List MessageBatch}
    (hcursor : w.cursor = none) (hat : w.baselineAt = none) (hpassed : w.passed = [])
    (h : Polls states Refiled client w batches w') :
    (∀ n e, w.length ≤ n → w'.log.emails[n]? = some e → e.isInbox client.inboxId = true →
      Accounted states batches n e) ↔
    (∀ b n e, w'.baselineAt = some b → w.length ≤ n → n < b → w'.log.emails[n]? = some e →
      e.isInbox client.inboxId = false) ∧
    ∀ f ∈ w'.passed, f.1.isInbox client.inboxId = true → StillThere client f := by
  obtain ⟨rfl, hnone, hnothing⟩ | ⟨b, j, fates, windows, rfl, hb, hsome, hall, hfates, hcuts⟩ :=
    polls_first keepsIds_refiled h hcursor hat
  · constructor
    · refine fun _ => ⟨fun b _ _ hb => ?_, fun f hf => ?_⟩
      · rw [hnone] at hb
        cases hb
      · rw [hnothing, hpassed] at hf
        cases hf
    · exact fun _ _ _ _ _ _ => .inr fun c hc => by cases hc
  rw [hpassed, List.nil_append] at hall
  have hcovered : ∀ n e, w'.log.emails[n]? = some e →
      (Accounted states (⟨[], some (states.name b)⟩ :: windows) n e ↔
        (∃ f ∈ fates, f.1 = e ∧ StillThere client f) ∨ j ≤ n) := by
    intro n e he
    have hlast : (∀ c, lastCheckpoint (⟨[], some (states.name b)⟩ :: windows)
        = some (states.name c) → c ≤ n) ↔ j ≤ n := by
      rw [hcuts.lastCheckpoint []]
      exact ⟨fun h => h j rfl, fun h c hc => states.injective (Option.some.inj hc) ▸ h⟩
    rw [Accounted, hlast, ← hcuts.mem_iff keepsIds_refiled hfates (List.mem_of_getElem? he)]
    simp
  constructor
  · intro hcover
    refine ⟨fun b' n e hb' hn hnb he => ?_, fun f hf hinbox => ?_⟩
    · obtain rfl : b' = b := Option.some.inj (hb'.symm.trans hsome)
      rw [← Bool.not_eq_true]
      intro hinbox
      rcases (hcovered n e he).1 (hcover n e hn he hinbox) with ⟨f, hf, rfl, -⟩ | hlater
      · obtain ⟨n', hle, -, hn'⟩ := mem_slice.1 (hfates.mem_slice hf)
        have hsame := w'.log.position_unique he hn'
        omega
      · exact absurd (hlater.trans_lt hnb) (Nat.not_lt.2 hfates.le)
    · rw [hall] at hf
      obtain ⟨n, hle, hlt, hn⟩ := mem_slice.1 (hfates.mem_slice hf)
      rcases (hcovered n f.1 hn).1 (hcover n f.1 (hb.trans hle) hn hinbox) with
        ⟨g, hg, heq, hthere⟩ | hlater
      · exact hfates.eq_of_id hg hf (congrArg JmapEmail.id heq) ▸ hthere
      · exact absurd hlt (Nat.not_lt.2 hlater)
  · rintro ⟨hbefore, hthere⟩ n e hn he hinbox
    refine (hcovered n e he).2 ?_
    by_cases hlater : j ≤ n
    · exact .inr hlater
    · have hbn : b ≤ n := by
        by_contra hlt
        exact absurd (hbefore b n e hsome hn (Nat.not_le.1 hlt) he) (by simp [hinbox])
      have hmem : e ∈ fates.map Prod.fst :=
        hfates.emails ▸ mem_slice.2 ⟨n, hbn, Nat.not_le.1 hlater, he⟩
      obtain ⟨f, hf, rfl⟩ := List.mem_map.1 hmem
      exact .inl ⟨f, hf, rfl, hthere f (hall ▸ hf) hinbox⟩

end Process

/-! ## An email in an Inbox -/

/-- Its log. -/
def newMail : MailLog := ⟨[newEmail], by simp [newEmail], by simp⟩

/-- The same email, when it has been moved. -/
def movedEmail : JmapEmail := { newEmail with mailboxIds := some [("archive", true)] }

/-- A push event, one page, and the email is delivered if it is still in the Inbox. -/
theorem poll_one_email {now : JmapEmail} (hnow : now = newEmail ∨ now = movedEmail)
    (b : Option Nat) :
    Polls unaryStates Refiled inboxClient ⟨newMail, some (unaryStates.name 0), b, [], []⟩
      [⟨inboxClient.inboxMessages [now], some (unaryStates.name 1)⟩]
      ⟨newMail, some (unaryStates.name 1), b, [(newEmail, some now)], [(newEmail, some now)]⟩ := by
  have hpoll : (jmapMachine unaryStates Refiled).Reaches
      ((buildCheckpointedSource inboxClient).pollBatch 1)
      ⟨newMail, some (unaryStates.name 0), b, [], []⟩
      (.done (.ok (some ⟨inboxClient.inboxMessages [now], some (unaryStates.name 1)⟩)))
      ⟨newMail, some (unaryStates.name 1), b, [(newEmail, some now)], [(newEmail, some now)]⟩ := by
    refine .head (.call ⟨_, .refl _, .pushed⟩) ?_
    refine .head (.call ⟨_, .refl _, .cursorValue⟩) ?_
    refine .head (.call ⟨_, .refl _, .changes (Nat.zero_le 1) (Nat.le_refl 1) fun _ =>
      Nat.one_pos⟩) ?_
    have hrefiled : Refiled (newEmail, some now) := by
      rintro e ⟨rfl⟩
      rcases hnow with rfl | rfl <;> exact ⟨_, rfl⟩
    have hmem : ∀ f ∈ ([(newEmail, some now)] : List Fate), f.1 ∈ newMail.emails ∧ Refiled f :=
      List.forall_mem_singleton.2 ⟨List.mem_singleton_self _, hrefiled⟩
    refine .head (.call ⟨_, .refl _, .get (by simp)
      (show ([(newEmail, some now)] : List Fate).map (fun f => f.1.id) = _ from rfl) hmem⟩) ?_
    rcases hnow with rfl | rfl
    · exact .head (.call ⟨_, .refl _, .setCursorValue⟩) .refl
    · exact .head (.call ⟨_, .refl _, .setCursorValue⟩) .refl
  exact .returns hpoll .nil

/-- A first poll, of a mailbox that was empty when the daemon was ready.  By the time that a push
event wakes it, there is a log. -/
theorem poll_baseline {log : MailLog} (hlog : log = MailLog.empty ∨ log = newMail) :
    (jmapMachine unaryStates Refiled).Reaches ((buildCheckpointedSource inboxClient).pollBatch 1)
      ⟨MailLog.empty, none, none, [], []⟩
      (.done (.ok (some ⟨[], some (unaryStates.name log.emails.length)⟩)))
      ⟨log, some (unaryStates.name log.emails.length), some log.emails.length, [], []⟩ := by
  have harrives : JmapServer.Arrives ⟨MailLog.empty, none, none, [], []⟩
      ⟨log, none, none, [], []⟩ := ⟨List.nil_prefix, rfl, rfl, rfl, rfl⟩
  refine .head (.call ⟨_, harrives, .pushed⟩) ?_
  refine .head (.call ⟨_, .refl _, .cursorValue⟩) ?_
  refine .head (.call ⟨_, .refl _, .baseline⟩) ?_
  obtain rfl | rfl := hlog
  · exact .head (.call ⟨_, .refl _, .setCursorValue⟩) .refl
  · exact .head (.call ⟨_, .refl _, .setCursorValue⟩) .refl

/-- Mail arrives behind a baseline. -/
theorem newMail_arrives : JmapServer.Arrives
    ⟨MailLog.empty, some (unaryStates.name 0), some 0, [], []⟩
    ⟨newMail, some (unaryStates.name 0), some 0, [], []⟩ := ⟨List.nil_prefix, rfl, rfl, rfl, rfl⟩

theorem first_run_covers_iff_one_email :
    ∃ w', Polls unaryStates Refiled inboxClient ⟨MailLog.empty, none, none, [], []⟩
        [⟨[], some (unaryStates.name 0)⟩,
          ⟨inboxClient.inboxMessages [newEmail], some (unaryStates.name 1)⟩] w' ∧
      Accounted unaryStates [⟨[], some (unaryStates.name 0)⟩,
        ⟨inboxClient.inboxMessages [newEmail], some (unaryStates.name 1)⟩] 0 newEmail := by
  have hrun := Polls.returns (poll_baseline (.inl rfl))
    (.arrives newMail_arrives (poll_one_email (.inl rfl) (some 0)))
  refine ⟨_, hrun, (first_run_covers_iff rfl rfl rfl hrun).mpr ⟨?_, ?_⟩ 0 newEmail (Nat.le_refl _)
    rfl rfl⟩
  · rintro b n e hb - hlt -
    cases hb
    exact absurd hlt (Nat.not_lt_zero n)
  · intro f hf _
    obtain rfl := List.mem_singleton.1 hf
    exact ⟨newEmail, rfl, rfl⟩

/-- **Two emails that are lost**: the one whose push event wakes the very first wait is behind the
baseline, and one that comes after it is moved before it is fetched. -/
theorem first_wake_skipped :
    (∃ w', Polls unaryStates Refiled inboxClient ⟨MailLog.empty, none, none, [], []⟩
        [⟨[], some (unaryStates.name 1)⟩] w' ∧
      w'.log.emails[0]? = some newEmail ∧ newEmail.isInbox inboxClient.inboxId = true ∧
      ¬Accounted unaryStates [⟨[], some (unaryStates.name 1)⟩] 0 newEmail) ∧
    ∃ w', Polls unaryStates Refiled inboxClient ⟨MailLog.empty, none, none, [], []⟩
        [⟨[], some (unaryStates.name 0)⟩, ⟨[], some (unaryStates.name 1)⟩] w' ∧
      w'.log.emails[0]? = some newEmail ∧ newEmail.isInbox inboxClient.inboxId = true ∧
      ¬Accounted unaryStates [⟨[], some (unaryStates.name 0)⟩, ⟨[], some (unaryStates.name 1)⟩] 0
        newEmail := by
  have hmoved := Polls.returns (poll_baseline (.inl rfl))
    (.arrives newMail_arrives (poll_one_email (.inr rfl) (some 0)))
  refine ⟨⟨_, .returns (poll_baseline (.inr rfl)) .nil, rfl, rfl, ?_⟩, _, hmoved, rfl, rfl, ?_⟩
  · rintro (⟨batch, hbatch, m, hm, _⟩ | hlater)
    · rw [List.mem_singleton] at hbatch
      subst hbatch
      cases hm
    · exact absurd (hlater 1 rfl) (by decide)
  · rintro (⟨batch, hbatch, m, hm, _⟩ | hlater)
    · rcases List.mem_pair.1 hbatch with rfl | rfl <;> cases hm
    · exact absurd (hlater 1 rfl) (by decide)

end Spork
