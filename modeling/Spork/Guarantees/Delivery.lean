import Spork.Jmap.Server

/-!
# Every new message is delivered once

`poll_batch` of the JMAP source asks for everything after the shared cursor, page by page, and moves
the cursor only when it has it all.  So the batches of a process cut the server's log into
consecutive windows: whatever the pages, whichever of the two sources answers, and whichever
requests fail, nothing between the first cursor and the last checkpoint is left out or returned
twice (`poll_batches_exactly_once`).

That is for a server on which emails stay what they were.  Up to there the server may do with them
what it likes (`polls_asks`).
-/

set_option autoImplicit false

namespace Spork

open Effects Machine Windows

/-! ## The mail of a window -/

/-- The Inbox messages among some emails. -/
def JmapClient.inboxMessages (client : JmapClient) (emails : List JmapEmail) :
    List NormalizedMessage :=
  (emails.filter (·.isInbox client.inboxId)).filterMap fun e => e.normalize.toOption

@[simp] theorem JmapClient.inboxMessages_nil (client : JmapClient) :
    client.inboxMessages [] = [] := rfl

theorem JmapClient.inboxMessages_append (client : JmapClient) (es fs : List JmapEmail) :
    client.inboxMessages (es ++ fs) = client.inboxMessages es ++ client.inboxMessages fs := by
  simp [inboxMessages]

theorem JmapClient.mem_inboxMessages {client : JmapClient} {es : List JmapEmail}
    {m : NormalizedMessage} : m ∈ client.inboxMessages es ↔
      ∃ e ∈ es, e.isInbox client.inboxId = true ∧ e.normalize = .ok m := by
  simp only [inboxMessages, List.mem_filterMap, List.mem_filter, and_assoc]
  refine exists_congr fun e => and_congr Iff.rfl (and_congr Iff.rfl ?_)
  cases e.normalize <;> simp [Except.toOption]

/-- Where every email can be normalised, so can a list of them. -/
theorem JmapClient.mapM_normalize {client : JmapClient} : ∀ {es : List JmapEmail},
    (∀ e ∈ es, ∃ id threadId, e.id = some id ∧ e.threadId = some threadId) →
      (es.filter (·.isInbox client.inboxId)).mapM JmapEmail.normalize
        = .ok (client.inboxMessages es)
  | [], _ => rfl
  | e :: es, h => by
    have ih : (es.filter (·.isInbox client.inboxId)).mapM JmapEmail.normalize = _ :=
      mapM_normalize fun e he => h e (List.mem_cons_of_mem _ he)
    obtain ⟨m, hm, _⟩ := JmapEmail.normalize_ok (h e List.mem_cons_self)
    rw [inboxMessages] at ih ⊢
    rw [List.filter_cons]
    split
    · rw [List.mapM_cons, ih, hm, List.filterMap_cons, hm]
      rfl
    · exact ih

/-- The ids of named emails are texts. -/
theorem texts_ids {es : List JmapEmail}
    (hes : ∀ e ∈ es, ∃ id threadId, e.id = some id ∧ e.threadId = some threadId) :
    ∃ ids, JmapClient.texts (some (es.map JmapEmail.id)) = some ids ∧
      ids.map some = es.map JmapEmail.id := by
  have hids : es.map JmapEmail.id = (es.map fun e => e.id.getD "").map some := by
    rw [List.map_map]
    refine List.map_congr_left fun e he => ?_
    obtain ⟨id, _, hid, _⟩ := hes e he
    simp [hid]
  rw [hids]
  exact ⟨_, JmapClient.texts_map_some _, rfl⟩

/-- Emails of one log are known by their ids. -/
theorem MailLog.eq_of_ids (log : MailLog) : ∀ {es fs : List JmapEmail},
    (∀ e ∈ es, e ∈ log.emails) → (∀ e ∈ fs, e ∈ log.emails) →
      es.map JmapEmail.id = fs.map JmapEmail.id → es = fs
  | [], [], _, _, _ => rfl
  | [], _ :: _, _, _, h => by cases h
  | _ :: _, [], _, _, h => by cases h
  | e :: es, f :: fs, hes, hfs, h => by
    rw [List.map_cons, List.map_cons, List.cons.injEq] at h
    have he : e = f := List.inj_on_of_nodup_map log.distinct (hes e List.mem_cons_self)
      (hfs f List.mem_cons_self) h.1
    rw [he, eq_of_ids log (fun e he => hes e (List.mem_cons_of_mem _ he))
      (fun e he => hfs e (List.mem_cons_of_mem _ he)) h.2]

/-! ## What becomes of the emails -/

/-- An email keeps its id and its thread. -/
def KeepsIds (may : Fate → Prop) : Prop :=
  ∀ f, may f → ∀ e ∈ f.2, e.id = f.1.id ∧ e.threadId = f.1.threadId

theorem keepsIds_stays : KeepsIds Stays := by
  intro f hf e he
  rw [Stays] at hf
  rw [hf] at he
  cases he
  exact ⟨rfl, rfl⟩

theorem keepsIds_refiled : KeepsIds Refiled := by
  intro f hf e he
  obtain ⟨mailboxIds, rfl⟩ := hf e he
  exact ⟨rfl, rfl⟩

/-- What is left of an email has an id and a thread. -/
theorem KeepsIds.named {may : Fate → Prop} (hmay : KeepsIds may) {log : MailLog} {f : Fate}
    (hf : may f) (hlogged : f.1 ∈ log.emails) {e : JmapEmail} (he : e ∈ f.2) :
    ∃ id threadId, e.id = some id ∧ e.threadId = some threadId := by
  obtain ⟨hid, hthread⟩ := hmay f hf e he
  rw [hid, hthread]
  exact log.named f.1 hlogged

/-- What is left of emails that stay is all of them. -/
theorem filterMap_stays : ∀ {fates : List Fate}, (∀ f ∈ fates, Stays f) →
    fates.filterMap Prod.snd = fates.map Prod.fst
  | [], _ => rfl
  | f :: fates, h => by
    rw [List.filterMap_cons, h f List.mem_cons_self, List.map_cons,
      filterMap_stays fun f hf => h f (List.mem_cons_of_mem _ hf)]

/-- The emails between two states, and what has become of them. -/
structure Fetched (may : Fate → Prop) (log : List JmapEmail) (k m : Nat) (fates : List Fate) :
    Prop where
  le : k ≤ m
  le_length : m ≤ log.length
  emails : fates.map Prod.fst = slice log k m
  fates : ∀ f ∈ fates, may f

section Fetched

variable {may : Fate → Prop} {log log' : List JmapEmail} {k m n : Nat} {fates fates' : List Fate}

theorem Fetched.nil (hk : k ≤ log.length) : Fetched may log k k [] :=
  ⟨Nat.le_refl k, hk, (slice_self log k).symm, fun _ h => absurd h List.not_mem_nil⟩

theorem Fetched.extend (h : Fetched may log k m fates) (hlog : log <+: log') :
    Fetched may log' k m fates :=
  ⟨h.le, h.le_length.trans hlog.length_le, h.emails.trans (slice_extend hlog h.le_length).symm,
    h.fates⟩

theorem Fetched.append (h : Fetched may log k m fates) (h' : Fetched may log m n fates') :
    Fetched may log k n (fates ++ fates') where
  le := h.le.trans h'.le
  le_length := h'.le_length
  emails := by rw [List.map_append, h.emails, h'.emails, slice_append_slice h.le h'.le]
  fates := List.forall_mem_append.2 ⟨h.fates, h'.fates⟩

theorem Fetched.length (h : Fetched may log k m fates) : k + fates.length = m := by
  have hlength := congrArg List.length h.emails
  rw [List.length_map] at hlength
  rw [hlength, length_slice h.le h.le_length]

theorem Fetched.split (h : Fetched may log k n (fates ++ fates')) :
    Fetched may log k (k + fates.length) fates ∧
      Fetched may log (k + fates.length) n fates' := by
  have hlength := h.length
  rw [List.length_append] at hlength
  have hmeet : k + fates.length ≤ n := by omega
  have hemails := h.emails
  rw [List.map_append, ← slice_append_slice (Nat.le_add_right k _) hmeet] at hemails
  have hfirst := length_slice (Nat.le_add_right k fates.length) (hmeet.trans h.le_length)
  obtain ⟨hfates, hfates'⟩ := List.append_inj hemails (by rw [List.length_map]; omega)
  obtain ⟨hmay, hmay'⟩ := List.forall_mem_append.1 h.fates
  exact ⟨⟨Nat.le_add_right k _, hmeet.trans h.le_length, hfates, hmay⟩,
    hmeet, h.le_length, hfates', hmay'⟩

theorem Fetched.mem_slice (h : Fetched may log k m fates) {f : Fate} (hf : f ∈ fates) :
    f.1 ∈ slice log k m := h.emails ▸ List.mem_map_of_mem hf

theorem Fetched.mem (h : Fetched may log k m fates) {f : Fate} (hf : f ∈ fates) : f.1 ∈ log :=
  slice_subset (h.mem_slice hf)

theorem Fetched.named (hmay : KeepsIds may) {log : MailLog}
    (h : Fetched may log.emails k m fates) {f : Fate} (hf : f ∈ fates) {e : JmapEmail}
    (he : e ∈ f.2) : ∃ id threadId, e.id = some id ∧ e.threadId = some threadId :=
  hmay.named (h.fates f hf) (h.mem hf) he

/-- The emails have ids of their own, and so each was fetched once. -/
theorem Fetched.eq_of_id {log : MailLog} (h : Fetched may log.emails k m fates) {f g : Fate}
    (hf : f ∈ fates) (hg : g ∈ fates) (hid : f.1.id = g.1.id) : f = g := by
  have hids : fates.map (fun f => f.1.id) = (slice log.emails k m).map JmapEmail.id := by
    rw [← h.emails, List.map_map]
    rfl
  have hdistinct : (fates.map fun f => f.1.id).Nodup :=
    hids ▸ log.distinct.sublist (slice_sublist.map _)
  exact List.inj_on_of_nodup_map hdistinct hf hg hid

end Fetched

/-! ## One call -/

/-- The log has grown, and the cursor and what it has passed are what they were. -/
structure JmapServer.Grows (w w' : JmapServer) : Prop where
  log : w.log.emails <+: w'.log.emails
  cursor : w'.cursor = w.cursor
  baselineAt : w'.baselineAt = w.baselineAt
  passed : w'.passed = w.passed

theorem JmapServer.Grows.refl (w : JmapServer) : w.Grows w := ⟨List.prefix_refl _, rfl, rfl, rfl⟩

theorem JmapServer.Grows.trans {w₁ w₂ w₃ : JmapServer} (h : w₁.Grows w₂) (h' : w₂.Grows w₃) :
    w₁.Grows w₃ :=
  ⟨h.log.trans h'.log, h'.cursor.trans h.cursor, h'.baselineAt.trans h.baselineAt,
    h'.passed.trans h.passed⟩

theorem JmapServer.Grows.length_le {w w' : JmapServer} (h : w.Grows w') :
    w.length ≤ w'.length := h.log.length_le

theorem JmapServer.Arrives.grows {w w' : JmapServer} (h : w.Arrives w') : w.Grows w' :=
  ⟨h.log, h.cursor, h.baselineAt, h.passed⟩

section Call

variable {states : ServerStates} {may : Fate → Prop} {client : JmapClient} {α : Type}
  {I : JmapServer → Prop} {Q : Except Exn α → JmapServer → Prop} {w w₀ : JmapServer}

/-- A request, and what follows it: any failure is a `JmapError`, and the world has not moved. -/
theorem wp_request_bind {op : JmapOp} (hop : op.isRequest = true) {f : op.Ret → JmapProc α}
    (hI : I w) (herr : ∀ e w', w.Arrives w' → I w' ∧ Q (.error e) w')
    (hok : ∀ a w₁ w', w.Arrives w₁ → w₁.Answers states may op (.ok a) w' →
      (jmapMachine states may).wp I (f a) Q w') :
    (jmapMachine states may).wp I (JmapClient.request op >>= f) Q w := by
  refine ⟨hI, fun r w' h => ?_⟩
  obtain ⟨w₁, harrives, h⟩ := h
  cases r with
  | ok a => exact hok a w₁ w' harrives h
  | error e =>
    cases h with
    | fails _ _ => exact herr _ _ harrives
    | disconnected _ => cases hop

@[simp] theorem require_some {β : Type} {message : String} {b : β} {f : β → JmapProc α} :
    JmapClient.require message (some b) >>= f = f b := rfl

/-- The messages of a page are the emails that it names, as far as they are still in the Inbox. -/
theorem pageMessages_spec (hmay : KeepsIds may) {es : List JmapEmail}
    (hes : ∀ e ∈ es, e ∈ w.log.emails) {created : List String}
    (hcreated : created.map some = es.map JmapEmail.id) :
    (jmapMachine states may).wp w.Grows (client.pageMessages created)
      (fun r w' => ∀ ms, r = .ok ms → ∃ fates : List Fate, fates.map Prod.fst = es ∧
        (∀ f ∈ fates, may f) ∧ w'.asked = w.asked ++ fates ∧
        ms = client.inboxMessages (fates.filterMap Prod.snd)) w := by
  unfold JmapClient.pageMessages
  split
  · rename_i hnil
    subst hnil
    have hes : es = [] := List.map_eq_nil_iff.mp hcreated.symm
    subst hes
    refine ⟨.refl w, fun ms hms => ⟨[], rfl, fun _ h => absurd h List.not_mem_nil,
      (List.append_nil _).symm, ?_⟩⟩
    cases hms
    rfl
  · rename_i hne
    refine wp_request_bind rfl (.refl w)
      (fun e w' h => ⟨h.grows, fun ms hms => by cases hms⟩) ?_
    intro a w₁ w' harrives h
    cases h with
    | baseline => exact absurd rfl hne
    | @get _ fates _ hids hmem =>
      have hgrown : ∀ e ∈ es, e ∈ w₁.log.emails := fun e he => harrives.log.subset (hes e he)
      have hlogged : ∀ e ∈ fates.map Prod.fst, e ∈ w₁.log.emails := by
        intro e he
        obtain ⟨f, hf, rfl⟩ := List.mem_map.1 he
        exact (hmem f hf).1
      have heq : fates.map Prod.fst = es := by
        refine w₁.log.eq_of_ids hlogged hgrown ?_
        rw [List.map_map]
        exact hids.trans hcreated
      have hnamed : ∀ e ∈ fates.filterMap Prod.snd,
          ∃ id threadId, e.id = some id ∧ e.threadId = some threadId := by
        intro e he
        obtain ⟨f, hf, he⟩ := List.mem_filterMap.1 he
        exact hmay.named (hmem f hf).2 (hmem f hf).1 he
      rw [require_some, JmapClient.mapM_normalize hnamed]
      refine ⟨⟨harrives.log, harrives.cursor, harrives.baselineAt, harrives.passed⟩,
        fun ms hms => ⟨fates, heq, fun f hf => (hmem f hf).2, by rw [harrives.asked], ?_⟩⟩
      cases hms
      rfl

/-- **The pages of one fetch.**  Started from the state `k`, they end in some state `m` with the
Inbox messages between the two.  A fetch that is still asking after `fuel` pages has seen that much
mail. -/
theorem fetchPages_spec (hmay : KeepsIds may) :
    ∀ (fuel : Nat) {k : Nat} {acc : List NormalizedMessage} {w : JmapServer}, k ≤ w.length →
      (jmapMachine states may).wp w.Grows (client.fetchPages fuel (states.name k) acc)
        (fun r w' => (r = .ok none → k + fuel ≤ w'.length) ∧
          ∀ result, r = .ok (some result) → ∃ m fates, Fetched may w'.log.emails k m fates ∧
            result.cursor = states.name m ∧ w'.asked = w.asked ++ fates ∧
            result.messages = acc ++ client.inboxMessages (fates.filterMap Prod.snd)) w
  | 0, k, acc, w, hk => ⟨.refl w, fun _ => hk, fun _ h => by cases h⟩
  | fuel + 1, k, acc, w, hk => by
    unfold JmapClient.fetchPages
    refine wp_request_bind rfl (.refl w)
      (fun e w' h => ⟨h.grows, (fun hr => by cases hr), (fun _ hr => by cases hr)⟩) ?_
    intro a w₁ w' harrives h
    generalize hsince : states.name k = since at h
    cases h with
    | @changes k' m hkm hm hprogress =>
      have hk' : k' = k := states.injective hsince.symm
      subst hk'
      have hlog : ∀ e ∈ slice w₁.log.emails k' m, e ∈ w₁.log.emails := fun e he => slice_subset he
      obtain ⟨created, htexts, hcreated⟩ := texts_ids fun e he => w₁.log.named e (hlog e he)
      rw [htexts, require_some, require_some, require_some, Machine.wp_bind]
      refine Machine.wp_mono (fun _ => harrives.grows.trans) ?_
        (pageMessages_spec hmay hlog hcreated)
      intro r w₂ hgrows₂ hr
      cases r with
      | error e =>
        exact ⟨harrives.grows.trans hgrows₂, (fun hr => by cases hr), (fun _ hr => by cases hr)⟩
      | ok ms =>
        obtain ⟨fates, hemails, hfates, hasked, hms⟩ := hr ms rfl
        have hpage : Fetched may w₂.log.emails k' m fates :=
          Fetched.extend ⟨hkm, hm, hemails, hfates⟩ hgrows₂.log
        have hasked : w₂.asked = w.asked ++ fates := by rw [hasked, harrives.asked]
        simp only [Prog.onValue, decide_eq_true_eq]
        split
        · rename_i hmore
          have hstep : k' < m := hprogress (by omega)
          refine Machine.wp_mono (fun _ => (harrives.grows.trans hgrows₂).trans) ?_
            (fetchPages_spec hmay fuel hpage.le_length)
          rintro r w₃ hgrows₃ ⟨hasking, hdone⟩
          refine ⟨fun hr => by have := hasking hr; omega, fun result hr => ?_⟩
          obtain ⟨n, fates', hrest, hcursor, hasked', hmessages⟩ := hdone result hr
          refine ⟨n, fates ++ fates', (hpage.extend hgrows₃.log).append hrest, hcursor, ?_, ?_⟩
          · rw [hasked', hasked, List.append_assoc]
          · rw [hmessages, hms, List.filterMap_append, JmapClient.inboxMessages_append,
              List.append_assoc]
        · refine ⟨harrives.grows.trans hgrows₂, (fun hr => by cases hr), fun result hr => ?_⟩
          cases hr
          exact ⟨m, fates, hpage, rfl, hasked, by rw [hms]⟩

/-- The cursor is a state that the server has been in. -/
def JmapServer.CursorAt (states : ServerStates) (w : JmapServer) (i : Nat) : Prop :=
  w.cursor = some (states.name i) ∧ i ≤ w.length

theorem JmapServer.CursorAt.grows {i : Nat} (h : w.CursorAt states i) (hg : w.Grows w₀) :
    w₀.CursorAt states i :=
  ⟨hg.cursor.trans h.1, Nat.le_trans h.2 hg.length_le⟩

/-- What one call of `poll_batch` does: nothing to the cursor, if it raises or is still asking; or
it takes a baseline, where there was no cursor; or it moves the cursor over a window, and returns
what is left of the window in the Inbox. -/
inductive Polled (states : ServerStates) (may : Fate → Prop) (client : JmapClient) (fuel : Nat)
    (w : JmapServer) : Except Exn (Option MessageBatch) → JmapServer → Prop where
  | raised {e : Exn} {w' : JmapServer} (h : w.Grows w') :
      Polled states may client fuel w (.error e) w'
  | asking {i : Nat} {w' : JmapServer} (hi : w.cursor = some (states.name i)) (h : w.Grows w')
      (hfuel : i + fuel ≤ w'.length) : Polled states may client fuel w (.ok none) w'
  | baseline {n : Nat} {w' : JmapServer} (hcursor : w.cursor = none)
      (hlog : w.log.emails <+: w'.log.emails) (hn : w.length ≤ n) (hn' : w'.CursorAt states n)
      (hat : w'.baselineAt = some n) (hpassed : w'.passed = w.passed) :
      Polled states may client fuel w (.ok (some ⟨[], some (states.name n)⟩)) w'
  | window {i j : Nat} {fates : List Fate} {w' : JmapServer} (hi : w.cursor = some (states.name i))
      (hfates : Fetched may w'.log.emails i j fates) (hj : w'.CursorAt states j)
      (hlog : w.log.emails <+: w'.log.emails) (hat : w'.baselineAt = w.baselineAt)
      (hpassed : w'.passed = w.passed ++ fates) :
      Polled states may client fuel w
        (.ok (some ⟨client.inboxMessages (fates.filterMap Prod.snd), some (states.name j)⟩)) w'

/-- Mail that has arrived before a call makes no difference to what the call does. -/
theorem Polled.of_grows {fuel : Nat} {r : Except Exn (Option MessageBatch)} {w' : JmapServer}
    (h : Polled states may client fuel w₀ r w') (hg : w.Grows w₀) :
    Polled states may client fuel w r w' := by
  cases h with
  | raised h => exact .raised (hg.trans h)
  | asking hi h hfuel => exact .asking (hg.cursor ▸ hi) (hg.trans h) hfuel
  | baseline hcursor hlog hn hn' hat hpassed =>
    exact .baseline (hg.cursor ▸ hcursor) (hg.log.trans hlog) (Nat.le_trans hg.length_le hn) hn' hat
      (hpassed.trans hg.passed)
  | window hi hfates hj hlog hat hpassed =>
    exact .window (hg.cursor ▸ hi) hfates hj (hg.log.trans hlog) (hat.trans hg.baselineAt)
      (hg.passed ▸ hpassed)

/-- Mail that arrives after a call makes no difference either. -/
theorem Polled.then_grows {fuel : Nat} {r : Except Exn (Option MessageBatch)}
    {w' w'' : JmapServer}
    (h : Polled states may client fuel w r w') (hg : w'.Grows w'') :
    Polled states may client fuel w r w'' := by
  cases h with
  | raised h => exact .raised (h.trans hg)
  | asking hi h hfuel => exact .asking hi (h.trans hg) (Nat.le_trans hfuel hg.length_le)
  | baseline hcursor hlog hn hn' hat hpassed =>
    exact .baseline hcursor (hlog.trans hg.log) hn (hn'.grows hg) (hg.baselineAt.trans hat)
      (hg.passed.trans hpassed)
  | window hi hfates hj hlog hat hpassed =>
    exact .window hi (hfates.extend hg.log) (hj.grows hg) (hlog.trans hg.log)
      (hg.baselineAt.trans hat) (hg.passed.trans hpassed)

/-- The cursor is none, or a state that the server has been in. -/
def JmapServer.Synced (states : ServerStates) (w : JmapServer) : Prop :=
  w.cursor = none ∨ ∃ i, w.CursorAt states i

theorem JmapServer.Synced.grows (h : w.Synced states) (hg : w.Grows w₀) : w₀.Synced states :=
  h.imp hg.cursor.trans fun ⟨i, hi⟩ => ⟨i, hi.grows hg⟩

/-- `Email/get(ids=[])` answers with the current state. -/
theorem baseline_spec :
    (jmapMachine states may).wp (fun w' => w'.cursor = w.cursor) JmapClient.baseline
      (fun r w' => (∀ e, r = .error e → w.Grows w') ∧
        ∀ result, r = .ok result → result.messages = [] ∧ w.log.emails <+: w'.log.emails ∧
          w.length ≤ w'.length ∧ result.cursor = states.name w'.length ∧
          w'.baselineAt = some w'.length ∧ w'.asked = w.asked ∧ w'.passed = w.passed) w := by
  unfold JmapClient.baseline
  refine wp_request_bind rfl rfl (fun e w' h =>
    ⟨h.cursor, fun _ _ => h.grows, (fun _ hr => by cases hr)⟩) ?_
  intro a w₁ w' harrives h
  cases h with
  | get hne => exact absurd rfl hne
  | baseline =>
    have hstate :
        (some (states.name w₁.length)).filter (· ≠ "") = some (states.name w₁.length) := by
      simp [states.nonempty]
    rw [hstate, require_some]
    refine ⟨harrives.cursor, (fun _ hr => by cases hr), fun result hr => ?_⟩
    cases hr
    exact ⟨rfl, harrives.log, harrives.grows.length_le, rfl, rfl, harrives.asked, harrives.passed⟩

/-- **One fetch.** -/
theorem fetchNewMessages_spec (hmay : KeepsIds may) (hw : w.Synced states) (hasked : w.asked = [])
    (fuel : Nat) :
    (jmapMachine states may).wp (fun w' => w'.cursor = w.cursor)
      (client.fetchNewMessages fuel w.cursor)
      (fun r w' => (∀ e, r = .error e → w.Grows w') ∧
        (r = .ok none →
          ∃ i, w.cursor = some (states.name i) ∧ w.Grows w' ∧ i + fuel ≤ w'.length) ∧
        ∀ result, r = .ok (some result) →
          Polled states may client fuel w (.ok (some ⟨result.messages, some result.cursor⟩))
            { w' with cursor := some result.cursor, passed := w'.passed ++ w'.asked }) w := by
  unfold JmapClient.fetchNewMessages
  rcases hw with hnone | ⟨i, hi, hlen⟩
  · rw [hnone]
    show (jmapMachine states may).wp _ (JmapClient.baseline >>= fun result => pure (some result)) _
      _
    rw [Machine.wp_bind]
    refine Machine.wp_mono (fun _ h => h.trans hnone) ?_ (baseline_spec (w := w))
    rintro r w' hcursor ⟨herr, hdone⟩
    cases r with
    | error e =>
      refine ⟨hcursor.trans hnone, fun _ _ => herr e rfl, (fun hr => by cases hr),
        (fun _ hr => by cases hr)⟩
    | ok result =>
      refine ⟨hcursor.trans hnone, (fun _ hr => by cases hr), (fun hr => by cases hr),
        fun result' hr => ?_⟩
      cases hr
      obtain ⟨hmessages, hlog, hlen, hname, hat, hasked', hpassed⟩ := hdone result rfl
      rw [hmessages, hname]
      refine .baseline hnone hlog hlen ⟨rfl, Nat.le_refl _⟩ hat ?_
      rw [hasked', hasked, hpassed, List.append_nil]
  · rw [hi]
    refine Machine.wp_mono (fun _ h => h.cursor.trans hi) ?_ (fetchPages_spec hmay fuel hlen)
    rintro r w' hgrows ⟨hasking, hdone⟩
    refine ⟨fun _ _ => hgrows, fun hr => ⟨i, rfl, hgrows, hasking hr⟩, fun result hr => ?_⟩
    obtain ⟨m, fates, hfates, hcursor, hasked', hmessages⟩ := hdone result hr
    rw [hmessages, hcursor, List.nil_append]
    refine .window hi hfates ⟨rfl, hfates.le_length⟩ hgrows.log hgrows.baselineAt ?_
    rw [hasked', hasked, hgrows.passed, List.nil_append]

/-- Waiting is not a request, but mail may arrive. -/
theorem wait_spec {op : JmapOp} (hop : op = .pushWait ∨ op = .timerWait) :
    (jmapMachine states may).wp w.Grows (JmapClient.call op) (fun _ _ => True) w := by
  refine ⟨.refl w, fun r w' hcall => ?_⟩
  obtain ⟨w₁, hw₁, hcall⟩ := hcall
  obtain rfl | rfl := hop <;> cases hcall <;> exact ⟨hw₁.grows, trivial⟩

/-- **One call of a source**, whose trigger does nothing to the server. -/
theorem jmapCheckpointedSource_spec (hmay : KeepsIds may) {trigger : Trigger}
    (hw : w.Synced states) (fuel : Nat)
    (htrigger : (jmapMachine states may).wp w.Grows trigger.wait (fun _ _ => True) w) :
    (jmapMachine states may).wp (fun _ => True)
      ((jmapCheckpointedSource client trigger).pollBatch fuel)
      (Polled states may client fuel w) w := by
  unfold jmapCheckpointedSource
  rw [Machine.wp_bind]
  refine Machine.wp_mono (fun _ _ => trivial) ?_ htrigger
  intro r w₁ hw₁ _
  cases r with
  | error e => exact ⟨trivial, .raised hw₁⟩
  | ok _ =>
    simp only [Prog.onValue]
    refine Machine.wp_perform_bind trivial ?_ fun e w' hcall => ?_
    · rintro _ w' ⟨w₂, hw₂, hcall⟩
      cases hcall
      have hgrows : w.Grows { w₂ with asked := [] } :=
        hw₁.trans ⟨hw₂.log, hw₂.cursor, hw₂.baselineAt, hw₂.passed⟩
      rw [Machine.wp_bind]
      refine Machine.wp_mono (fun _ _ => trivial) ?_
        (fetchNewMessages_spec hmay (hw.grows hgrows) rfl fuel)
      rintro r w₃ hcursor ⟨herr, hasking, hdone⟩
      match r with
      | .error e => exact ⟨trivial, .raised (hgrows.trans (herr e rfl))⟩
      | .ok none =>
        obtain ⟨i, hi, hw₃, hfuel⟩ := hasking rfl
        exact ⟨trivial, .asking (hgrows.cursor ▸ hi) (hgrows.trans hw₃) hfuel⟩
      | .ok (some result) =>
        refine Machine.wp_perform_bind trivial ?_ fun e w' hcall => ?_
        · rintro _ w' ⟨w₄, hw₄, hcall⟩
          cases hcall
          refine ⟨trivial, Polled.of_grows ?_ hgrows⟩
          refine (hdone result rfl).then_grows ⟨hw₄.log, rfl, hw₄.baselineAt, ?_⟩
          show w₄.passed ++ w₄.asked = w₃.passed ++ w₃.asked
          rw [hw₄.passed, hw₄.asked]
        · obtain ⟨_, _, hcall⟩ := hcall
          cases hcall with
          | fails _ hop => cases hop
    · obtain ⟨_, _, hcall⟩ := hcall
      cases hcall with
      | fails _ hop => cases hop

/-- **One call of `poll_batch`**, whichever source answers it. -/
theorem pollBatch_spec (hmay : KeepsIds may) (hw : w.Synced states) (fuel : Nat) :
    (jmapMachine states may).wp (fun _ => True) ((buildCheckpointedSource client).pollBatch fuel)
      (Polled states may client fuel w) w := by
  unfold buildCheckpointedSource checkpointedFallbackSource
  rw [Machine.wp_tryCatch]
  refine Machine.wp_mono (fun _ h => h) ?_
    (jmapCheckpointedSource_spec hmay hw fuel (wait_spec (.inl rfl)))
  intro r w₁ _ hpolled
  cases r with
  | ok batch => exact ⟨trivial, hpolled⟩
  | error e =>
    cases hpolled with
    | raised h =>
      simp only [Prog.onError]
      split
      · refine Machine.wp_mono (fun _ h => h) (fun _ _ _ hpolled => Polled.of_grows hpolled h) ?_
        exact jmapCheckpointedSource_spec hmay (hw.grows h) fuel (wait_spec (.inr rfl))
      · exact ⟨trivial, .raised h⟩

end Call

/-! ## A failed request is the end of its call -/

section Failing

variable {client : JmapClient}

/-- What `_request` makes of an error. -/
def requestError (e : Exn) : Exn := jmapError ("JMAP request failed: " ++ e.message)

/-- A request that fails ends the program. -/
abbrev RequestsFatal {α : Type} (p : JmapProc α) : Prop :=
  Prog.FailsWith (fun op : JmapOp => op.isRequest = true) requestError p

theorem request_failsWith {op : JmapOp} :
    RequestsFatal (JmapClient.request op) :=
  ⟨fun _ _ => rfl, fun r => by cases r <;> trivial⟩

theorem call_failsWith {op : JmapOp} (hop : op.isRequest = false) :
    RequestsFatal (JmapClient.call op) :=
  ⟨fun h => by simp [hop] at h, fun _ => trivial⟩

theorem require_failsWith {α : Type} {message : String} {a : Option α} :
    RequestsFatal (JmapClient.require message a) := by
  cases a <;> trivial

theorem pageMessages_failsWith {created : List String} :
    RequestsFatal (client.pageMessages created) := by
  unfold JmapClient.pageMessages
  split
  · trivial
  · exact request_failsWith.bind fun _ => require_failsWith.bind fun _ => trivial

theorem fetchPages_failsWith : ∀ (fuel : Nat) {cursor : String} {messages : List NormalizedMessage},
    RequestsFatal (client.fetchPages fuel cursor messages)
  | 0, _, _ => trivial
  | fuel + 1, cursor, messages => by
    unfold JmapClient.fetchPages
    refine request_failsWith.bind fun _ => require_failsWith.bind fun _ =>
      require_failsWith.bind fun _ => require_failsWith.bind fun hasMore =>
        pageMessages_failsWith.bind fun new => ?_
    split
    · exact fetchPages_failsWith fuel
    · trivial

theorem fetchNewMessages_failsWith {fuel : Nat} {cursor : Option String} :
    RequestsFatal (client.fetchNewMessages fuel cursor) := by
  cases cursor with
  | none =>
    exact Prog.FailsWith.bind (request_failsWith.bind fun _ =>
      require_failsWith.bind fun _ => trivial)
      fun _ => trivial
  | some cursor => exact fetchPages_failsWith fuel

theorem jmapCheckpointedSource_failsWith {trigger : Trigger} {fuel : Nat}
    (htrigger : RequestsFatal trigger.wait) :
    RequestsFatal ((jmapCheckpointedSource client trigger).pollBatch fuel) := by
  unfold jmapCheckpointedSource
  refine htrigger.bind fun _ => ?_
  refine Prog.FailsWith.bind (call_failsWith rfl) fun cursor => ?_
  refine fetchNewMessages_failsWith.bind fun result => ?_
  cases result with
  | none => trivial
  | some result => exact Prog.FailsWith.bind (call_failsWith rfl) fun _ => trivial

/-- A request that fails ends its call of `poll_batch`: no source is asked instead. -/
theorem pollBatch_failsWith {fuel : Nat} :
    RequestsFatal ((buildCheckpointedSource client).pollBatch fuel) := by
  refine Prog.FailsWith.tryCatch (jmapCheckpointedSource_failsWith ?_) (fun e => ?_) fun e => rfl
  · exact call_failsWith rfl
  · split
    · exact jmapCheckpointedSource_failsWith (call_failsWith rfl)
    · trivial

end Failing

/-! ## An email in an Inbox -/

/-- States that are named in unary. -/
def unaryStates : ServerStates where
  name n := String.ofList (List.replicate (n + 1) 's')
  injective n m h := by
    have hlists := congrArg (fun s => s.toList.length) h
    simpa using hlists
  nonempty n h := by
    have hlists := congrArg (fun s => s.toList.length) h
    simp at hlists

/-- A client whose Inbox is called so. -/
def inboxClient : JmapClient := ⟨"account", "inbox"⟩

/-- An email in that Inbox. -/
def newEmail : JmapEmail :=
  { id := some "m1", threadId := some "t1", mailboxIds := some [("inbox", true)] }

/-! ## A process -/

/-- The batches are the consecutive windows of the log from state `i` to state `j`, each with the
state at its end as its checkpoint. -/
inductive Delivers (states : ServerStates) (client : JmapClient) (log : List JmapEmail) :
    Nat → List MessageBatch → Nat → Prop where
  | nil {i : Nat} : Delivers states client log i [] i
  | cons {i j k : Nat} {batches : List MessageBatch} (hij : i ≤ j)
      (hs : Delivers states client log j batches k) :
      Delivers states client log i
        (⟨client.inboxMessages (slice log i j), some (states.name j)⟩ :: batches) k

section Process

variable {states : ServerStates} {may : Fate → Prop} {client : JmapClient}

/-- The batches are consecutive parts of what was fetched from state `i` to state `j`, each with
what is left of it in the Inbox, and with the state at its end as its checkpoint. -/
inductive Cuts (states : ServerStates) (client : JmapClient) :
    Nat → List Fate → List MessageBatch → Nat → Prop where
  | nil {i : Nat} : Cuts states client i [] [] i
  | cons {i j : Nat} {fates rest : List Fate} {batches : List MessageBatch}
      (hs : Cuts states client (i + fates.length) rest batches j) :
      Cuts states client i (fates ++ rest)
        (⟨client.inboxMessages (fates.filterMap Prod.snd), some (states.name (i + fates.length))⟩ ::
          batches) j

section Cuts

variable {i j : Nat} {fates : List Fate} {batches : List MessageBatch}

/-- Together they are what is left of all of it. -/
theorem Cuts.messages (h : Cuts states client i fates batches j) :
    batches.flatMap MessageBatch.messages = client.inboxMessages (fates.filterMap Prod.snd) := by
  induction h with
  | nil => rfl
  | cons hs ih =>
    rw [List.flatMap_cons, ih, List.filterMap_append, JmapClient.inboxMessages_append]

/-- If the emails stay, the parts are windows of the log. -/
theorem Cuts.delivers {log : List JmapEmail} (h : Cuts states client i fates batches j)
    (hfates : Fetched Stays log i j fates) : Delivers states client log i batches j := by
  induction h with
  | nil => exact .nil
  | cons hs ih =>
    obtain ⟨hfirst, hrest⟩ := hfates.split
    rw [filterMap_stays hfirst.fates, hfirst.emails]
    exact .cons hfirst.le (ih hrest)

end Cuts

theorem Delivers.le {log : List JmapEmail} {i j : Nat} {batches : List MessageBatch}
    (h : Delivers states client log i batches j) : i ≤ j := by
  induction h with
  | nil => exact Nat.le_refl _
  | cons hij _ ih => exact Nat.le_trans hij ih

/-- Consecutive windows are one window. -/
theorem Delivers.messages {log : List JmapEmail} {i j : Nat} {batches : List MessageBatch}
    (h : Delivers states client log i batches j) :
    batches.flatMap MessageBatch.messages = client.inboxMessages (slice log i j) := by
  induction h with
  | nil => simp
  | cons hij hs ih =>
    rw [List.flatMap_cons, ih, ← JmapClient.inboxMessages_append, slice_append_slice hij hs.le]

/-- A message keeps the id of its email. -/
theorem map_messageId : ∀ {es : List JmapEmail},
    (∀ e ∈ es, ∃ id threadId, e.id = some id ∧ e.threadId = some threadId) →
      (client.inboxMessages es).map (fun m => some m.messageId)
        = (es.filter (·.isInbox client.inboxId)).map JmapEmail.id
  | [], _ => rfl
  | e :: es, h => by
    have ih := map_messageId fun e he => h e (List.mem_cons_of_mem _ he)
    obtain ⟨m, hm, hid⟩ := JmapEmail.normalize_ok (h e List.mem_cons_self)
    rw [JmapClient.inboxMessages] at ih ⊢
    rw [List.filter_cons]
    split
    · rw [List.filterMap_cons, hm, List.map_cons, ← ih, hid]
      rfl
    · exact ih

/-- The Inbox messages of a window have ids of their own. -/
theorem MailLog.nodup_inboxMessages (log : MailLog) (i j : Nat) :
    ((client.inboxMessages (slice log.emails i j)).map NormalizedMessage.messageId).Nodup := by
  have hids : (client.inboxMessages (slice log.emails i j)).map (fun m => some m.messageId) = _ :=
    map_messageId fun e he => log.named e (slice_subset he)
  refine List.Nodup.of_map some ?_
  rw [List.map_map]
  exact hids ▸ log.distinct.sublist ((List.filter_sublist.trans slice_sublist).map _)

/-- What a process that began with its cursor at `i` has made of its calls. -/
structure AskedFor (states : ServerStates) (may : Fate → Prop) (client : JmapClient) (i : Nat)
    (w w' : JmapServer) (batches : List MessageBatch) (j : Nat) (fates : List Fate) : Prop where
  cursor : w'.CursorAt states j
  log : w.log.emails <+: w'.log.emails
  baselineAt : w'.baselineAt = w.baselineAt
  passed : w'.passed = w.passed ++ fates
  fetched : Fetched may w'.log.emails i j fates
  cuts : Cuts states client i fates batches j

theorem AskedFor.of_grows {w w₁ w' : JmapServer} {batches : List MessageBatch} {i j : Nat}
    {fates : List Fate} (h : AskedFor states may client i w₁ w' batches j fates) (hg : w.Grows w₁) :
    AskedFor states may client i w w' batches j fates :=
  { h with
    log := hg.log.trans h.log
    baselineAt := h.baselineAt.trans hg.baselineAt
    passed := hg.passed ▸ h.passed }

/-- **A process asks for everything once.**  Its batches are consecutive parts of what it fetched,
from the cursor that it started with to the last checkpoint. -/
theorem polls_asks (hmay : KeepsIds may) {w w' : JmapServer} {batches : List MessageBatch}
    (h : Polls states may client w batches w') {i : Nat} (hi : w.CursorAt states i) :
    ∃ j fates, AskedFor states may client i w w' batches j fates := by
  induction h generalizing i with
  | nil =>
    exact ⟨i, [], hi, List.prefix_refl _, rfl, (List.append_nil _).symm, .nil hi.2, .nil⟩
  | returns h hs ih =>
    have hpolled := (Machine.wp_reaches (pollBatch_spec hmay (.inr ⟨i, hi⟩) _) h).2
    cases hpolled with
    | baseline hnone => exact absurd (hnone.symm.trans hi.1) (by simp)
    | @window i' j fates _ hi' hfates hj hlog hat hpassed =>
      have hsame : i' = i := states.injective (Option.some.inj (hi'.symm.trans hi.1))
      subst hsame
      obtain ⟨k, rest, hrest⟩ := ih hj
      obtain rfl := hfates.length
      refine ⟨k, fates ++ rest, hrest.cursor, hlog.trans hrest.log, hrest.baselineAt.trans hat, ?_,
        (hfates.extend hrest.log).append hrest.fetched, .cons hrest.cuts⟩
      rw [hrest.passed, hpassed, List.append_assoc]
  | raises h _ ih =>
    have hpolled := (Machine.wp_reaches (pollBatch_spec hmay (.inr ⟨i, hi⟩) _) h).2
    cases hpolled with
    | raised h =>
      obtain ⟨j, fates, hasked⟩ := ih (hi.grows h)
      exact ⟨j, fates, hasked.of_grows h⟩
  | arrives h _ ih =>
    obtain ⟨j, fates, hasked⟩ := ih (hi.grows h.grows)
    exact ⟨j, fates, hasked.of_grows h.grows⟩

/-- **Every new Inbox message is delivered exactly once.**  Whatever sequence of calls of
`poll_batch` a process makes, from a cursor that is a state of the server, with whatever pages,
disconnects, arrivals and failures: its batches cut the log into consecutive windows, each up to its
own checkpoint, and together they are the Inbox messages between the first cursor and the last
checkpoint, in order and without repetition.  And in the next call, a request that raises makes the
call raise, with the cursor where it was, and a call goes on for more than `fuel` pages only if
there is that much mail. -/
theorem poll_batches_exactly_once {w w' : JmapServer} {batches : List MessageBatch} {i : Nat}
    (hcursor : w.cursor = some (states.name i)) (hi : i ≤ w.length)
    (h : Polls states Stays client w batches w') :
    (∃ j, w'.cursor = some (states.name j) ∧ i ≤ j ∧ j ≤ w'.length ∧
      Delivers states client w'.log.emails i batches j ∧
      batches.flatMap MessageBatch.messages
        = client.inboxMessages (slice w'.log.emails i j) ∧
      ((batches.flatMap MessageBatch.messages).map NormalizedMessage.messageId).Nodup ∧
      ∀ fuel w₁, (jmapMachine states Stays).Reaches
        ((buildCheckpointedSource client).pollBatch fuel) w' (.done (.ok none)) w₁ →
        j + fuel ≤ w₁.length) ∧
    (∀ fuel e w₁, (jmapMachine states Stays).Reaches
      ((buildCheckpointedSource client).pollBatch fuel) w' (.done (.error e)) w₁ →
      w₁.cursor = w'.cursor) ∧
    ∀ fuel op k e w₁ w₂ r w₃, op.isRequest = true →
      (jmapMachine states Stays).Reaches ((buildCheckpointedSource client).pollBatch fuel) w'
        (.call op k) w₁ →
      jmapMachine states Stays w₁ op (.error e) w₂ →
      (jmapMachine states Stays).Reaches (k (.error e)) w₂ (.done r) w₃ →
      r = .error (requestError e) ∧ w₃.cursor = w'.cursor := by
  obtain ⟨j, fates, hasked⟩ := polls_asks keepsIds_stays h ⟨hcursor, hi⟩
  have hj := hasked.cursor
  have hdelivers := hasked.cuts.delivers hasked.fetched
  have hpolled : ∀ {fuel r w₁}, (jmapMachine states Stays).Reaches
      ((buildCheckpointedSource client).pollBatch fuel) w' (.done r) w₁ →
      Polled states Stays client fuel w' r w₁ :=
    fun hr => (Machine.wp_reaches (pollBatch_spec keepsIds_stays (.inr ⟨j, hj⟩) _) hr).2
  have hraises : ∀ {fuel e w₁}, (jmapMachine states Stays).Reaches
      ((buildCheckpointedSource client).pollBatch fuel) w' (.done (.error e)) w₁ →
      w₁.cursor = w'.cursor := by
    intro fuel e w₁ hr
    cases hpolled hr with
    | raised h => exact h.cursor
  refine ⟨⟨j, hj.1, hdelivers.le, hj.2, hdelivers, hdelivers.messages, ?_, ?_⟩, ?_, ?_⟩
  · rw [hdelivers.messages]
    exact w'.log.nodup_inboxMessages i j
  · intro fuel w₁ hr
    cases hpolled hr with
    | @asking i' _ hi' _ hfuel =>
      have hsame : i' = j := states.injective (Option.some.inj (hi'.symm.trans hj.1))
      exact hsame ▸ hfuel
  · exact fun fuel e w₁ hr => hraises hr
  · intro fuel op k e w₁ w₂ r w₃ hop hr hcall hrest
    have hend : k (.error e) = .done (.error (requestError e)) :=
      (Machine.failsWith_reaches pollBatch_failsWith hr).1 hop e
    have hrun : (jmapMachine states Stays).Reaches
        ((buildCheckpointedSource client).pollBatch fuel) w' (.done r) w₃ :=
      (hr.tail (.call hcall)).trans hrest
    rw [hend] at hrest
    cases hrest.cases_head with
    | inl heq =>
      injection heq with hdone hworld
      injection hdone with hr
      subst hr
      exact ⟨rfl, hraises hrun⟩
    | inr hstep =>
      obtain ⟨_, hstep, _⟩ := hstep
      cases hstep

/-- An email outside the Inbox, and a later one in it. -/
def laterEmails : List JmapEmail :=
  [{ id := some "m2", threadId := some "t2", mailboxIds := some [("archive", true)] },
    { id := some "m3", threadId := some "t3", mailboxIds := some [("inbox", true)] }]

/-- The log when the first `n` of three emails have been created. -/
def mailUpTo (n : Nat) : MailLog where
  emails := (newEmail :: laterEmails).take n
  named e he := by
    have hall : ∀ e ∈ newEmail :: laterEmails, ∃ id threadId, e.id = some id ∧
        e.threadId = some threadId := by simp [newEmail, laterEmails]
    exact hall e (List.mem_of_mem_take he)
  distinct := by
    have hall : ((newEmail :: laterEmails).map JmapEmail.id).Nodup := by
      simp [newEmail, laterEmails]
    exact hall.sublist ((List.take_sublist _ _).map _)

/-- These emails, as they were created. -/
def asCreated (emails : List JmapEmail) : List Fate := emails.map fun e => (e, some e)

theorem asCreated_answers {log : MailLog} {emails : List JmapEmail}
    (h : ∀ e ∈ emails, e ∈ log.emails) :
    ∀ f ∈ asCreated emails, f.1 ∈ log.emails ∧ Stays f := by
  intro f hf
  obtain ⟨e, he, rfl⟩ := List.mem_map.1 hf
  exact ⟨h e he, rfl⟩

/-- The push connection is lost, and the timer's source fetches two emails on a page each. -/
theorem poll_two_pages :
    (jmapMachine unaryStates Stays).Reaches ((buildCheckpointedSource inboxClient).pollBatch 2)
      ⟨mailUpTo 2, some (unaryStates.name 0), none, [], []⟩
      (.done (.ok (some ⟨inboxClient.inboxMessages (mailUpTo 2).emails,
        some (unaryStates.name 2)⟩)))
      ⟨mailUpTo 2, some (unaryStates.name 2), none, asCreated (mailUpTo 2).emails,
        asCreated (mailUpTo 2).emails⟩ := by
  refine .head (.call ⟨_, .refl _, .disconnected "gone"⟩) ?_
  refine .head (.call ⟨_, .refl _, .timer⟩) ?_
  refine .head (.call ⟨_, .refl _, .cursorValue⟩) ?_
  refine .head (.call ⟨_, .refl _, .changes (Nat.zero_le 1) (by decide) fun _ => Nat.one_pos⟩) ?_
  refine .head (.call ⟨_, .refl _, .get (by simp)
    (show (asCreated [newEmail]).map (fun f => f.1.id) = _ from rfl)
    (asCreated_answers fun e he => List.mem_cons.2 (.inl (List.mem_singleton.1 he)))⟩) ?_
  refine .head (.call ⟨_, .refl _, .changes (Nat.le_succ 1) (by decide) fun _ =>
    Nat.one_lt_two⟩) ?_
  refine .head (.call ⟨_, .refl _, .get (by simp)
    (show (asCreated (laterEmails.take 1)).map (fun f => f.1.id) = _ from rfl)
    (asCreated_answers fun e he => .tail _ he)⟩) ?_
  exact .head (.call ⟨_, .refl _, .setCursorValue⟩) .refl

/-- A request that fails. -/
theorem poll_fails (fates : List Fate) :
    (jmapMachine unaryStates Stays).Reaches ((buildCheckpointedSource inboxClient).pollBatch 1)
      ⟨mailUpTo 2, some (unaryStates.name 2), none, fates, fates⟩
      (.done (.error (jmapError "JMAP request failed: timed out")))
      ⟨mailUpTo 2, some (unaryStates.name 2), none, [], fates⟩ := by
  refine .head (.call ⟨_, .refl _, .pushed⟩) ?_
  refine .head (.call ⟨_, .refl _, .cursorValue⟩) ?_
  exact .head (.call ⟨_, .refl _, .fails ⟨.other "TimeoutError", "timed out"⟩ rfl⟩) .refl

/-- A push event, and a third email. -/
theorem poll_third_email (fates : List Fate) :
    (jmapMachine unaryStates Stays).Reaches ((buildCheckpointedSource inboxClient).pollBatch 1)
      ⟨mailUpTo 3, some (unaryStates.name 2), none, [], fates⟩
      (.done (.ok (some ⟨inboxClient.inboxMessages (laterEmails.drop 1),
        some (unaryStates.name 3)⟩)))
      ⟨mailUpTo 3, some (unaryStates.name 3), none, asCreated (laterEmails.drop 1),
        fates ++ asCreated (laterEmails.drop 1)⟩ := by
  refine .head (.call ⟨_, .refl _, .pushed⟩) ?_
  refine .head (.call ⟨_, .refl _, .cursorValue⟩) ?_
  refine .head (.call ⟨_, .refl _, .changes (Nat.le_succ 2) (Nat.le_refl 3) fun _ =>
    Nat.lt_succ_self 2⟩) ?_
  refine .head (.call ⟨_, .refl _, .get (by simp)
    (show (asCreated (laterEmails.drop 1)).map (fun f => f.1.id) = _ from rfl)
    (asCreated_answers fun e he => .tail _ (List.mem_of_mem_drop he))⟩) ?_
  exact .head (.call ⟨_, .refl _, .setCursorValue⟩) .refl

/-- Two pages behind a lost connection, a failed call, a new email and a third page: the emails of
the Inbox have been delivered, and the other one has not. -/
theorem poll_batches_exactly_once_three_emails :
    ∃ w' batches, Polls unaryStates Stays inboxClient
        ⟨mailUpTo 2, some (unaryStates.name 0), none, [], []⟩ batches w' ∧
      Delivers unaryStates inboxClient w'.log.emails 0 batches 3 ∧
      (batches.flatMap MessageBatch.messages).map NormalizedMessage.messageId = ["m1", "m3"] := by
  have harrives : JmapServer.Arrives
      ⟨mailUpTo 2, some (unaryStates.name 2), none, [], asCreated (mailUpTo 2).emails⟩
      ⟨mailUpTo 3, some (unaryStates.name 2), none, [], asCreated (mailUpTo 2).emails⟩ :=
    ⟨List.take_prefix_take_left (by decide), rfl, rfl, rfl, rfl⟩
  have hrun : Polls unaryStates Stays inboxClient
      ⟨mailUpTo 2, some (unaryStates.name 0), none, [], []⟩ _ _ :=
    .returns poll_two_pages
      (.raises (poll_fails _) (.arrives harrives (.returns (poll_third_email _) .nil)))
  obtain ⟨⟨j, hj, -, -, hdelivers, -⟩, -⟩ := poll_batches_exactly_once rfl (Nat.zero_le _) hrun
  obtain rfl : 3 = j := unaryStates.injective (Option.some.inj hj)
  exact ⟨_, _, hrun, hdelivers, rfl⟩

end Process

end Spork
