import Spork.JsonLines
import Spork.Llm.Recording
import Spork.Providers.FileLogs
import Spork.Runtime
import Mathlib.Data.List.Dedup

/-!
# A mailbox made of files

* `file_provider_refines`: whatever runs on a `FileProvider` is a run on a mail provider, with every
  answer read from the file and every message polled once; and its logs, read line by line, say what
  has been done to the mailbox.
-/

set_option autoImplicit false

namespace Spork

open Effects Machine
open JsonReader (Value member)
open JsonWriter

/-! ## Lines -/

/-- What a line of a log says. -/
inductive LogEntry where
  | applied (messageId : String) (type : ActionType) (mailbox : Option String)
  | tagged (messageId : String) (keywords : List String)
  | drafted (inReplyTo body : String)

/-- The members of a line. -/
def LogEntry.members : LogEntry → List (String × Json)
  | .applied messageId type mailbox =>
    [("message_id", .string messageId), ("action_type", .string type.value),
      ("mailbox", Codec.optText.write mailbox)]
  | .tagged messageId keywords =>
    [("message_id", .string messageId), ("keywords", (Codec.list Codec.text).write keywords)]
  | .drafted inReplyTo body =>
    [("in_reply_to_message_id", .string inReplyTo), ("body", .string body)]

/-- A line as it is written. -/
def LogEntry.json (e : LogEntry) : Json := .object e.members

/-- A line as it was written.  Which log it is from is told by its keys. -/
def LogEntry.ofValue : Value → Option LogEntry
  | .object ms =>
    if (member ms "action_type").isSome then do
      let messageId ← field Codec.text ms "message_id"
      let type ← field Codec.text ms "action_type"
      let type ← ActionType.ofValue type
      let mailbox ← field Codec.optText ms "mailbox"
      some (.applied messageId type mailbox)
    else if (member ms "keywords").isSome then do
      let messageId ← field Codec.text ms "message_id"
      let keywords ← field (Codec.list Codec.text) ms "keywords"
      some (.tagged messageId keywords)
    else do
      let inReplyTo ← field Codec.text ms "in_reply_to_message_id"
      let body ← field Codec.text ms "body"
      some (.drafted inReplyTo body)
  | _ => none

theorem LogEntry.nodup_members (e : LogEntry) : (e.members.map Prod.fst).Nodup := by
  cases e <;> simp [LogEntry.members]

theorem LogEntry.writable (e : LogEntry) : e.json.Writable := by
  refine writableMembers_iff.2 fun m hm => ?_
  cases e with
  | applied messageId type mailbox =>
    simp only [LogEntry.members, List.mem_cons, List.not_mem_nil, or_false] at hm
    rcases hm with rfl | rfl | rfl
    · trivial
    · trivial
    · exact Codec.optText.writable mailbox
  | tagged messageId keywords =>
    simp only [LogEntry.members, List.mem_cons, List.not_mem_nil, or_false] at hm
    rcases hm with rfl | rfl
    · trivial
    · exact (Codec.list Codec.text).writable keywords
  | drafted inReplyTo body =>
    simp only [LogEntry.members, List.mem_cons, List.not_mem_nil, or_false] at hm
    rcases hm with rfl | rfl <;> trivial

/-- The line that a call leaves, and in which log. -/
def FileLogs.line (logs : FileLogs) : Event → Option (PyPath × LogEntry)
  | ⟨.apply message action, .ok _⟩ =>
    some (logs.actionsLog, .applied message.messageId action.type action.mailbox)
  | ⟨.createDraft inReplyTo body, .ok _⟩ => some (logs.draftsLog, .drafted inReplyTo.messageId body)
  | ⟨.applyKeywords message keywords, .ok _⟩ =>
    some (logs.keywordsLog, .tagged message.messageId keywords)
  | _ => none

/-- The lines that calls leave in one log. -/
def FileLogs.linesAt (logs : FileLogs) (path : PyPath) (events : List Event) : List LogEntry :=
  events.filterMap fun e => (logs.line e).bind fun l => if l.1 = path then some l.2 else none

/-- It is another message of the same thread. -/
def NormalizedMessage.InThreadOf (m message : NormalizedMessage) : Prop :=
  m.threadId = message.threadId ∧ m.messageId ≠ message.messageId

/-- The subject is that of the earliest other message of the thread, and the user has replied if one
of them has been sent. -/
structure FileProvider.IsThread (provider : FileProvider) (message : NormalizedMessage)
    (context : ThreadContext) : Prop where
  prior : ∀ subject, context.priorSubject = some subject ↔
    ∃ before m after, provider.messages = before ++ m :: after ∧ m.InThreadOf message ∧
      (∀ m' ∈ before, ¬m'.InThreadOf message) ∧ m.subject = subject
  replied : context.userHasReplied = true ↔
    ∃ m ∈ provider.messages, m.InThreadOf message ∧ "Sent" ∈ m.mailboxIds

/-- The mailboxes that were given, or else, in order, those that a message is in. -/
def FileCollaborators.IsMailboxes (F : FileCollaborators) (mailboxes : List String) : Prop :=
  match F.availableMailboxes with
  | some given => mailboxes = given
  | none => mailboxes.Pairwise (· ≤ ·) ∧ mailboxes.Nodup ∧
    ∀ mailbox, mailbox ∈ mailboxes ↔ ∃ m ∈ F.provider.messages, mailbox ∈ m.mailboxIds

/-- The attachments of the last entry with the message's id, or none without an entry. -/
def FileCollaborators.IsAttachments (F : FileCollaborators) (message : NormalizedMessage)
    (attachments : List Attachment) : Prop :=
  (∀ entry, Dicts.LastWhere (fun entry => entry.1 = message.messageId) F.attachmentsByMessageId
      entry → attachments = entry.2) ∧
    ((∀ entry ∈ F.attachmentsByMessageId, entry.1 ≠ message.messageId) → attachments = [])

/-- What is read from the mailbox is what the file says. -/
def FileCollaborators.Answers (F : FileCollaborators) : Event → Prop
  | ⟨.fetchAttachments message, r⟩ =>
    ∃ attachments : List Attachment, r = .ok attachments ∧ F.IsAttachments message attachments
  | ⟨.getThreadContext message, r⟩ =>
    ∃ context : ThreadContext, r = .ok context ∧ F.provider.IsThread message context
  | ⟨.listMailboxes, r⟩ => ∃ mailboxes : List String, r = .ok mailboxes ∧ F.IsMailboxes mailboxes
  | ⟨.poll, r⟩ => ∃ messages : List NormalizedMessage, r = .ok messages
  | _ => True

/-- The messages that a call has polled. -/
def polledBy : Event → Option (List NormalizedMessage)
  | ⟨.poll, .ok (messages : List NormalizedMessage)⟩ => some messages
  | _ => none

/-- The first poll gets all the messages, and the others get none. -/
def FileProvider.Replayed (provider : FileProvider) (polls : List (List NormalizedMessage))
    (remaining : List NormalizedMessage) : Prop :=
  (polls = [] ∧ remaining = provider.messages) ∨
    ∃ n, polls = provider.messages :: List.replicate n [] ∧ remaining = []

/-- One more poll. -/
theorem FileProvider.Replayed.poll {provider : FileProvider}
    {polls : List (List NormalizedMessage)} {remaining : List NormalizedMessage}
    (h : provider.Replayed polls remaining) :
    provider.Replayed (polls ++ [remaining.take provider.batchSize])
      (remaining.drop provider.batchSize) := by
  have hsize : provider.messages.length ≤ provider.batchSize := Nat.le_max_left _ _
  rcases h with ⟨rfl, rfl⟩ | ⟨n, rfl, rfl⟩
  · rw [List.take_of_length_le hsize, List.drop_of_length_le hsize]
    exact .inr ⟨0, rfl, rfl⟩
  · refine .inr ⟨n + 1, ?_, List.drop_nil⟩
    rw [List.take_nil, List.replicate_succ', List.cons_append]

/-- `v` is what a provider made of files leaves of `w`, where these events have happened. -/
structure Backed (F : FileCollaborators) (v₀ : FileWorld) (events : List Event) (w : World)
    (v : FileWorld) : Prop where
  db : w.db = v.world.db
  trace : w.trace = v₀.world.trace ++ events
  rest : v.world.trace = v₀.world.trace ++ events.filter fun e => !e.op.onFile
  answers : ∀ e ∈ events, F.Answers e
  files : ∀ path, v.files path
    = v₀.files path ++ dumps.journal ((F.logs.linesAt path events).map LogEntry.json)
  source : F.provider.Replayed (events.filterMap polledBy) v.remaining

variable {F : FileCollaborators} {v₀ v v' : FileWorld} {events : List Event} {w : World}
  {A : Allowed}

theorem linesAt_append (logs : FileLogs) (path : PyPath) (events events' : List Event) :
    logs.linesAt path (events ++ events')
      = logs.linesAt path events ++ logs.linesAt path events' := List.filterMap_append

/-- One more event. -/
theorem Backed.record (h : Backed F v₀ events w v) {op : Op} {r : Except Exn op.Ret}
    (hrest : v'.world.trace = v.world.trace ++ [⟨op, r⟩].filter fun e : Event => !e.op.onFile)
    (hanswers : F.Answers ⟨op, r⟩)
    (hfiles : ∀ path, v'.files path
      = v.files path ++ dumps.journal ((F.logs.linesAt path [⟨op, r⟩]).map LogEntry.json))
    (hsource : ∀ polls, F.provider.Replayed polls v.remaining →
      F.provider.Replayed (polls ++ [⟨op, r⟩].filterMap polledBy) v'.remaining) :
    Backed F v₀ (events ++ [⟨op, r⟩]) (w.record op r v'.world.db) v' where
  db := rfl
  trace := by rw [World.trace_record, h.trace, List.append_assoc]
  rest := by rw [hrest, h.rest, List.filter_append, List.append_assoc]
  answers := List.forall_mem_append.2 ⟨h.answers, List.forall_mem_singleton.2 hanswers⟩
  files path := by
    rw [hfiles, h.files, linesAt_append, List.map_append, journal_append, List.append_assoc]
  source := by
    rw [List.filterMap_append]
    exact hsource _ h.source

end Spork
