import Spork.Dicts
import Spork.Effects.Implement
import Spork.JsonCodec
import Spork.JsonText
import Spork.Providers.Backfill
import Spork.Receipts.Archive
import Spork.World

/-!
# What the file provider builds

The collaborators of `core/providers/file/provider.py` and the source that replays the messages of
its file.  What they read comes from the messages and the attachments of one file; what they are
asked to do they append to a log of JSON lines, one log for each of them.
-/

set_option autoImplicit false

namespace Spork

open Effects
open JsonWriter (Json Codec)

/-! ## The logs -/

/-- `path.with_name(name)`. -/
def PyPath.withName (path : PyPath) (name : String) : Except Exn PyPath :=
  if path.parts = [] then
    .error ⟨.valueError, "PosixPath('" ++ path.str ++ "') has an empty name"⟩
  else .ok ⟨path.root, path.parts.dropLast ++ [name]⟩

/-- The logs of a `FileProvider`. -/
structure FileLogs where
  actionsLog : PyPath
  draftsLog : PyPath
  keywordsLog : PyPath

/-- The paths that `FileProvider.__init__` chooses. -/
def FileLogs.init (actionsLogPath : PyPath) (draftsLogPath keywordsLogPath : Option PyPath) :
    Except Exn FileLogs := do
  let draftsLog ← match draftsLogPath with
    | some path => .ok path
    | none => actionsLogPath.withName "drafts.jsonl"
  let keywordsLog ← match keywordsLogPath with
    | some path => .ok path
    | none => actionsLogPath.withName "keywords.jsonl"
  .ok ⟨actionsLogPath, draftsLog, keywordsLog⟩

/-- What a log is written with, and the next batch of the messages that are left. -/
inductive FileOp where
  | openLog (path : PyPath)
  | write (path : PyPath) (text : List Char)
  | fetch (batchSize : Nat)

/-- What each of them answers with. -/
@[reducible] def FileOp.Ret : FileOp → Type
  | .openLog _ | .write _ _ => Unit
  | .fetch _ => List NormalizedMessage

/-- The calls of the repository, and those on the files. -/
@[reducible] def fileSig : Sig := sig.over (Op ⊕ FileOp) (Sum.elim Op.Ret FileOp.Ret)

/-- A program over these calls. -/
abbrev FileProc (α : Type) : Type := Prog fileSig α

/-- `with log_path.open("a") as f: f.write(json.dumps(entry) + "\n")`. -/
def appendEntry (logPath : PyPath) (entry : List (String × Json)) : FileProc Unit := do
  let _ : Unit ← Prog.perform (S := fileSig) (.inr (.openLog logPath))
  Prog.perform (S := fileSig)
    (.inr (.write logPath (JsonWriter.write dumps (.object entry) ++ ['\n'])))

/-- `_FileActionApplier.apply`. -/
def fileApply (logPath : PyPath) (message : NormalizedMessage) (action : Action) : FileProc Unit :=
  appendEntry logPath
    [("message_id", .string message.messageId), ("action_type", .string action.type.value),
      ("mailbox", Codec.optText.write action.mailbox)]

/-- `_FileKeywordApplier.apply_keywords`. -/
def fileApplyKeywords (logPath : PyPath) (message : NormalizedMessage) (keywords : List String) :
    FileProc Unit :=
  appendEntry logPath
    [("message_id", .string message.messageId),
      ("keywords", (Codec.list Codec.text).write keywords)]

/-- `_FileDraftCreator.create_draft`. -/
def fileCreateDraft (logPath : PyPath) (inReplyTo : NormalizedMessage) (body : String) :
    FileProc Unit :=
  appendEntry logPath
    [("in_reply_to_message_id", .string inReplyTo.messageId), ("body", .string body)]

/-! ## The file -/

/-- `_FileThreadHistoryReader.get_thread_context`. -/
def FileProvider.getThreadContext (provider : FileProvider) (message : NormalizedMessage) :
    ThreadContext :=
  let others := provider.messages.filter fun m =>
    m.threadId = message.threadId ∧ m.messageId ≠ message.messageId
  { priorSubject := others.head?.map NormalizedMessage.subject
    userHasReplied := others.any fun m => "Sent" ∈ m.mailboxIds }

/-- `_FileMailboxLister.list_mailboxes`, with the list that `build_mailbox_lister` gives it. -/
def FileProvider.listMailboxes (provider : FileProvider)
    (availableMailboxes : Option (List String)) : List String :=
  match availableMailboxes with
  | some mailboxes => mailboxes
  | none => (provider.messages.flatMap NormalizedMessage.mailboxIds).dedup.insertionSort (· ≤ ·)

/-- `_FileAttachmentFetcher.fetch_attachments`, on the assignments that the dict is made by. -/
def fileFetchAttachments (attachmentsByMessageId : List (String × List Attachment))
    (message : NormalizedMessage) : List Attachment :=
  (Dicts.get attachmentsByMessageId message.messageId).getD []

/-- The batch size that `build_source` gives to the `SequenceContentFetcher`. -/
def FileProvider.batchSize (provider : FileProvider) : Nat := max provider.messages.length 1

/-- `poll` of the source that `build_source` makes: the `ImmediateTrigger` does not wait. -/
def FileProvider.poll (provider : FileProvider) : FileProc (List NormalizedMessage) :=
  Prog.perform (S := fileSig) (.inr (.fetch provider.batchSize))

/-! ## The provider -/

/-- The collaborators that a `FileProvider` builds. -/
structure FileCollaborators where
  provider : FileProvider
  attachmentsByMessageId : List (String × List Attachment)
  availableMailboxes : Option (List String)
  logs : FileLogs

/-- A call that they make. -/
def Op.onFile : Op → Bool
  | .apply _ _ | .createDraft _ _ | .applyKeywords _ _ | .fetchAttachments _
  | .getThreadContext _ | .listMailboxes | .poll => true
  | _ => false

/-- How each call is made with them. -/
def FileCollaborators.handler (F : FileCollaborators) : (op : Op) → FileProc op.Ret
  | .apply message action => fileApply F.logs.actionsLog message action
  | .createDraft inReplyTo body => fileCreateDraft F.logs.draftsLog inReplyTo body
  | .applyKeywords message keywords => fileApplyKeywords F.logs.keywordsLog message keywords
  | .fetchAttachments message => pure (fileFetchAttachments F.attachmentsByMessageId message)
  | .getThreadContext message => pure (F.provider.getThreadContext message)
  | .listMailboxes => pure (F.provider.listMailboxes F.availableMailboxes)
  | .poll => F.provider.poll
  | op => Prog.perform (S := fileSig) (.inl op)

/-- The world without the mail provider, the logs and the messages that have not been polled yet.  A
log that is not there yet is empty. -/
structure FileWorld where
  world : World
  files : PyPath → List Char
  remaining : List NormalizedMessage

/-- The text is at the end of the log. -/
def FileWorld.append (v : FileWorld) (path : PyPath) (text : List Char) : FileWorld :=
  { v with files := Function.update v.files path (v.files path ++ text) }

end Spork
