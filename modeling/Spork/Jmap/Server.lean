import Spork.Jmap.Source
import Spork.Effects.Footprint
import Spork.Windows

/-!
# An honest JMAP server

What the JMAP source relies on: the server keeps a growing log of the emails that were created,
knows its own states, and answers a request for changes with some page of the log.  How it splits
the log into pages is up to it, mail may arrive before any answer, and any request may fail.

What has become of an email by the time that it is asked for is a parameter: nothing at all, where
the log is all there is (`Stays`), or anything that its owner may do with it (`Refiled`).
-/

set_option autoImplicit false

namespace Spork

open Effects Windows

/-- The emails that were created, in order.  An email has an id of its own. -/
structure MailLog where
  emails : List JmapEmail
  named : ∀ e ∈ emails, ∃ id threadId, e.id = some id ∧ e.threadId = some threadId
  distinct : (emails.map JmapEmail.id).Nodup

/-- An empty mailbox. -/
def MailLog.empty : MailLog := ⟨[], by simp, List.nodup_nil⟩

/-- The names of the server's states: the state after `n` emails is called `name n`.  A server names
another state when an email is moved, but the source asks for what was `created` since a state, and
that depends on the emails behind it only. -/
structure ServerStates where
  name : Nat → String
  injective : Function.Injective name
  nonempty : ∀ n, name n ≠ ""

/-- An email as it was created, and as it is now if it has not been deleted. -/
abbrev Fate : Type := JmapEmail × Option JmapEmail

/-- The email is what it was. -/
def Stays (f : Fate) : Prop := f.2 = some f.1

/-- The email may have been moved to other mailboxes, or been deleted. -/
def Refiled (f : Fate) : Prop := ∀ e ∈ f.2, ∃ mailboxIds, e = { f.1 with mailboxIds := mailboxIds }

/-- The server, and the cursor that the two sources share.  On the side: the length that the log had
when the server last answered a baseline request, the emails that were asked for since the cursor
was last read, and those that the cursor has been moved past, each as it was when it was asked
for. -/
structure JmapServer where
  log : MailLog
  cursor : Option String
  baselineAt : Option Nat := none
  asked : List Fate := []
  passed : List Fate := []

/-- How many emails there are. -/
abbrev JmapServer.length (w : JmapServer) : Nat := w.log.emails.length

/-- Mail arrives. -/
structure JmapServer.Arrives (w w' : JmapServer) : Prop where
  log : w.log.emails <+: w'.log.emails
  cursor : w'.cursor = w.cursor
  baselineAt : w'.baselineAt = w.baselineAt
  asked : w'.asked = w.asked
  passed : w'.passed = w.passed

theorem JmapServer.Arrives.refl (w : JmapServer) : w.Arrives w :=
  ⟨List.prefix_refl _, rfl, rfl, rfl, rfl⟩

/-- A request to the server. -/
def JmapOp.isRequest : JmapOp → Bool
  | .emailChanges _ | .emailGet _ | .emailQuery _ _ _ => true
  | _ => false

/-- How a call may be answered. -/
inductive JmapServer.Answers (states : ServerStates) (may : Fate → Prop) (w : JmapServer) :
    (op : JmapOp) → Except Exn op.Ret → JmapServer → Prop where
  /-- A page of the log after the given state, which is not empty if there is anything to tell. -/
  | changes {k m : Nat} (hkm : k ≤ m) (hm : m ≤ w.length) (hprogress : k < w.length → k < m) :
      Answers states may w (.emailChanges (states.name k))
        (.ok ⟨some ((slice w.log.emails k m).map JmapEmail.id), some (states.name m),
          some (decide (m < w.length))⟩) w
  /-- The requested emails, in order, as far as there are any left. -/
  | get {ids : List String} {fates : List Fate} (hne : ids ≠ [])
      (hids : fates.map (fun f => f.1.id) = ids.map some)
      (hmem : ∀ f ∈ fates, f.1 ∈ w.log.emails ∧ may f) :
      Answers states may w (.emailGet ids)
        (.ok ⟨some (fates.filterMap Prod.snd), some (states.name w.length)⟩)
        { w with asked := w.asked ++ fates }
  /-- No emails, and the current state. -/
  | baseline : Answers states may w (.emailGet []) (.ok ⟨some [], some (states.name w.length)⟩)
      { w with baselineAt := some w.length }
  | fails {op : JmapOp} (e : Exn) (hop : op.isRequest = true) : Answers states may w op (.error e) w
  | pushed : Answers states may w .pushWait (.ok ()) w
  | disconnected (reason : String) :
      Answers states may w .pushWait (.error (pushDisconnectedError reason)) w
  | timer : Answers states may w .timerWait (.ok ()) w
  | cursorValue : Answers states may w .cursorValue (.ok w.cursor) { w with asked := [] }
  | setCursorValue {value : Option String} : Answers states may w (.setCursorValue value) (.ok ())
      { w with cursor := value, passed := w.passed ++ w.asked }

/-- The machine of an honest server: mail may arrive, and then the call is answered. -/
def jmapMachine (states : ServerStates) (may : Fate → Prop) : Machine jmapSig JmapServer :=
  fun w op r w' => ∃ w₁, w.Arrives w₁ ∧ w₁.Answers states may op r w'

/-! ## Calls of `poll_batch` -/

/-- A sequence of calls of `poll_batch`, with the batches that were returned.  Mail may arrive at
any time, and a call may raise. -/
inductive Polls (states : ServerStates) (may : Fate → Prop) (client : JmapClient) :
    JmapServer → List MessageBatch → JmapServer → Prop where
  | nil {w : JmapServer} : Polls states may client w [] w
  | returns {w w₁ w₂ : JmapServer} {fuel : Nat} {batch : MessageBatch} {batches : List MessageBatch}
      (h : (jmapMachine states may).Reaches ((buildCheckpointedSource client).pollBatch fuel) w
        (.done (.ok (some batch))) w₁)
      (hs : Polls states may client w₁ batches w₂) : Polls states may client w (batch :: batches) w₂
  | raises {w w₁ w₂ : JmapServer} {fuel : Nat} {e : Exn} {batches : List MessageBatch}
      (h : (jmapMachine states may).Reaches ((buildCheckpointedSource client).pollBatch fuel) w
        (.done (.error e)) w₁)
      (hs : Polls states may client w₁ batches w₂) : Polls states may client w batches w₂
  | arrives {w w₁ w₂ : JmapServer} {batches : List MessageBatch} (h : w.Arrives w₁)
      (hs : Polls states may client w₁ batches w₂) : Polls states may client w batches w₂

end Spork
