import Spork.Collaborators

/-!
# The JMAP client

`core/providers/jmap/client.py`: `fetch_new_messages`, `query_messages` and the reduction of an
email to a `NormalizedMessage`.

The responses come from the `jmapc` package as objects of which nothing is taken for granted: every
attribute is checked before it is used.  Here an attribute is `none` where it is missing or of
another type than the one checked for.  The client is connected: `connect()`, which every method
begins with, returns at once after its first success, and the account and the Inbox it has resolved
are fields.

The two loops that need not end, `while True` over the pages of `Email/changes` and the trigger that
waits for the next event, are treated differently.  The trigger is one call.  The pages are counted
down by `fuel`, and a program that has run out of it returns `none`: it is still asking.
-/

set_option autoImplicit false

namespace Spork

open Effects

/-! ## Emails -/

/-- A `jmapc` `Email`, as far as it is read. -/
structure JmapEmail where
  id : Option String
  threadId : Option String
  /-- `mail_from`, each sender by its `email`. -/
  mailFrom : List (Option String) := []
  /-- `to`, each address by its `email`; and so for `cc`. -/
  toAddresses : Option (List (Option String)) := none
  cc : Option (List (Option String)) := none
  subject : Option String := none
  /-- `text_body`, each part by its `part_id`. -/
  textBody : List (Option String) := []
  /-- `body_values`, each by its `value`. -/
  bodyValues : List (String × Option String) := []
  messageId : Option (List (Option String)) := none
  inReplyTo : Option (List (Option String)) := none
  references : Option (List (Option String)) := none
  /-- `mailbox_ids`, when it is a `dict`. -/
  mailboxIds : Option (List (String × Bool)) := none

/-- `JmapError`. -/
def jmapError (message : String) : Exn := ⟨.other "JmapError", message⟩

/-- `s.rpartition("@")[2]`, or nothing where there is no `@`. -/
def domainOf (address : String) : String :=
  if '@' ∈ address.toList then
    String.ofList (address.toList.reverse.takeWhile (· ≠ '@')).reverse
  else ""

/-- `_add_address_header`. -/
def addAddressHeader (headers : List (String × String)) (name : String)
    (addresses : Option (List (Option String))) : List (String × String) :=
  match addresses with
  | none => headers
  | some values =>
    let rendered := String.intercalate ", " values.reduceOption
    if rendered = "" then headers else headers ++ [(name, rendered)]

/-- `_add_list_header`. -/
def addListHeader (headers : List (String × String)) (name : String)
    (values : Option (List (Option String))) (joiner : String := ", ") : List (String × String) :=
  match values.bind fun vs => vs.mapM id with
  | none => headers
  | some vs =>
    let rendered := String.intercalate joiner vs
    if rendered = "" then headers else headers ++ [(name, rendered)]

namespace JmapEmail

/-- The text of the text parts that have a value. -/
def bodyText (email : JmapEmail) : String :=
  String.intercalate "\n\n" (email.textBody.filterMap fun partId =>
    partId.bind fun id => (email.bodyValues.lookup id).join)

/-- The headers that survive the reduction. -/
def headers (email : JmapEmail) : List (String × String) :=
  let headers := addAddressHeader [] "To" email.toAddresses
  let headers := addAddressHeader headers "Cc" email.cc
  let headers := addListHeader headers "Message-ID" email.messageId
  let headers := addListHeader headers "In-Reply-To" email.inReplyTo
  addListHeader headers "References" email.references " "

/-- `_normalize`. -/
def normalize (email : JmapEmail) : Except Exn NormalizedMessage :=
  match email.id, email.threadId with
  | some messageId, some threadId =>
    let fromAddress := email.mailFrom.head?.join.getD ""
    .ok
      { messageId := messageId
        threadId := threadId
        fromAddress := fromAddress
        fromDomain := domainOf fromAddress
        subject := email.subject.getD ""
        bodyText := email.bodyText
        headers := email.headers
        mailboxIds := ((email.mailboxIds.getD []).filter (·.2)).map Prod.fst }
  | _, _ => .error (jmapError "Email/get returned a message without id/threadId")

/-- An email with an id and a thread can be normalised. -/
theorem normalize_ok {e : JmapEmail}
    (h : ∃ id threadId, e.id = some id ∧ e.threadId = some threadId) :
    ∃ m, e.normalize = .ok m ∧ e.id = some m.messageId := by
  obtain ⟨id, threadId, hid, hthread⟩ := h
  unfold normalize
  rw [hid, hthread]
  exact ⟨_, rfl, rfl⟩

/-- `_is_inbox_message`. -/
def isInbox (inboxId : String) (email : JmapEmail) : Bool :=
  (email.mailboxIds.getD []).lookup inboxId = some true

end JmapEmail

/-! ## Requests -/

/-- A response to `Email/changes`. -/
structure ChangesResponse where
  /-- The ids of `created`; `none` among them is an entry that is not a text. -/
  created : Option (List (Option String))
  newState : Option String
  hasMoreChanges : Option Bool

/-- A response to `Email/get`. -/
structure EmailGetResponse where
  data : Option (List JmapEmail)
  state : Option String

/-- A response to `Email/query`. -/
structure QueryResponse where
  ids : Option (List (Option String))
  position : Option Nat
  total : Option Nat

/-- A call of the JMAP source to something outside it. -/
inductive JmapOp where
  -- requests
  | emailChanges (sinceState : String)
  | emailGet (ids : List String)
  | emailQuery (unreadOnly : Bool) (position limit : Nat)
  -- the two triggers
  | pushWait
  | timerWait
  -- the cursor that two sources share
  | cursorValue
  | setCursorValue (value : Option String)

/-- What each call answers with. -/
@[reducible] def JmapOp.Ret : JmapOp → Type
  | .emailChanges _ => ChangesResponse
  | .emailGet _ => EmailGetResponse
  | .emailQuery _ _ _ => QueryResponse
  | .cursorValue => Option String
  | .pushWait | .timerWait | .setCursorValue _ => Unit

/-- The signature of the JMAP source. -/
abbrev jmapSig : Sig := ⟨JmapOp, JmapOp.Ret, Exn⟩

/-- A program of the JMAP source. -/
abbrev JmapProc (α : Type) : Type := Prog jmapSig α

namespace JmapClient

/-- Make one call. -/
abbrev call (op : JmapOp) : JmapProc op.Ret := Prog.perform (S := jmapSig) op

/-- Raise `JmapError`. -/
def fail {α : Type} (message : String) : JmapProc α := Prog.raise (S := jmapSig) (jmapError message)

/-- `_request`: whatever a request raises becomes a `JmapError`. -/
def request (op : JmapOp) : JmapProc op.Ret :=
  (call op).tryCatch fun e => fail ("JMAP request failed: " ++ e.message)

/-- Use what a check has found, or fail with its message. -/
def require {α : Type} (message : String) : Option α → JmapProc α
  | some a => pure a
  | none => fail message

/-- A list of texts: `isinstance(items, list) and all(isinstance(item, str) for item in items)`. -/
def texts (items : Option (List (Option String))) : Option (List String) :=
  items.bind fun items => items.mapM id

@[simp] theorem texts_map_some (ids : List String) : texts (some (ids.map some)) = some ids := by
  rw [texts, Option.bind_some]
  induction ids with
  | nil => rfl
  | cons id ids ih => rw [List.map_cons, List.mapM_cons, ih]; rfl

/-- A request that is answered. -/
theorem request_eval {W : Type}
    {answer : W → (op : JmapOp) → jmapSig.Outcome (jmapSig.Ret op) × W} {w w' : W} {op : JmapOp}
    {a : op.Ret} (h : answer w op = (.ok a, w')) :
    (request op).eval answer w = (.ok a, w') := by
  show (Prog.onError _ (answer w op).1).eval answer (answer w op).2 = _
  rw [h]
  rfl

end JmapClient

/-- `JmapFetchResult`. -/
structure JmapFetchResult where
  messages : List NormalizedMessage
  cursor : String

/-- `JmapQueryResult`. -/
structure JmapQueryResult where
  messages : List NormalizedMessage
  position : Nat
  nextPosition : Nat
  total : Option Nat
  hasMore : Bool

/-- `JmapClient`, connected. -/
structure JmapClient where
  accountId : String
  inboxId : String

namespace JmapClient

/-- `Email/get(ids=[])`: the current Email state, and no mail. -/
def baseline : JmapProc JmapFetchResult := do
  let response ← request (.emailGet [])
  let state ← require "Email/get baseline returned no state" (response.state.filter (· ≠ ""))
  pure ⟨[], state⟩

/-- The new Inbox messages of one page of changes. -/
def pageMessages (client : JmapClient) (created : List String) :
    JmapProc (List NormalizedMessage) :=
  if created = [] then pure []
  else do
    let response ← request (.emailGet created)
    let emails ← require "Email/get returned no message list" response.data
    Prog.done (S := jmapSig) ((emails.filter (·.isInbox client.inboxId)).mapM JmapEmail.normalize)

/-- `while True` of `fetch_new_messages`, for at most `fuel` pages. -/
def fetchPages (client : JmapClient) : Nat → String → List NormalizedMessage →
    JmapProc (Option JmapFetchResult)
  | 0, _, _ => pure none
  | fuel + 1, cursor, messages => do
    let changes ← request (.emailChanges cursor)
    let created ← require "Email/changes returned invalid created IDs" (texts changes.created)
    let newState ← require "Email/changes returned invalid state metadata" changes.newState
    let hasMore ← require "Email/changes returned invalid state metadata" changes.hasMoreChanges
    let new ← client.pageMessages created
    if hasMore then client.fetchPages fuel newState (messages ++ new)
    else pure (some ⟨messages ++ new, newState⟩)

/-- `fetch_new_messages`. -/
def fetchNewMessages (client : JmapClient) (fuel : Nat) (sinceCursor : Option String) :
    JmapProc (Option JmapFetchResult) :=
  match sinceCursor with
  | none => some <$> baseline
  | some cursor => client.fetchPages fuel cursor []

/-- The messages of the ids that a query has matched. -/
def queriedMessages (ids : List String) : JmapProc (List NormalizedMessage) :=
  if ids = [] then pure []
  else do
    let response ← request (.emailGet ids)
    let emails ← require "Email/get returned no message list" response.data
    Prog.done (S := jmapSig) (emails.mapM JmapEmail.normalize)

/-- `query_messages`. -/
def queryMessages (unreadOnly : Bool) (position limit : Nat) : JmapProc JmapQueryResult := do
  let response ← request (.emailQuery unreadOnly position limit)
  let ids ← require "Email/query returned invalid ids" (texts response.ids)
  let responsePosition ← require "Email/query returned invalid position" response.position
  let messages ← queriedMessages ids
  let nextPosition := responsePosition + ids.length
  pure
    { messages := messages
      position := responsePosition
      nextPosition := nextPosition
      total := response.total
      hasMore := match response.total with
        | some total => decide (nextPosition < total)
        | none => false }

end JmapClient

end Spork
