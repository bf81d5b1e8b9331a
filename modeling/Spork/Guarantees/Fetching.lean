import Spork.Jmap.Client
import Spork.Walks

/-!
# Fetching from any server

The loop of `fetch_new_messages` has no measure of its own: it goes on for as long as the server
says that there is more, from whatever state the server names.  So a fetch is a walk over the
server's states (`fetchPages_eval`), and it ends exactly if the walk does not come back to a state
(`fetch_ends_iff`).
-/

set_option autoImplicit false

namespace Spork

open Effects Walks

/-! ## Servers -/

/-- A server that answers every request by its arguments alone. -/
structure PureServer where
  changes : String → Except Exn ChangesResponse
  emails : List String → Except Exn EmailGetResponse

namespace PureServer

/-- How it answers; the client makes no other calls. -/
def answer (server : PureServer) (_ : Unit) : (op : JmapOp) → Except Exn op.Ret × Unit
  | .emailChanges sinceState => (server.changes sinceState, ())
  | .emailGet ids => (server.emails ids, ())
  | _ => (.error ⟨.runtimeError, "not a request"⟩, ())

/-- The emails of a page can be had, and those of the Inbox have an id and a thread. -/
def readable (server : PureServer) (client : JmapClient) (created : List String) : Bool :=
  created.isEmpty ||
    match server.emails created with
    | .error _ => false
    | .ok response =>
      match response.data with
      | none => false
      | some emails => (emails.filter (·.isInbox client.inboxId)).all fun email =>
          email.id.isSome && email.threadId.isSome

/-- The state that the server sends the client on to from `state`, if its answer is well-formed and
says that there is more. -/
def sendsOn (server : PureServer) (client : JmapClient) (state : String) : Option String :=
  match server.changes state with
  | .error _ => none
  | .ok changes =>
    match JmapClient.texts changes.created, changes.newState, changes.hasMoreChanges with
    | some created, some newState, some true =>
      if server.readable client created then some newState else none
    | _, _, _ => none

end PureServer

/-! ## One page -/

/-- The program raises a `JmapError`. -/
def RaisesJmapError {α : Type} (server : PureServer) (p : JmapProc α) : Prop :=
  ∃ e, p.eval server.answer () = (.error e, ()) ∧ e.cls = .other "JmapError"

section Page

variable {server : PureServer} {client : JmapClient} {α β : Type}

theorem RaisesJmapError.bind {p : JmapProc α} (h : RaisesJmapError server p)
    (f : α → JmapProc β) : RaisesJmapError server (p >>= f) := by
  obtain ⟨e, he, hcls⟩ := h
  exact ⟨e, Prog.eval_bind_error he, hcls⟩

/-- What follows a value raises. -/
theorem RaisesJmapError.after {p : JmapProc α} {a : α} {f : α → JmapProc β}
    (hp : p.eval server.answer () = (.ok a, ())) (h : RaisesJmapError server (f a)) :
    RaisesJmapError server (p >>= f) := by
  obtain ⟨e, he, hcls⟩ := h
  exact ⟨e, (Prog.eval_bind_ok hp).trans he, hcls⟩

theorem raises_fail (message : String) :
    RaisesJmapError server (JmapClient.fail message : JmapProc α) := ⟨_, rfl, rfl⟩

/-- A request that fails is a `JmapError`. -/
theorem raises_request {op : JmapOp} {e : Exn} (h : server.answer () op = (.error e, ())) :
    RaisesJmapError server (JmapClient.request op) := by
  refine ⟨jmapError ("JMAP request failed: " ++ e.message), ?_, rfl⟩
  show (Prog.onError (S := jmapSig) _ (server.answer () op).1).eval server.answer
    (server.answer () op).2 = _
  rw [h]
  rfl

/-- The emails of a page are reduced exactly if each has an id and a thread. -/
theorem mapM_normalize_cases : ∀ emails : List JmapEmail,
    (emails.all (fun email => email.id.isSome && email.threadId.isSome) = true ∧
        ∃ messages, emails.mapM JmapEmail.normalize = .ok messages) ∨
      emails.all (fun email => email.id.isSome && email.threadId.isSome) = false ∧
        ∃ e, emails.mapM JmapEmail.normalize = .error e ∧ e.cls = .other "JmapError"
  | [] => .inl ⟨rfl, [], rfl⟩
  | email :: emails => by
    have hfails : ∀ message, email.normalize = .error (jmapError message) →
        ∃ e, (email :: emails).mapM JmapEmail.normalize = .error e ∧
          e.cls = .other "JmapError" := by
      intro message he
      rw [List.mapM_cons, he]
      exact ⟨_, rfl, rfl⟩
    rw [List.all_cons]
    cases hid : email.id with
    | none => exact .inr ⟨rfl, hfails _ (by rw [JmapEmail.normalize, hid])⟩
    | some id =>
      cases hthread : email.threadId with
      | none => exact .inr ⟨rfl, hfails _ (by rw [JmapEmail.normalize, hid, hthread])⟩
      | some threadId =>
        obtain ⟨message, hmessage, -⟩ := JmapEmail.normalize_ok ⟨id, threadId, hid, hthread⟩
        rw [List.mapM_cons, hmessage]
        rcases mapM_normalize_cases emails with ⟨hall, messages, hok⟩ | ⟨hall, e, he, hcls⟩
        · rw [hok, hall]
          exact .inl ⟨rfl, _, rfl⟩
        · rw [he, hall]
          exact .inr ⟨rfl, e, rfl, hcls⟩

variable (server client) in
/-- The messages of a page are got exactly if the page is readable. -/
theorem pageMessages_cases (created : List String) :
    (server.readable client created = true ∧ ∃ messages,
        (client.pageMessages created).eval server.answer () = (.ok messages, ())) ∨
      server.readable client created = false ∧
        RaisesJmapError server (client.pageMessages created) := by
  cases created with
  | nil => exact .inl ⟨rfl, [], rfl⟩
  | cons id created =>
    rw [PureServer.readable, JmapClient.pageMessages, if_neg (List.cons_ne_nil _ _),
      List.isEmpty_cons, Bool.false_or]
    cases hemails : server.emails (id :: created) with
    | error e =>
      have hanswer : server.answer () (.emailGet (id :: created)) = (.error e, ()) := by
        rw [PureServer.answer, hemails]
      exact .inr ⟨rfl, (raises_request hanswer).bind _⟩
    | ok response =>
      have hanswer : server.answer () (.emailGet (id :: created)) = (.ok response, ()) := by
        rw [PureServer.answer, hemails]
      have hrequest := JmapClient.request_eval hanswer
      obtain ⟨data, state⟩ := response
      cases data with
      | none => exact .inr ⟨rfl, .after hrequest ((raises_fail _).bind _)⟩
      | some emails =>
        rcases mapM_normalize_cases (emails.filter (·.isInbox client.inboxId)) with
          ⟨hall, messages, hok⟩ | ⟨hall, e, he, hcls⟩
        · refine .inl ⟨hall, messages, (Prog.eval_bind_ok hrequest).trans ?_⟩
          exact congrArg (fun r => (r, ())) hok
        · exact .inr ⟨hall, .after hrequest ⟨e, congrArg (fun r => (r, ())) he, hcls⟩⟩

variable (server client) in
/-- **One page**: the client is sent on, or the fetch ends. -/
theorem fetchPages_succ (fuel : Nat) (cursor : String) (messages : List NormalizedMessage) :
    (∃ state messages', server.sendsOn client cursor = some state ∧
        (client.fetchPages (fuel + 1) cursor messages).eval server.answer ()
          = (client.fetchPages fuel state messages').eval server.answer ()) ∨
      server.sendsOn client cursor = none ∧
        ((∃ result, (client.fetchPages (fuel + 1) cursor messages).eval server.answer ()
            = (.ok (some result), ())) ∨
          RaisesJmapError server (client.fetchPages (fuel + 1) cursor messages)) := by
  rw [PureServer.sendsOn, JmapClient.fetchPages]
  cases hchanges : server.changes cursor with
  | error e =>
    have hanswer : server.answer () (.emailChanges cursor) = (.error e, ()) := by
      rw [PureServer.answer, hchanges]
    exact .inr ⟨rfl, .inr ((raises_request hanswer).bind _)⟩
  | ok changes =>
    have hanswer : server.answer () (.emailChanges cursor) = (.ok changes, ()) := by
      rw [PureServer.answer, hchanges]
    have hrequest := JmapClient.request_eval hanswer
    obtain ⟨created, newState, hasMore⟩ := changes
    dsimp only
    cases hcreated : JmapClient.texts created with
    | none =>
      refine .inr ⟨rfl, .inr (.after hrequest ?_)⟩
      rw [hcreated]
      exact (raises_fail _).bind _
    | some created =>
      cases newState with
      | none =>
        refine .inr ⟨rfl, .inr (.after hrequest ?_)⟩
        rw [hcreated]
        exact ⟨_, rfl, rfl⟩
      | some newState =>
        cases hasMore with
        | none =>
          refine .inr ⟨rfl, .inr (.after hrequest ?_)⟩
          rw [hcreated]
          exact ⟨_, rfl, rfl⟩
        | some hasMore =>
          rw [Prog.eval_bind_ok hrequest]
          dsimp only
          rw [hcreated]
          rcases pageMessages_cases server client created with
            ⟨hreadable, new, hnew⟩ | ⟨hreadable, hraises⟩
          · have hpage : ∀ f : List NormalizedMessage → JmapProc (Option JmapFetchResult),
                (client.pageMessages created >>= f).eval server.answer ()
                  = (f new).eval server.answer () := fun f => Prog.eval_bind_ok hnew
            cases hasMore with
            | true =>
              exact .inl ⟨newState, messages ++ new, if_pos hreadable, hpage _⟩
            | false => exact .inr ⟨rfl, .inl ⟨_, hpage _⟩⟩
          · have hnone : (if server.readable client created = true then some newState else none)
                = none := if_neg (Bool.eq_false_iff.1 hreadable)
            refine .inr ⟨by cases hasMore <;> [rfl; exact hnone], .inr (.after hrequest ?_)⟩
            rw [hcreated]
            exact hraises.bind _

end Page

/-! ## The guarantee -/

section Ends

variable {server : PureServer} {client : JmapClient}

variable (server client) in
/-- **A fetch is a walk over the server's states**, and what it raises is a `JmapError`. -/
theorem fetchPages_eval : ∀ (fuel : Nat) (cursor : String) (messages : List NormalizedMessage),
    ((client.fetchPages fuel cursor messages).eval server.answer () = (.ok none, ()) ∧
        walk (server.sendsOn client) cursor fuel ≠ none) ∨
      walk (server.sendsOn client) cursor fuel = none ∧
        ((∃ result, (client.fetchPages fuel cursor messages).eval server.answer ()
            = (.ok (some result), ())) ∨
          RaisesJmapError server (client.fetchPages fuel cursor messages))
  | 0, cursor, messages => .inl ⟨rfl, by rw [walk]; exact Option.some_ne_none _⟩
  | fuel + 1, cursor, messages => by
    rcases fetchPages_succ server client fuel cursor messages with
      ⟨state, messages', hon, heval⟩ | ⟨hend, hdone⟩
    · rw [walk, hon, Option.bind_some, heval, RaisesJmapError, heval]
      exact fetchPages_eval fuel state messages'
    · exact .inr ⟨by rw [walk, hend, Option.bind_none], hdone⟩

end Ends

/-- The fetch returns, or raises a `JmapError`, after this many pages at most. -/
def EndsWithin (server : PureServer) (client : JmapClient) (sinceCursor : Option String)
    (pages : Nat) : Prop :=
  (∃ result, (client.fetchNewMessages pages sinceCursor).eval server.answer ()
      = (.ok (some result), ())) ∨
    RaisesJmapError server (client.fetchNewMessages pages sinceCursor)

section Guarantee

variable {server : PureServer} {client : JmapClient}

theorem endsWithin_iff (cursor : String) (pages : Nat) :
    EndsWithin server client (some cursor) pages ↔
      walk (server.sendsOn client) cursor pages = none := by
  rcases fetchPages_eval server client pages cursor [] with
    ⟨hmore, hsome⟩ | ⟨hnone, hdone⟩
  · refine iff_of_false ?_ hsome
    rintro (⟨result, hresult⟩ | ⟨e, he, -⟩)
    · rw [JmapClient.fetchNewMessages, hmore] at hresult
      cases hresult
    · rw [JmapClient.fetchNewMessages, hmore] at he
      cases he
  · exact iff_of_true hdone hnone

/-- Without a cursor there is one request. -/
theorem endsWithin_baseline : EndsWithin server client none 0 := by
  rw [EndsWithin, JmapClient.fetchNewMessages, JmapClient.baseline]
  cases hemails : server.emails [] with
  | error e =>
    have hanswer : server.answer () (.emailGet []) = (.error e, ()) := by
      rw [PureServer.answer, hemails]
    exact .inr (((raises_request hanswer).bind _).bind _)
  | ok response =>
    have hanswer : server.answer () (.emailGet []) = (.ok response, ()) := by
      rw [PureServer.answer, hemails]
    have hrequest := JmapClient.request_eval hanswer
    cases hstate : response.state.filter (· ≠ "") with
    | none =>
      refine .inr (RaisesJmapError.bind (.after hrequest ?_) _)
      rw [hstate]
      exact ⟨_, rfl, rfl⟩
    | some state =>
      refine .inl ⟨⟨[], state⟩, Prog.eval_bind_ok ((Prog.eval_bind_ok hrequest).trans ?_)⟩
      rw [hstate]
      rfl

/-- Where the server sends the client on to is one of its states. -/
theorem PureServer.sendsOn_newState {state newState : String}
    (h : server.sendsOn client state = some newState) :
    ∃ changes, server.changes state = .ok changes ∧ changes.newState = some newState := by
  rw [sendsOn] at h
  split at h
  · cases h
  · next changes hchanges =>
    split at h
    · next hnew _ =>
      split at h
      · cases h
        exact ⟨changes, hchanges, hnew⟩
      · cases h
    · cases h

end Guarantee

/-- **A fetch ends on a server with finitely many states exactly if the server never sends the
client back** to a state it has already asked about.  It then takes no more pages than there are
states. Without a cursor it always ends. -/
theorem fetch_ends_iff (server : PureServer) (client : JmapClient) (states : Finset String)
    (hstates : ∀ state changes newState, server.changes state = .ok changes →
      changes.newState = some newState → newState ∈ states) :
    EndsWithin server client none 0 ∧ ∀ cursor,
      ((∃ pages, EndsWithin server client (some cursor) pages) ↔
        NoReturn (server.sendsOn client) cursor) ∧
      (NoReturn (server.sendsOn client) cursor →
        EndsWithin server client (some cursor) (insert cursor states).card) := by
  refine ⟨endsWithin_baseline, fun cursor => ?_⟩
  have hclosed : ∀ state ∈ insert cursor states, ∀ newState,
      server.sendsOn client state = some newState → newState ∈ insert cursor states := by
    intro state _ newState h
    obtain ⟨changes, hchanges, hnew⟩ := PureServer.sendsOn_newState h
    exact Finset.mem_insert_of_mem (hstates state changes newState hchanges hnew)
  have hcursor : cursor ∈ insert cursor states := Finset.mem_insert_self _ _
  simp only [endsWithin_iff]
  exact ⟨ends_iff_noReturn hcursor hclosed, fun h => h.walk_card hcursor hclosed⟩

/-- A server that sends the client on from one state to the next, and says at the third that there
is no more. -/
def threeStates : PureServer where
  changes state :=
    if state = "s1" then .ok ⟨some [], some "s2", some true⟩
    else .ok ⟨some [], some "s3", some (state = "s2")⟩
  emails _ := .ok ⟨some [], some "s3"⟩

/-- The fetch ends with the third page. -/
theorem threeStates_ends : EndsWithin threeStates ⟨"A1", "inbox"⟩ (some "s1") 3 := by
  have h := fetch_ends_iff threeStates ⟨"A1", "inbox"⟩ {"s2", "s3"} <| by
    intro state changes newState hc hn
    rw [threeStates] at hc
    dsimp only at hc
    split at hc
    · cases hc
      cases hn
      exact Finset.mem_insert_self _ _
    · cases hc
      cases hn
      exact Finset.mem_insert_of_mem (Finset.mem_singleton_self _)
  have hend : walk (threeStates.sendsOn ⟨"A1", "inbox"⟩) "s1" 3 = none := rfl
  exact (h.2 "s1").2 (.of_ends hend)

/-- A server with one state, which always says that there is more. -/
def oneState : PureServer where
  changes _ := .ok ⟨some [], some "s1", some true⟩
  emails _ := .ok ⟨some [], some "s1"⟩

/-- There the fetch goes on forever, without getting anywhere. -/
theorem oneState_loops : ¬∃ pages, EndsWithin oneState ⟨"A1", "inbox"⟩ (some "s1") pages := by
  rintro ⟨pages, h⟩
  exact NoReturn.of_ends ((endsWithin_iff _ _).1 h) 0 1 "s1" Nat.zero_lt_one rfl rfl

end Spork
