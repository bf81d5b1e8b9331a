import Spork.Ipc.Server

/-!
# What clients of the control socket can rely on

Any number of clients talk to the socket at once, in any pieces and at any pace, while the message
loop runs.

* `control_socket_linearizable`: the answers are those of one command after another, in an order
  that real time does not contradict; and each client of `send_request` gets the answer to its own
  command, whole.
* `every_connection_is_answered`: whatever a connection sends, the server comes through, and its
  answer is a well-formed response; what is not a request changes nothing.
-/

set_option autoImplicit false

namespace Spork

namespace Ipc

open Effects Exchange
open JsonWriter (Json)

variable {ι : Type} {P : Pydantic} {maxDepth : Nat} {s : SharedMemory}
  {net net₁ net₂ : Net SharedMemory ι UInt8}

/-! ## What a client has got -/

/-- A client that stops reading has the whole answer. -/
theorem got_eq {c : Conn UInt8} {r : IpcResponse} (hw : (wire r).json.Writable)
    (hreply : c.reply = some (reply r)) (hclosed : c.closed = true → c.got = c.reply.getD [])
    (hreturned : Returned c) : c.got = reply r := by
  obtain ⟨before, hline, hbefore⟩ := encodeLine_eq hw
  rcases hreturned with hmem | hend
  · have hgot : c.got <+: reply r := by
      rw [Conn.got, hreply]
      exact List.take_prefix _ _
    rw [reply, hline] at hgot ⊢
    exact prefix_eq hbefore hgot hmem
  · rw [hclosed hend, hreply]
    rfl

/-- **The client reads the response that was written.** -/
theorem sendRequest_reply (hP : P.ReadsBack maxDepth) {r : IpcResponse}
    (hw : (wire r).json.Writable) : sendRequest P (reply r) = .ok (wire r) := by
  obtain ⟨before, hline, hbefore⟩ := encodeLine_eq hw
  have hmem : lineFeed ∈ reply r := by
    rw [reply, hline]
    exact List.mem_append_right _ (List.mem_singleton_self _)
  have hbeforeLine : beforeLineFeed (reply r) ++ [lineFeed] = reply r := by
    rw [reply, hline, beforeLineFeed_append hbefore]
  have hne : reply r ≠ [] := List.ne_nil_of_mem hmem
  rw [sendRequest, if_pos hmem, hbeforeLine]
  rw [if_neg hne, hP.response r hw]

/-- A client that has got anything, or has been closed, has been answered. -/
theorem answered_of_returned {s₀ : SharedMemory} (h : Good (server P) s₀ net) {i : ι}
    {c : Conn UInt8} (hc : net.conns i = some c) (hreturned : Returned c) :
    c.reply.isSome = true := by
  rw [Option.isSome_iff_ne_none]
  intro hnone
  obtain ⟨hdelivered, hopen⟩ := h.waiting i c hc hnone
  rcases hreturned with hmem | hclosed
  · rw [Conn.got, hdelivered] at hmem
    cases hmem
  · cases hopen.symm.trans hclosed

/-- The answer a connection has got, in the log. -/
theorem entry_of_returned {s₀ : SharedMemory} (h : Good (server P) s₀ net) {i : ι}
    {c : Conn UInt8} (hc : net.conns i = some c) (hreturned : Returned c) :
    ∃ e ∈ net.log, e.id = i ∧ Fits c e := by
  obtain ⟨e, he, rfl⟩ := h.answered i c hc (answered_of_returned h hc hreturned)
  obtain ⟨d, hd, hfits⟩ := h.logged e he
  obtain rfl := Option.some.inj (hc.symm.trans hd)
  exact ⟨e, he, rfl, hfits⟩

/-- **A whole request is understood**, in whatever pieces it has arrived. -/
theorem understand_received (hP : P.ReadsBack maxDepth) {s₀ : SharedMemory}
    (h : Good (server P) s₀ net) {e : Entry SharedMemory ι UInt8} (he : e ∈ net.log)
    {c : Conn UInt8} (hfits : Fits c e) {request : Request} (hw : request.json.Writable)
    (hdepth : depth request.json.toValue ≤ maxDepth) (hstream : c.stream = encodeLine request.json)
    (hlen : c.stream.length ≤ limit) :
    ∃ r, understand P e.received = .ok r ∧ r.command = request.command := by
  rw [hstream] at hlen
  have hready : Ready e.received e.ended := (h.chain.forall_mem e he).1
  have hread := readline_encodeLine hw hlen hready (hstream ▸ hfits.received)
    fun hended => hstream ▸ hfits.ended hended
  obtain ⟨r, hr, hcommand⟩ := hP.request request hw hdepth
  refine ⟨r, ?_, hcommand⟩
  rw [understand, hread]
  dsimp only
  rw [hr]

/-! ## One command after another -/

variable [DecidableEq ι]

/-- **The control socket is linearizable.**  The answers that have been given are those of the
service to one request after another; a client that has sent a request gets the answer at the place
of its request; and a client that had its answer before another one connected stands before it.
The message loop may make any call in between, and the signal handler may run. -/
theorem control_socket_linearizable (hP : P.ReadsBack maxDepth)
    (h₁ : Reaches (server P) (.start s) net₁)
    (h₂ : Reaches (server P) net₁ net₂) :
    (net₂.log.map Entry.id).Nodup ∧
    (∃ qs : List Asked,
      List.Forall₂ (fun e q => Asks P e.received q) net₂.log qs ∧
      control net₂.state = (service.run (control s) qs).2 ∧
      ∀ (i : ι) (c : Conn UInt8) (request : Request), net₂.conns i = some c →
        c.stream = encodeLine request.json → request.json.Writable →
        depth request.json.toValue ≤ maxDepth → c.stream.length ≤ limit → Returned c →
        ∃ k e q, net₂.log[k]? = some e ∧ e.id = i ∧ qs[k]? = some (.request q) ∧
          Finds request.command q ∧
          sendRequest P c.got
            = .ok (wire (service.serve (service.run (control s) (qs.take k)).2 (.request q)).1)) ∧
    (∀ (i : ι) (c : Conn UInt8), net₁.conns i = some c → Returned c →
      ∀ (k m : Nat) (e e' : Entry SharedMemory ι UInt8), net₂.log[k]? = some e →
        net₂.log[m]? = some e' → e.id = i → net₁.conns e'.id = none → k < m) ∧
    (∀ (A : Allowed) (d d' : Daemon) (op : Op) (r : Except Exn op.Ret), d.Responds A op r d' →
      (server P).others d.shared d'.shared) ∧
    ∀ s, (server P).others s (Handler.stop.run s) := by
  have hgood₁ := h₁.good
  have hgood₂ := Reaches.good (h₁.trans h₂)
  obtain ⟨qs, hqs, hreplies, hcontrol⟩ := hgood₂.chain.sequential (serves P)
  refine ⟨hgood₂.once, ⟨qs, hqs, hcontrol, ?_⟩, ?_,
    fun A d d' op r h => others_responds P h, fun s => rfl⟩
  · intro i c request hc hstream hw hdepth hlen hreturned
    obtain ⟨e, he, hid, hfits⟩ := entry_of_returned hgood₂ hc hreturned
    obtain ⟨k, hk⟩ := List.getElem?_of_mem he
    obtain ⟨q, hq, hasks⟩ := forall₂_getElem? hqs hk
    have hw' := wire_writable hasks (service.run (control s) (qs.take k)).2
    have hreply : e.reply = reply (service.serve (service.run (control s) (qs.take k)).2 q).1 := by
      have hat := congrArg (·[k]?) hreplies
      simp only [List.getElem?_map, hk, hq, service.run_getElem?, Option.map_some] at hat
      exact Option.some.inj hat
    have hgot := got_eq hw' (hreply ▸ hfits.reply) (hgood₂.closed i c hc) hreturned
    obtain ⟨sent, hsent, hcommand⟩ :=
      understand_received hP hgood₂ he hfits hw hdepth hstream hlen
    rw [Asks, hsent] at hasks
    obtain ⟨r, rfl, hfinds⟩ := hasks
    exact ⟨k, e, r, hk, hid, hq, hcommand ▸ hfinds, by rw [hgot, sendRequest_reply hP hw']⟩
  · intro i c hc hreturned k m e e' hk hm hid hnone
    obtain ⟨e₁, he₁, hid₁, -⟩ := entry_of_returned hgood₁ hc hreturned
    exact Reaches.precedes hgood₁ hgood₂ h₂ hk hm he₁ (hid₁.trans hid.symm) hnone

/-! ## Whatever a connection sends -/

/-- The commands with a handler. -/
def commands : List String := ["status", "pause", "resume", "reload"]

theorem finds_total (command : String) : ∃ request, Finds command request := by
  by_cases h : command ∈ commands
  · simp only [commands, List.mem_cons, List.not_mem_nil, or_false] at h
    rcases h with rfl | rfl | rfl | rfl
    · exact ⟨_, .status⟩
    · exact ⟨_, .pause⟩
    · exact ⟨_, .resume⟩
    · refine ⟨.reload (.ok []), .reload fun rules h => ?_⟩
      cases h
      show (Nat.toDigits 10 0).length ≤ 4300
      decide
  · exact ⟨_, .unknown h⟩

/-- There is always something to answer. -/
theorem asks_total (buffer : List UInt8) : ∃ q, Asks P buffer q := by
  cases h : understand P buffer with
  | error reason => exact ⟨.malformed reason, by rw [Asks, h]⟩
  | ok r =>
    obtain ⟨request, hfinds⟩ := finds_total r.command
    exact ⟨.request request, by rw [Asks, h]; exact ⟨request, rfl, hfinds⟩⟩

/-- **Every connection is answered.**  Whatever has happened before, a connection that has sent a
line, or has ended, can be answered and closed; and what a client reads is a response, which is an
error, with nothing changed, if the line was not a request or named no command. -/
theorem every_connection_is_answered (hP : P.ReadsBack maxDepth)
    (h : Reaches (server P) (.start s) net) {i : ι} {c : Conn UInt8} (hc : net.conns i = some c) :
    (c.reply = none → Ready c.received c.ended →
      ∃ net' c', Reaches (server P) net net' ∧ net'.conns i = some c' ∧ c'.closed = true) ∧
    (Returned c → ∃ e ∈ net.log, e.id = i ∧ ∃ r : IpcResponse, c.got = reply r ∧
      sendRequest P c.got = .ok (wire r) ∧
      (∀ reason, understand P e.received = .error reason →
        r = .error ("invalid request: " ++ reason) ∧ e.after = e.before) ∧
      ∀ request, understand P e.received = .ok request → request.command ∉ commands →
        r = .error ("unknown command: " ++ pyRepr request.command) ∧ e.after = e.before) := by
  have hgood := h.good
  constructor
  · intro hnone hready
    obtain ⟨q, hq⟩ := @asks_total P c.received
    obtain ⟨net', c', hreaches, hc', -, hclosed⟩ :=
      reaches_closed (S := server P) hc hnone hready ⟨q, hq, rfl, rfl⟩
    exact ⟨net', c', hreaches, hc', hclosed⟩
  · intro hreturned
    obtain ⟨e, he, hid, hfits⟩ := entry_of_returned hgood hc hreturned
    obtain ⟨-, q, hq, hreply, hafter⟩ := hgood.chain.forall_mem e he
    have hw : (wire (handle e.before q).1).json.Writable := by
      rw [(handle_eq e.before q).1]
      exact wire_writable hq (control e.before)
    have hgot := got_eq hw (hreply ▸ hfits.reply) (hgood.closed i c hc) hreturned
    refine ⟨e, he, hid, _, hgot, by rw [hgot, sendRequest_reply hP hw], fun reason hreason => ?_,
      fun request hrequest hunknown => ?_⟩
    · rw [Asks, hreason] at hq
      subst hq
      exact ⟨rfl, hafter⟩
    · rw [Asks, hrequest] at hq
      obtain ⟨r, rfl, hfinds⟩ := hq
      obtain rfl : r = .unknown request.command := by
        generalize request.command = command at hfinds hunknown
        cases hfinds with
        | unknown _ => rfl
        | status | pause | resume | reload => exact absurd (by decide) hunknown
      exact ⟨rfl, hafter⟩

/-! ## One client -/

/-- What `spork pause` sends. -/
def pauseRequest : Request := ⟨"pause", []⟩

theorem pauseRequest_writable : pauseRequest.json.Writable := ⟨trivial, trivial, trivial⟩

theorem depth_pauseRequest : depth pauseRequest.json.toValue = 2 := rfl

theorem length_pauseRequest : (encodeLine pauseRequest.json).length ≤ limit := by decide +kernel

theorem Finds.eq_pause {command : String} {r : IpcRequest} (h : Finds command r)
    (hcommand : command = "pause") : r = .pause := by
  cases h with
  | pause => rfl
  | unknown h => exact absurd (by rw [hcommand]; decide) h
  | status | resume | reload => exact absurd hcommand (by decide)

/-- One client that sends a line, from its connection to its answer. -/
theorem exists_client {line : List UInt8} (hline : lineFeed ∈ line) :
    ∃ (net : Net SharedMemory Unit UInt8) (c : Conn UInt8),
      Reaches (server strictModels) (.start {}) net ∧ net.conns () = some c ∧
        c.stream = line ∧ c.closed = true := by
  obtain ⟨net₁, h₁, hc₁⟩ : ∃ net₁ : Net SharedMemory Unit UInt8,
      Step (server strictModels) (.start {}) net₁ ∧ net₁.conns () = some { stream := line } :=
    ⟨_, .connect (i := ()) rfl line, rfl⟩
  obtain ⟨net₂, h₂, hc₂⟩ : ∃ net₂, Step (server strictModels) net₁ net₂ ∧
      net₂.conns () = some { stream := line, arrived := 0 + line.length } :=
    ⟨_, .arrive hc₁ line.length, rfl⟩
  have hready : Ready (line.take (0 + line.length)) false := by
    rw [Nat.zero_add, List.take_length]
    exact .inl hline
  obtain ⟨q, hq⟩ := @asks_total strictModels (line.take (0 + line.length))
  obtain ⟨net, c, hreaches, hc, hstream, hclosed⟩ :=
    reaches_closed (S := server strictModels) hc₂ rfl hready ⟨q, hq, rfl, rfl⟩
  exact ⟨net, c, ((Relation.ReflTransGen.single h₁).tail h₂).trans hreaches, hc, hstream, hclosed⟩

theorem lineFeed_mem_pauseRequest : lineFeed ∈ encodeLine pauseRequest.json := by
  obtain ⟨before, hline, -⟩ := encodeLine_eq pauseRequest_writable
  rw [hline]
  exact List.mem_append_right _ (List.mem_singleton_self _)

/-- The client of `spork pause` is told that the daemon is paused. -/
theorem control_socket_linearizable_pause : ∃ (net : Net SharedMemory Unit UInt8) (c : Conn UInt8),
    net.conns () = some c ∧
      sendRequest strictModels c.got = .ok ⟨true, [("paused", .bool true)], none⟩ := by
  obtain ⟨net, c, hreaches, hc, hstream, hclosed⟩ := exists_client lineFeed_mem_pauseRequest
  obtain ⟨-, ⟨qs, -, -, hclients⟩, -⟩ :=
    control_socket_linearizable readsBack_strictModels hreaches .refl
  obtain ⟨k, e, q, -, -, -, hfinds, hgot⟩ := hclients () c pauseRequest hc hstream
    pauseRequest_writable (by rw [depth_pauseRequest]; decide)
    (by rw [hstream]; exact length_pauseRequest) (.inr hclosed)
  obtain rfl := hfinds.eq_pause rfl
  exact ⟨net, c, hc, hgot⟩

/-- The connection of `spork pause` is answered. -/
theorem every_connection_is_answered_pause : ∃ (net : Net SharedMemory Unit UInt8)
    (c : Conn UInt8), net.conns () = some c ∧ ∃ e ∈ net.log, ∃ r, e.id = () ∧ c.got = reply r := by
  obtain ⟨net, c, hreaches, hc, -, hclosed⟩ := exists_client lineFeed_mem_pauseRequest
  obtain ⟨e, he, hid, r, hgot, -⟩ :=
    (every_connection_is_answered readsBack_strictModels hreaches hc).2 (.inr hclosed)
  exact ⟨net, c, hc, e, he, r, hid, hgot⟩

end Ipc

end Spork
