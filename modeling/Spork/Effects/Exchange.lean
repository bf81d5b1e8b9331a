import Mathlib.Logic.Function.Basic
import Mathlib.Logic.Relation
import Mathlib.Data.List.Nodup
import Mathlib.Data.List.TakeDrop

/-!
# One exchange for each connection

A server that reads one request from each connection and writes one answer to it, between any
number of clients.  What a client sends arrives piece by piece, and so does what the server answers;
only the answering itself is one step, on a state that other tasks change as well.

The server is given by three relations: when its reader has what it waits for, what it may answer
to that, and what others may do to the state.

* `Reaches.good`: every run keeps a log of the answers, in which each connection stands at most
  once, and which is a run of the answering alone (`Chain`).  What a client has of its answer is a
  piece of the answer in the log.
* `Chain.sequential`: where an answer is what a sequential `Service` says, on the part of the state
  that others leave alone, the log is a run of that service.
* `Reaches.precedes`: the log never contradicts real time.  An answer that had been given before a
  client connected stands before the answer to that client.
-/

set_option autoImplicit false

namespace Effects

namespace Exchange

variable {σ ι α : Type}

/-- A server on states `σ`, with texts over `α`. -/
structure Server (σ α : Type) where
  /-- The reader has what it waits for: the piece that has arrived, and whether it is all. -/
  ready : List α → Bool → Prop
  /-- In this state, to this request, this answer, and the state it leaves. -/
  answer : σ → List α → Bool → List α → σ → Prop
  /-- What other tasks may do. -/
  others : σ → σ → Prop

/-- A connection: what its client sends, how much of that has arrived, whether the client has ended
its side, the server's answer, how much of that the client has got, and whether the server has
closed. -/
structure Conn (α : Type) where
  stream : List α
  arrived : Nat := 0
  ended : Bool := false
  reply : Option (List α) := none
  delivered : Nat := 0
  closed : Bool := false

/-- What the server has got. -/
def Conn.received (c : Conn α) : List α := c.stream.take c.arrived

/-- What the client has got. -/
def Conn.got (c : Conn α) : List α := (c.reply.getD []).take c.delivered

/-- An answer that was given. -/
structure Entry (σ ι α : Type) where
  id : ι
  before : σ
  received : List α
  ended : Bool
  reply : List α
  after : σ

/-- The state, the connections, and the answers that have been given. -/
structure Net (σ ι α : Type) where
  state : σ
  conns : ι → Option (Conn α)
  log : List (Entry σ ι α)

/-- Nobody has connected yet. -/
def Net.start (s : σ) : Net σ ι α := ⟨s, fun _ => none, []⟩

/-- One step. -/
inductive Step [DecidableEq ι] (S : Server σ α) : Net σ ι α → Net σ ι α → Prop where
  | connect {net : Net σ ι α} {i : ι} (h : net.conns i = none) (stream : List α) :
      Step S net { net with conns := Function.update net.conns i (some { stream := stream }) }
  | arrive {net : Net σ ι α} {i : ι} {c : Conn α} (h : net.conns i = some c) (n : Nat) :
      Step S net { net with
        conns := Function.update net.conns i (some { c with arrived := c.arrived + n }) }
  | finish {net : Net σ ι α} {i : ι} {c : Conn α} (h : net.conns i = some c)
      (hall : c.stream.length ≤ c.arrived) :
      Step S net { net with conns := Function.update net.conns i (some { c with ended := true }) }
  | answer {net : Net σ ι α} {i : ι} {c : Conn α} {reply : List α} {s : σ}
      (h : net.conns i = some c) (hnone : c.reply = none) (hready : S.ready c.received c.ended)
      (hanswer : S.answer net.state c.received c.ended reply s) :
      Step S net
        { state := s
          conns := Function.update net.conns i (some { c with reply := some reply })
          log := net.log ++ [⟨i, net.state, c.received, c.ended, reply, s⟩] }
  | deliver {net : Net σ ι α} {i : ι} {c : Conn α} (h : net.conns i = some c)
      (hreply : c.reply.isSome = true) (n : Nat) :
      Step S net { net with
        conns := Function.update net.conns i (some { c with delivered := c.delivered + n }) }
  | close {net : Net σ ι α} {i : ι} {c : Conn α} {reply : List α} (h : net.conns i = some c)
      (hreply : c.reply = some reply) (hall : reply.length ≤ c.delivered) :
      Step S net { net with conns := Function.update net.conns i (some { c with closed := true }) }
  | other {net : Net σ ι α} {s : σ} (h : S.others net.state s) : Step S net { net with state := s }

/-- Any number of steps. -/
def Reaches [DecidableEq ι] (S : Server σ α) : Net σ ι α → Net σ ι α → Prop :=
  Relation.ReflTransGen (Step S)

/-- The answers of a log, one after another, from one state to another; others may change the state
in between. -/
inductive Chain (S : Server σ α) (s₀ : σ) : List (Entry σ ι α) → σ → Prop where
  | start : Chain S s₀ [] s₀
  | other {log : List (Entry σ ι α)} {s s' : σ} (hlog : Chain S s₀ log s) (h : S.others s s') :
      Chain S s₀ log s'
  | answer {log : List (Entry σ ι α)} {e : Entry σ ι α} (hlog : Chain S s₀ log e.before)
      (hready : S.ready e.received e.ended)
      (h : S.answer e.before e.received e.ended e.reply e.after) : Chain S s₀ (log ++ [e]) e.after

/-- How a connection and the answer to it in the log fit together. -/
structure Fits (c : Conn α) (e : Entry σ ι α) : Prop where
  reply : c.reply = some e.reply
  received : e.received <+: c.stream
  ended : e.ended = true → e.received = c.stream

/-- What holds all the time. -/
structure Good (S : Server σ α) (s₀ : σ) (net : Net σ ι α) : Prop where
  chain : Chain S s₀ net.log net.state
  once : (net.log.map Entry.id).Nodup
  logged : ∀ e ∈ net.log, ∃ c, net.conns e.id = some c ∧ Fits c e
  answered : ∀ i c, net.conns i = some c → c.reply.isSome = true → ∃ e ∈ net.log, e.id = i
  waiting : ∀ i c, net.conns i = some c → c.reply = none → c.delivered = 0 ∧ c.closed = false
  closed : ∀ i c, net.conns i = some c → c.closed = true → c.got = c.reply.getD []
  ended : ∀ i c, net.conns i = some c → c.ended = true → c.received = c.stream

theorem good_start {S : Server σ α} {s₀ : σ} : Good S s₀ (Net.start s₀ : Net σ ι α) :=
  ⟨.start, List.nodup_nil, nofun, nofun, nofun, nofun, nofun⟩

section Keep

variable [DecidableEq ι] {S : Server σ α} {s₀ : σ} {net : Net σ ι α}

theorem update_eq_some {β : Type} {conns : ι → Option β} {i j : ι} {c d : β}
    (h : Function.update conns i (some c) j = some d) :
    (j = i ∧ d = c) ∨ (j ≠ i ∧ conns j = some d) := by
  by_cases hj : j = i
  · subst hj
    rw [Function.update_self] at h
    exact .inl ⟨rfl, (Option.some.inj h).symm⟩
  · rw [Function.update_of_ne hj] at h
    exact .inr ⟨hj, h⟩

/-- A connection that has moved on without being answered. -/
structure Moves (c c' : Conn α) : Prop where
  stream : c'.stream = c.stream
  reply : c'.reply = c.reply
  waiting : c.delivered = 0 ∧ c.closed = false → c'.reply = none →
    c'.delivered = 0 ∧ c'.closed = false
  closed : (c.closed = true → c.got = c.reply.getD []) → c'.closed = true →
    c'.got = c'.reply.getD []
  ended : (c.ended = true → c.received = c.stream) → c'.ended = true → c'.received = c'.stream

theorem Good.moves (h : Good S s₀ net) {i : ι} {c c' : Conn α} (hc : net.conns i = some c)
    (hmoves : Moves c c') :
    Good S s₀ { net with conns := Function.update net.conns i (some c') } := by
  refine ⟨h.chain, h.once, fun e he => ?_, fun j d hd => ?_, fun j d hd => ?_, fun j d hd => ?_,
    fun j d hd => ?_⟩
  · obtain ⟨d, hd, hfits⟩ := h.logged e he
    by_cases hj : e.id = i
    · subst hj
      obtain rfl := Option.some.inj (hc.symm.trans hd)
      refine ⟨c', Function.update_self .., hmoves.reply.trans hfits.reply, ?_, fun hended => ?_⟩
      · rw [hmoves.stream]
        exact hfits.received
      · rw [hmoves.stream]
        exact hfits.ended hended
    · exact ⟨d, (Function.update_of_ne hj ..).trans hd, hfits⟩
  · rcases update_eq_some hd with ⟨rfl, rfl⟩ | ⟨-, hd⟩
    · rw [hmoves.reply]
      exact h.answered _ c hc
    · exact h.answered j d hd
  · rcases update_eq_some hd with ⟨rfl, rfl⟩ | ⟨-, hd⟩
    · intro hnone
      exact hmoves.waiting (h.waiting _ c hc (hmoves.reply.symm.trans hnone)) hnone
    · exact h.waiting j d hd
  · rcases update_eq_some hd with ⟨rfl, rfl⟩ | ⟨-, hd⟩
    · exact hmoves.closed (h.closed _ c hc)
    · exact h.closed j d hd
  · rcases update_eq_some hd with ⟨rfl, rfl⟩ | ⟨-, hd⟩
    · exact hmoves.ended (h.ended _ c hc)
    · exact h.ended j d hd

/-- **One step keeps it.** -/
theorem Good.step (h : Good S s₀ net) {net' : Net σ ι α} (hs : Step S net net') :
    Good S s₀ net' := by
  cases hs with
  | other hother => exact ⟨.other h.chain hother, h.once, h.logged, h.answered, h.waiting, h.closed,
      h.ended⟩
  | arrive hc n =>
    refine h.moves hc ⟨rfl, rfl, fun hw _ => hw, fun hclosed => hclosed, fun hended hc' => ?_⟩
    have hall := hended hc'
    rw [Conn.received, List.take_eq_self_iff] at hall ⊢
    exact Nat.le_trans hall (Nat.le_add_right _ _)
  | finish hc hall =>
    exact h.moves hc ⟨rfl, rfl, fun hw _ => hw, fun hclosed => hclosed,
      fun _ _ => (List.take_eq_self_iff _).2 hall⟩
  | deliver hc hreply n =>
    refine h.moves hc ⟨rfl, rfl, fun _ hnone => ?_, fun hclosed hc' => ?_, fun hended => hended⟩
    · have hnone : (_ : Option (List α)) = none := hnone
      rw [hnone] at hreply
      cases hreply
    · have hall := hclosed hc'
      rw [Conn.got, List.take_eq_self_iff] at hall ⊢
      exact Nat.le_trans hall (Nat.le_add_right _ _)
  | close hc hreply hall =>
    refine h.moves hc ⟨rfl, rfl, fun _ hnone => ?_, fun _ _ => ?_, fun hended => hended⟩
    · cases hreply.symm.trans hnone
    · rw [Conn.got, List.take_eq_self_iff]
      dsimp only
      rw [hreply]
      exact hall
  | @connect i hnone stream =>
    refine ⟨h.chain, h.once, fun e he => ?_, fun j d hd => ?_, fun j d hd => ?_, fun j d hd => ?_,
      fun j d hd => ?_⟩
    · obtain ⟨d, hd, hfits⟩ := h.logged e he
      have hj : e.id ≠ i := by
        rintro rfl
        cases hnone.symm.trans hd
      exact ⟨d, (Function.update_of_ne hj ..).trans hd, hfits⟩
    · rcases update_eq_some hd with ⟨rfl, rfl⟩ | ⟨-, hd⟩
      · exact nofun
      · exact h.answered j d hd
    · rcases update_eq_some hd with ⟨rfl, rfl⟩ | ⟨-, hd⟩
      · exact fun _ => ⟨rfl, rfl⟩
      · exact h.waiting j d hd
    · rcases update_eq_some hd with ⟨rfl, rfl⟩ | ⟨-, hd⟩
      · exact nofun
      · exact h.closed j d hd
    · rcases update_eq_some hd with ⟨rfl, rfl⟩ | ⟨-, hd⟩
      · exact nofun
      · exact h.ended j d hd
  | @answer i c reply s hc hnone hready hanswer =>
    have hfresh : ∀ e ∈ net.log, e.id ≠ i := by
      rintro e he rfl
      obtain ⟨d, hd, hfits⟩ := h.logged e he
      obtain rfl := Option.some.inj (hc.symm.trans hd)
      cases hnone.symm.trans hfits.reply
    refine ⟨.answer (e := ⟨i, net.state, c.received, c.ended, reply, s⟩) h.chain hready hanswer, ?_,
      fun e he => ?_, fun j d hd => ?_, fun j d hd => ?_, fun j d hd => ?_, fun j d hd => ?_⟩
    · rw [List.map_append, List.map_singleton, List.nodup_append]
      refine ⟨h.once, List.nodup_singleton i, fun j hj k hk hjk => ?_⟩
      obtain ⟨e, he, rfl⟩ := List.mem_map.1 hj
      exact hfresh e he (hjk.trans (List.mem_singleton.1 hk))
    · rcases List.mem_append.1 he with he | he
      · obtain ⟨d, hd, hfits⟩ := h.logged e he
        exact ⟨d, (Function.update_of_ne (hfresh e he) ..).trans hd, hfits⟩
      · obtain rfl := List.mem_singleton.1 he
        exact ⟨_, Function.update_self .., rfl, List.take_prefix _ _, h.ended i c hc⟩
    · rcases update_eq_some hd with ⟨rfl, rfl⟩ | ⟨-, hd⟩
      · exact fun _ => ⟨_, List.mem_append_right _ (List.mem_singleton_self _), rfl⟩
      · intro hsome
        obtain ⟨e, he, hid⟩ := h.answered j d hd hsome
        exact ⟨e, List.mem_append_left _ he, hid⟩
    · rcases update_eq_some hd with ⟨rfl, rfl⟩ | ⟨-, hd⟩
      · exact nofun
      · exact h.waiting j d hd
    · rcases update_eq_some hd with ⟨rfl, rfl⟩ | ⟨-, hd⟩
      · intro hclosed
        cases (h.waiting _ c hc hnone).2.symm.trans hclosed
      · exact h.closed j d hd
    · rcases update_eq_some hd with ⟨rfl, rfl⟩ | ⟨-, hd⟩
      · exact h.ended _ c hc
      · exact h.ended j d hd

/-- **Every run keeps a good log.** -/
theorem Reaches.good (h : Reaches S (Net.start s₀) net) : Good S s₀ net := by
  induction h with
  | refl => exact good_start
  | tail _ hs ih => exact ih.step hs

/-- An answer, all of it, and the end of the connection. -/
theorem reaches_closed {i : ι} {c : Conn α} {reply : List α} {s : σ} (hc : net.conns i = some c)
    (hnone : c.reply = none) (hready : S.ready c.received c.ended)
    (hanswer : S.answer net.state c.received c.ended reply s) :
    ∃ net' c', Reaches S net net' ∧ net'.conns i = some c' ∧ c'.stream = c.stream ∧
      c'.closed = true := by
  obtain ⟨net₁, h₁, hc₁⟩ : ∃ net₁, Step S net net₁ ∧
      net₁.conns i = some { c with reply := some reply } :=
    ⟨_, .answer hc hnone hready hanswer, Function.update_self ..⟩
  obtain ⟨net₂, h₂, hc₂⟩ : ∃ net₂, Step S net₁ net₂ ∧ net₂.conns i
      = some { c with reply := some reply, delivered := c.delivered + reply.length } :=
    ⟨_, .deliver hc₁ rfl reply.length, Function.update_self ..⟩
  exact ⟨_, _, ((Relation.ReflTransGen.single h₁).tail h₂).tail
    (.close hc₂ rfl (Nat.le_add_left _ _)), Function.update_self .., rfl, rfl⟩

/-! ## Real time -/

variable {net₁ net₂ : Net σ ι α}

/-- The log only grows, at its end, and only by connections that were still waiting. -/
theorem Step.log_append (hs : Step S net₁ net₂) : ∃ es, net₂.log = net₁.log ++ es := by
  cases hs with
  | answer hc hnone hready hanswer => exact ⟨_, rfl⟩
  | connect | arrive | finish | deliver | close | other => exact ⟨[], (List.append_nil _).symm⟩

theorem Reaches.log_append (h : Reaches S net₁ net₂) : ∃ es, net₂.log = net₁.log ++ es := by
  induction h with
  | refl => exact ⟨[], (List.append_nil _).symm⟩
  | tail _ hs ih =>
    obtain ⟨es, hes⟩ := ih
    obtain ⟨es', hes'⟩ := hs.log_append
    exact ⟨es ++ es', by rw [hes', hes, List.append_assoc]⟩

/-- **The log follows real time**: an answer that had been given before a client connected stands
before the answer to that client. -/
theorem Reaches.precedes {s₁ s₂ : σ} (h₁ : Good S s₁ net₁) (h₂ : Good S s₂ net₂)
    (h : Reaches S net₁ net₂) {k m : Nat} {e e' e₁ : Entry σ ι α} (hk : net₂.log[k]? = some e)
    (hm : net₂.log[m]? = some e') (hmem : e₁ ∈ net₁.log) (hid : e₁.id = e.id)
    (hnone : net₁.conns e'.id = none) : k < m := by
  obtain ⟨es, hes⟩ := h.log_append
  obtain ⟨k', hk'⟩ := List.getElem?_of_mem hmem
  have hlt : k' < net₁.log.length := (List.getElem?_eq_some_iff.1 hk').1
  have hk₂ : net₂.log[k']? = some e₁ := by rw [hes, List.getElem?_append_left hlt, hk']
  have hkk' : k = k' := by
    obtain ⟨hlk, he⟩ := List.getElem?_eq_some_iff.1 hk
    obtain ⟨hlk', he₁⟩ := List.getElem?_eq_some_iff.1 hk₂
    refine (@List.Nodup.getElem_inj_iff _ _ h₂.once k (by rwa [List.length_map]) k'
      (by rwa [List.length_map])).1 ?_
    rw [List.getElem_map, List.getElem_map, he, he₁, hid]
  have hm' : net₁.log.length ≤ m := by
    by_contra hlt'
    rw [Nat.not_le] at hlt'
    rw [hes, List.getElem?_append_left hlt'] at hm
    obtain ⟨c, hc, -⟩ := h₁.logged e' (List.mem_of_getElem? hm)
    cases hnone.symm.trans hc
  omega

end Keep

/-- Every answer of the log is one that the server may give. -/
theorem Chain.forall_mem {S : Server σ α} {s₀ : σ} {log : List (Entry σ ι α)} {s : σ}
    (h : Chain S s₀ log s) : ∀ e ∈ log, S.ready e.received e.ended ∧
      S.answer e.before e.received e.ended e.reply e.after := by
  induction h with
  | start => exact nofun
  | other _ _ ih => exact ih
  | answer _ hready hanswer ih =>
    exact List.forall_mem_append.2 ⟨ih, List.forall_mem_singleton.2 ⟨hready, hanswer⟩⟩

/-! ## What the server is for -/

/-- A service that takes one request after another. -/
structure Service (κ Q R : Type) where
  serve : κ → Q → R × κ

/-- What it answers to these requests, and the state they leave. -/
def Service.run {κ Q R : Type} (V : Service κ Q R) : κ → List Q → List R × κ
  | k, [] => ([], k)
  | k, q :: qs => ((V.serve k q).1 :: (V.run (V.serve k q).2 qs).1, (V.run (V.serve k q).2 qs).2)

theorem Service.run_snoc {κ Q R : Type} (V : Service κ Q R) (q : Q) : ∀ (qs : List Q) (k : κ),
    V.run k (qs ++ [q])
      = ((V.run k qs).1 ++ [(V.serve (V.run k qs).2 q).1], (V.serve (V.run k qs).2 q).2)
  | [], _ => rfl
  | q' :: qs, k => by
    rw [List.cons_append, run, V.run_snoc q qs]
    rfl

/-- Each answer, by the requests before it. -/
theorem Service.run_getElem? {κ Q R : Type} (V : Service κ Q R) : ∀ (qs : List Q) (k : κ) (i : Nat),
    (V.run k qs).1[i]? = qs[i]?.map fun q => (V.serve (V.run k (qs.take i)).2 q).1
  | [], _, _ => rfl
  | _ :: _, _, 0 => rfl
  | q :: qs, k, i + 1 => by
    rw [run, List.getElem?_cons_succ, List.getElem?_cons_succ, V.run_getElem? qs]
    rfl

/-- A server that serves: what it makes of a request, how it writes an answer, and the part of its
state that counts. -/
structure Serves {κ Q R : Type} (S : Server σ α) (V : Service κ Q R) (view : σ → κ)
    (asks : List α → Bool → Q → Prop) (text : R → List α) : Prop where
  answer : ∀ {s received ended reply s'}, S.answer s received ended reply s' →
    ∃ q, asks received ended q ∧ reply = text (V.serve (view s) q).1 ∧
      view s' = (V.serve (view s) q).2
  others : ∀ {s s'}, S.others s s' → view s' = view s

theorem forall₂_getElem? {β γ : Type} {R : β → γ → Prop} {bs : List β} {cs : List γ}
    (h : List.Forall₂ R bs cs) {k : Nat} {b : β} (hb : bs[k]? = some b) :
    ∃ c, cs[k]? = some c ∧ R b c := by
  induction h generalizing k with
  | nil => cases hb
  | cons hbc _ ih =>
    cases k with
    | zero =>
      cases hb
      exact ⟨_, rfl, hbc⟩
    | succ k => exact ih hb

/-- **The log is a run of the service.** -/
theorem Chain.sequential {κ Q R : Type} {S : Server σ α} {V : Service κ Q R} {view : σ → κ}
    {asks : List α → Bool → Q → Prop} {text : R → List α} (hS : Serves S V view asks text)
    {s₀ s : σ} {log : List (Entry σ ι α)} (h : Chain S s₀ log s) :
    ∃ qs : List Q, List.Forall₂ (fun e q => asks e.received e.ended q) log qs ∧
      log.map Entry.reply = (V.run (view s₀) qs).1.map text ∧ view s = (V.run (view s₀) qs).2 := by
  induction h with
  | start => exact ⟨[], .nil, rfl, rfl⟩
  | other _ hother ih =>
    obtain ⟨qs, hqs, hreplies, hview⟩ := ih
    exact ⟨qs, hqs, hreplies, (hS.others hother).trans hview⟩
  | @answer log e _ _ hanswer ih =>
    obtain ⟨qs, hqs, hreplies, hview⟩ := ih
    obtain ⟨q, hq, hreply, hafter⟩ := hS.answer hanswer
    refine ⟨qs ++ [q], List.rel_append hqs (.cons hq .nil), ?_, ?_⟩
    · rw [List.map_append, List.map_singleton, hreplies, hreply, hview, V.run_snoc,
        List.map_append, List.map_singleton]
    · rw [hafter, hview, V.run_snoc]

end Exchange

end Effects
