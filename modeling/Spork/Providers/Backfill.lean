import Spork.Jmap.Client
import Spork.Paging

/-!
# The providers that can be backfilled

`query_messages` of `core/providers/file/provider.py` and `core/providers/jmap/provider.py`.  Both
read a window of a query, and both pages are the same function of that window (`windowPage`): of the
file's messages all of them are there (`FileProvider.queryMessages_eq`), and of the ids that a JMAP
server answers some may be gone when it is asked for the emails (`JmapProvider.queryMessages_eval`).
-/

set_option autoImplicit false

namespace Spork

open Effects Windows

/-- The page of a window whose entries are there or gone. -/
def windowPage (window : List (Option NormalizedMessage)) (position limit : Nat) : BackfillPage :=
  let es := (window.drop position).take limit
  { messages := es.reduceOption
    position := position
    nextPosition := position + es.length
    total := some window.length
    hasMore := decide (position + es.length < window.length) }

/-! ## The file provider -/

/-- `FileProvider`, with the messages of its file. -/
structure FileProvider where
  messages : List NormalizedMessage

/-- `FileProvider.query_messages`. -/
def FileProvider.queryMessages (provider : FileProvider) (_unreadOnly : Bool)
    (position limit : Nat) : BackfillPage :=
  let page := (provider.messages.drop position).take limit
  let nextPosition := position + page.length
  { messages := page
    position := position
    nextPosition := nextPosition
    total := some provider.messages.length
    hasMore := decide (nextPosition < provider.messages.length) }

theorem FileProvider.queryMessages_eq (provider : FileProvider) (unreadOnly : Bool)
    (position limit : Nat) : provider.queryMessages unreadOnly position limit
      = windowPage (provider.messages.map some) position limit := by
  simp [queryMessages, windowPage, ← List.map_drop, ← List.map_take, reduceOption_map_some]

/-! ## The JMAP provider -/

/-- `JmapProvider.query_messages`. -/
def JmapProvider.queryMessages (unreadOnly : Bool) (position limit : Nat) :
    JmapProc BackfillPage := do
  let result ← JmapClient.queryMessages unreadOnly position limit
  pure
    { messages := result.messages
      position := result.position
      nextPosition := result.nextPosition
      total := result.total
      hasMore := result.hasMore }

/-- The ids that a query matches, each with its email if that still exists when it is asked for. -/
structure QueryWindow where
  entries : List (String × Option JmapEmail)
  distinct : (entries.map Prod.fst).Nodup
  named : ∀ x ∈ entries, ∀ e ∈ x.2, e.id = some x.1 ∧ e.threadId.isSome = true

namespace QueryWindow

/-- The messages of a window. -/
def messages (q : QueryWindow) : List (Option NormalizedMessage) :=
  q.entries.map fun x => x.2.bind fun e => e.normalize.toOption

/-- A server that answers the query with the ids of the window, and a request for emails with those
that still exist. -/
def answer (q : QueryWindow) (w : Unit) : (op : JmapOp) → Except Exn op.Ret × Unit
  | .emailQuery _ position limit =>
    (.ok ⟨some (((q.entries.drop position).take limit).map fun x => some x.1), some position,
      some q.entries.length⟩, w)
  | .emailGet ids => (.ok ⟨some (ids.filterMap fun id => (q.entries.lookup id).join), none⟩, w)
  | .emailChanges _ => (.error (jmapError "cannotCalculateChanges"), w)
  | .pushWait | .timerWait | .setCursorValue _ => (.ok (), w)
  | .cursorValue => (.ok none, w)

theorem lookup_eq (q : QueryWindow) {x : String × Option JmapEmail} (hx : x ∈ q.entries) :
    q.entries.lookup x.1 = some x.2 := by
  obtain ⟨before, after, hentries⟩ := List.append_of_mem hx
  refine List.lookup_eq_some_iff.mpr ⟨before, after, hentries, fun y hy => ?_⟩
  have hdistinct := q.distinct
  rw [hentries, List.map_append, List.map_cons, List.nodup_append] at hdistinct
  have hne := hdistinct.2.2 y.1 (List.mem_map_of_mem hy) x.1 List.mem_cons_self
  simpa using hne.symm

/-- The emails of a part of the window. -/
theorem filterMap_lookup (q : QueryWindow) {es : List (String × Option JmapEmail)}
    (hes : es ⊆ q.entries) :
    (es.map Prod.fst).filterMap (fun id => (q.entries.lookup id).join)
      = es.filterMap Prod.snd := by
  rw [List.filterMap_map]
  refine List.filterMap_congr fun x hx => ?_
  rw [Function.comp_apply, q.lookup_eq (hes hx), Option.join_some]

/-- The emails of a part of the window can be normalised. -/
theorem mapM_normalize (q : QueryWindow) {es : List (String × Option JmapEmail)}
    (hes : es ⊆ q.entries) :
    (es.filterMap Prod.snd).mapM JmapEmail.normalize
      = .ok (es.map fun x => x.2.bind fun e => e.normalize.toOption).reduceOption := by
  induction es with
  | nil => rfl
  | cons x es ih =>
    have ih := ih fun y hy => hes (List.mem_cons_of_mem x hy)
    obtain ⟨id, email⟩ := x
    cases email with
    | none => exact ih
    | some e =>
      obtain ⟨hid, hthread⟩ := q.named _ (hes List.mem_cons_self) e rfl
      obtain ⟨m, hm, _⟩ := JmapEmail.normalize_ok ⟨id, _, hid, (Option.some_get hthread).symm⟩
      rw [List.filterMap_cons_some (f := Prod.snd) rfl, List.mapM_cons, ih, hm, List.map_cons,
        Option.bind_some, hm]
      rfl

theorem queriedMessages_eval (q : QueryWindow) {es : List (String × Option JmapEmail)}
    (hes : es ⊆ q.entries) :
    (JmapClient.queriedMessages (es.map Prod.fst)).eval q.answer ()
      = (.ok (es.map fun x => x.2.bind fun e => e.normalize.toOption).reduceOption, ()) := by
  rw [JmapClient.queriedMessages]
  split
  · rename_i hnil
    rw [List.map_eq_nil_iff.mp hnil]
    rfl
  · rw [Prog.eval_bind_ok (JmapClient.request_eval rfl)]
    show (Prog.done (S := jmapSig) (List.mapM JmapEmail.normalize _)).eval q.answer () = _
    rw [q.filterMap_lookup hes, q.mapM_normalize hes]
    rfl

end QueryWindow

/-- **A page of the JMAP provider.** -/
theorem JmapProvider.queryMessages_eval (q : QueryWindow) (unreadOnly : Bool)
    (position limit : Nat) :
    (JmapProvider.queryMessages unreadOnly position limit).eval q.answer ()
      = (.ok (windowPage q.messages position limit), ()) := by
  have hes : (q.entries.drop position).take limit ⊆ q.entries := fun x hx =>
    List.mem_of_mem_drop (List.mem_of_mem_take hx)
  have hids : (((q.entries.drop position).take limit).map fun x => some x.1)
      = (((q.entries.drop position).take limit).map Prod.fst).map some :=
    List.map_map.symm
  have hpage : windowPage q.messages position limit =
      { messages := (((q.entries.drop position).take limit).map fun x =>
          x.2.bind fun e => e.normalize.toOption).reduceOption
        position := position
        nextPosition := position + ((q.entries.drop position).take limit).length
        total := some q.entries.length
        hasMore := decide (position + ((q.entries.drop position).take limit).length
          < q.entries.length) } := by
    simp [windowPage, QueryWindow.messages, ← List.map_drop, ← List.map_take]
  have hquery : (JmapClient.queryMessages unreadOnly position limit).eval q.answer () = (.ok
      { messages := (((q.entries.drop position).take limit).map fun x =>
          x.2.bind fun e => e.normalize.toOption).reduceOption
        position := position
        nextPosition := position + (((q.entries.drop position).take limit).map Prod.fst).length
        total := some q.entries.length
        hasMore := decide (position +
          (((q.entries.drop position).take limit).map Prod.fst).length < q.entries.length) },
            ()) := by
    rw [JmapClient.queryMessages, Prog.eval_bind_ok (JmapClient.request_eval rfl), hids,
      JmapClient.texts_map_some]
    exact Prog.eval_bind_ok (q.queriedMessages_eval hes)
  rw [JmapProvider.queryMessages, Prog.eval_bind_ok hquery, hpage, List.length_map]
  rfl

end Spork
