import Spork.Guarantees.Handling
import Spork.Cli.Backfill
import Spork.Providers.Backfill

/-!
# What a backfill reaches

The loop of `_backfill` over the pages of a window is `Windows.sweep` (`backfill_sweeps`): as long
as nothing fails and Tier 2's budget lasts, a run handles exactly the messages that a sweep sees, in
that order.  Two statements about backfills come down to statements about sweeps.

* A run over a JMAP query reaches every message that still exists exactly if no page is wholly gone
  before the last of them, as a page without messages is taken for the end, and none of them but the
  last takes the run down (`backfill_reaches_survivors_iff`).
* Every run starts over, and counts a message that was handled before like any other.  So however
  often it is repeated, it handles the first messages up to its limit and no others
  (`backfill_resumable_iff`).
-/

set_option autoImplicit false

namespace Spork

open Effects Machine Windows

/-! ## The calls of `process_message` -/

/-- The message whose gate a call is.  It is the first call of `process_message`, and no other
function makes it. -/
def Op.gate : Op → Option String
  | .hasProcessed id => some id
  | _ => none

/-- The messages that `process_message` was called with, in order. -/
def World.gated (w : World) : List String := w.trace.filterMap fun e => e.op.gate

section Gated

variable {A : Allowed} {w w' : World} {message : NormalizedMessage}

theorem Responds.gated {op : Op} {r : Except Exn op.Ret} (h : Responds A w op r w') :
    w'.gated = w.gated ++ op.gate.toList := by
  rw [World.gated, h.trace, List.filterMap_append, ← World.gated]
  cases hop : op.gate <;> simp [hop]

theorem Op.Supporting.gate {op : Op} (h : op.Supporting) : op.gate = none := by
  cases op <;> first | exact h.elim | rfl

theorem ProcessingCall.gate {op : Op} (h : ProcessingCall message op) : op.gate = none := by
  rcases h with h | h
  · cases h with
    | supporting h => exact h.gate
    | _ => rfl
  · cases h with
    | supporting h => exact h.gate
    | asksModel h => cases op <;> first | exact h.elim | rfl
    | record => rfl

end Gated

/-- The only mark of a handled message is its own. -/
theorem HandlingCall.marks {message : NormalizedMessage} {op : Op} (h : HandlingCall message op) :
    op.marks = none ∨ ∃ row, op = .markProcessed message.messageId row := by
  rcases h with h | h | _
  · cases h with
    | supporting h => exact .inl h.marks
    | mark => exact .inr ⟨_, rfl⟩
    | _ => exact .inl rfl
  · cases h with
    | supporting h => exact .inl h.marks
    | asksModel h => exact .inl h.marks
    | record => exact .inl rfl
  · exact .inl rfl

/-! ## One message -/

/-- From `w` to `w'`, the messages `ms` were handled, in this order, and no others. -/
structure Handled (w w' : World) (ms : List NormalizedMessage) : Prop where
  gated : w'.gated = w.gated ++ ms.map NormalizedMessage.messageId
  processed : ∀ id, w'.db.hasProcessed id = true ↔
    w.db.hasProcessed id = true ∨ id ∈ ms.map NormalizedMessage.messageId

theorem Handled.refl (w : World) : Handled w w [] := ⟨by simp, by simp⟩

theorem Handled.trans {w₁ w₂ w₃ : World} {ms ns : List NormalizedMessage} (h : Handled w₁ w₂ ms)
    (h' : Handled w₂ w₃ ns) : Handled w₁ w₃ (ms ++ ns) where
  gated := by rw [h'.gated, h.gated, List.map_append, List.append_assoc]
  processed id := by rw [h'.processed, h.processed, List.map_append, List.mem_append, or_assoc]

/-- A call that is no gate and no mark handles nothing. -/
theorem Handled.of_responds {A : Allowed} {w w' : World} {op : Op} {r : Except Exn op.Ret}
    (h : Responds A w op r w') (hgate : op.gate = none) (hmarks : op.marks = none) :
    Handled w w' [] where
  gated := by rw [h.gated, hgate]; simp
  processed id := by
    rw [StateDB.hasProcessed, h.processedMessages hmarks]
    simp [StateDB.hasProcessed]

/-- Handling `message` does not find the budget exhausted. -/
def Affords (A : Allowed) (deps : MessageDeps) (rules : List Rule) (message : NormalizedMessage) :
    Prop :=
  (machine A).ReturnsOnly (·.2 ≠ some .budgetExhausted) (handleMessage deps rules message)

/-- `process_message` or `escalate_message_or_quarantine` may raise on `message`. -/
def MayFail (A : Allowed) (deps : MessageDeps) (rules : List Rule) (message : NormalizedMessage) :
    Prop :=
  ¬(machine A).RaisesOnly (fun _ => False) (handleMessage deps rules message)

/-- From `w` to `w'`, the messages `ms` were handled in this order, up to one that failed. -/
def FailedAmong (A : Allowed) (deps : MessageDeps) (rules : List Rule) (w w' : World)
    (ms : List NormalizedMessage) : Prop :=
  ∃ seen m rest, ms = seen ++ m :: rest ∧ MayFail A deps rules m ∧
    w'.gated = w.gated ++ (seen ++ [m]).map NormalizedMessage.messageId

/-- What was handled before, and what would have been handled afterwards. -/
theorem Handled.failedAmong {A : Allowed} {deps : MessageDeps} {rules : List Rule}
    {w w₁ w' : World} {ms ns : List NormalizedMessage} (h : Handled w w₁ ms)
    (h' : FailedAmong A deps rules w₁ w' ns) (rest : List NormalizedMessage) :
    FailedAmong A deps rules w w' (ms ++ (ns ++ rest)) := by
  obtain ⟨seen, m, rest', rfl, hfail, hgated⟩ := h'
  refine ⟨ms ++ seen, m, rest' ++ rest, by simp, hfail, ?_⟩
  rw [hgated, h.gated, List.append_assoc, ← List.map_append, List.append_assoc]

/-- One row is new, and the others are what they were. -/
theorem handled_row {w w' : World} {message : NormalizedMessage}
    (hnew : w'.db.hasProcessed message.messageId = true)
    (hrows : ∀ id, id ≠ message.messageId → w'.db.hasProcessed id = w.db.hasProcessed id)
    (id : String) :
    w'.db.hasProcessed id = true ↔
      w.db.hasProcessed id = true ∨ id ∈ [message].map NormalizedMessage.messageId := by
  by_cases hid : id = message.messageId
  · simp [hid, hnew]
  · simp [hid, hrows id hid]

section One

variable {A : Allowed} {deps : MessageDeps} {rules : List Rule} {message : NormalizedMessage}

/-- The gate of a message is passed once. -/
theorem handleMessage_gated (hdeps : deps.Wired) (w : World) :
    (machine A).wp (fun _ => True) (handleMessage deps rules message)
      (fun _ w' => w'.gated = w.gated ++ [message.messageId]) w := by
  obtain ⟨rest, heq, hrest⟩ := handleMessage_gate message hdeps rules
  rw [heq]
  refine ⟨trivial, fun r w₁ hr => ?_⟩
  have hw₁ : w₁.gated = w.gated ++ [message.messageId] := hr.gated
  have hkeeps : ∀ {p : Proc (Option RuleVerdict × Option EscalationResult)},
      p.Only (ProcessingCall message) → (machine A).wp (fun _ => True) p
        (fun _ w' => w'.gated = w.gated ++ [message.messageId]) w₁ := by
    intro p hp
    refine wp_mono (fun _ _ => trivial) (fun _ _ h _ => h) (keeps_of_only ?_ hp w₁ hw₁)
    intro w₂ op r w₃ hop hw₂ hr
    rw [hr.gated, hop.gate, hw₂]
    exact List.append_nil _
  cases r with
  | ok seen => exact hkeeps (hrest seen)
  | error e => exact hkeeps trivial

/-- No row but the message's own is touched. -/
theorem handleMessage_rows (hdeps : deps.Wired) (w : World) :
    (machine A).wp (fun w' => ∀ id, id ≠ message.messageId →
        w'.db.hasProcessed id = w.db.hasProcessed id)
      (handleMessage deps rules message) (fun _ _ => True) w := by
  refine keeps_of_only ?_ (handleMessage_only hdeps rules) w fun _ _ => rfl
  intro w₁ op r w₂ hop hw₁ hr id hid
  rw [← hw₁ id hid]
  rcases hop.marks with hmarks | ⟨row, rfl⟩
  · rw [StateDB.hasProcessed, StateDB.hasProcessed, hr.processedMessages hmarks]
  · rcases hr.db with hdb | hdb <;> rw [hdb]
    rw [Op.commit, StateDB.hasProcessed, StateDB.processedMessages_markProcessed,
      Function.update_of_ne hid, StateDB.hasProcessed]

/-- A handled message is the only one that is handled. -/
theorem handleMessage_handled (hdeps : deps.Wired) (h : Affords A deps rules message) (w : World) :
    (machine A).wp (fun _ => True) (handleMessage deps rules message)
      (fun r w' => ((∃ e, r = .error e) ∧ FailedAmong A deps rules w w' [message]) ∨
        ∃ result, r = .ok result ∧ result.2 ≠ some .budgetExhausted ∧
          Handled w w' [message]) w := by
  have hfails : (machine A).wp (fun _ => True) (handleMessage deps rules message)
      (fun r _ => ∀ e, r = .error e → MayFail A deps rules message) w := by
    by_cases hfail : MayFail A deps rules message
    · exact wp_mono (fun _ _ => trivial) (fun _ _ _ _ _ _ => hfail) (h w)
    · exact wp_mono (fun _ h => h) (fun _ _ _ hnone e he => absurd he (hnone e))
        (not_not.mp hfail w)
  have hall := wp_and hfails (wp_and (h w) (wp_and (handleMessage_marks deps rules message w)
    (wp_and (handleMessage_gated hdeps w) (handleMessage_rows hdeps w))))
  refine wp_mono (fun _ _ => trivial) ?_ hall
  rintro (e | result) w' ⟨_, _, _, _, hrows⟩ ⟨hfail, hresult, hmarks, hgated, _⟩
  · exact .inl ⟨⟨e, rfl⟩, [], message, [], rfl, hfail e rfl, hgated⟩
  · exact .inr ⟨result, rfl, hresult result rfl, hgated, handled_row (hmarks rfl) hrows⟩

end One

/-! ## When there is budget for a message -/

section Affording

variable {A : Allowed}

/-- With budget left, Tier 2 comes to a verdict, if it returns. -/
theorem processTier2Message_verdict {deps : Tier2Deps} {input : Tier2Input}
    (hbudget : ∀ date usage, A (.getLlmUsage date) (.ok usage) →
      hasBudgetRemaining usage deps.tiering.dailyCallBudget = true) :
    (machine A).ReturnsOnly (· ≠ none) (processTier2Message deps input) := by
  rw [processTier2Message_eq]
  refine .bind_right fun ts => .bind_right fun _ => ?_
  have husage : (machine A).ReturnsOnly
      (fun usage => hasBudgetRemaining usage deps.tiering.dailyCallBudget = true)
      (call (.getLlmUsage (dateOf ts))) := fun w =>
    wp_call trivial (fun usage _ hA _ => ⟨trivial, fun _ h => by cases h; exact hbudget _ _ hA⟩)
      fun _ _ _ => ⟨trivial, fun _ h => by cases h⟩
  refine husage.bind fun usage hleft => ?_
  rw [if_pos hleft]
  exact .bind_right fun _ => .bind_right fun _ => .bind_right fun _ => returnsOnly_pure (by simp)

theorem escalateMessageOrQuarantine_budget {deps : EscalateDeps} {message : NormalizedMessage}
    (hbudget : ∀ date usage, A (.getLlmUsage date) (.ok usage) →
      hasBudgetRemaining usage deps.tier2.tiering.dailyCallBudget = true) :
    (machine A).ReturnsOnly (· ≠ .budgetExhausted) (escalateMessageOrQuarantine deps message) := by
  refine .tryCatch ?_ fun e => ?_
  · have hverdict : (machine A).ReturnsOnly (· ≠ none) (escalateMessage deps message) :=
      .bind_right fun _ => .bind_right fun _ => processTier2Message_verdict hbudget
    refine hverdict.bind fun verdict hsome => returnsOnly_pure ?_
    cases verdict with
    | none => exact absurd rfl hsome
    | some verdict => exact fun h => by cases h
  · split
    · exact .bind_right fun _ => .bind_right fun _ => .bind_right fun _ => .bind_right fun _ =>
        .bind_right fun _ => returnsOnly_pure fun h => by cases h
    · exact returnsOnly_raise

/-- With budget left, no message finds it exhausted. -/
theorem handleMessage_budget {deps : MessageDeps} {rules : List Rule} {message : NormalizedMessage}
    (hbudget : ∀ date usage, A (.getLlmUsage date) (.ok usage) →
      hasBudgetRemaining usage deps.escalation.tier2.tiering.dailyCallBudget = true) :
    Affords A deps rules message := by
  rw [Affords, handleMessage]
  refine .bind_right fun verdict => ?_
  split
  · refine (escalateMessageOrQuarantine_budget hbudget).bind fun result hresult =>
      returnsOnly_pure ?_
    exact fun h => hresult (Option.some.inj h)
  · exact returnsOnly_pure (by simp)

/-- An action that Tier 1 carries out itself. -/
def Action.Terminal (action : Action) : Prop :=
  action.type = .move ∨ action.type = .tag ∨ action.type = .ignore

/-- The verdict on a message is the action of a rule, or the default. -/
theorem evaluate_returns {message : NormalizedMessage} {rules : List Rule} {default : Action}
    {classifier : Option TextClassifier} {P : Action → Prop} (hrules : ∀ r ∈ rules, P r.action)
    (hdefault : P default) :
    (machine A).ReturnsOnly (fun verdict => P verdict.action)
      (evaluate message rules default classifier) := by
  have key : ∀ (rules : List Rule) cached, (∀ r ∈ rules, P r.action) →
      (machine A).ReturnsOnly (fun verdict => P verdict.action)
        (evaluateFrom message default classifier rules cached) := by
    intro rules
    induction rules with
    | nil => exact fun _ _ => returnsOnly_pure hdefault
    | cons rule rules ih =>
      intro cached hrules
      have ih := fun cached => ih cached fun r hr => hrules r (List.mem_cons_of_mem rule hr)
      rw [evaluateFrom]
      split
      · exact ih cached
      · refine .bind_right fun found => ?_
        obtain ⟨matched, cached⟩ := found
        cases matched with
        | true => exact returnsOnly_pure (hrules rule List.mem_cons_self)
        | false => exact ih cached
  exact key rules none hrules

/-- Where every rule is terminal, no message comes to Tier 2. -/
theorem handleMessage_terminal {deps : MessageDeps} {rules : List Rule}
    {message : NormalizedMessage}
    (hrules : ∀ r ∈ rules, r.action.Terminal)
    (hdefault : deps.tier1.defaultUnmatchedAction.Terminal) :
    Affords A deps rules message := by
  rw [Affords, handleMessage_eq]
  refine .bind_right fun seen => ?_
  split
  · exact returnsOnly_pure (by simp)
  · refine .bind_right fun ts => .bind_right fun _ =>
      (evaluate_returns (P := Action.Terminal) hrules hdefault).bind fun verdict hterminal =>
        .bind_right fun _ => ?_
    have hne : verdict.action.type ≠ .escalate := by
      rcases hterminal with h | h | h <;> rw [h] <;> simp
    rw [if_neg hne]
    exact returnsOnly_pure (by simp)

end Affording

/-! ## The loop over the pages -/

/-- Nothing raises, and every page is the page of a window. -/
structure Serves (A : Allowed) (window : List (Option NormalizedMessage)) (unreadOnly : Bool) :
    Prop where
  returns : ∀ op e, ¬A op (.error e)
  pages : ∀ position limit page, A (.queryMessages unreadOnly position limit) (.ok page) →
    page = windowPage window position limit

section Pages

variable {A : Allowed} {deps : MessageDeps} {rules : List Rule} {options : BackfillOptions}
  {window : List (Option NormalizedMessage)} {w w₀ : World}

theorem BackfillCounts.processed_add (counts : BackfillCounts)
    (result : Option RuleVerdict × Option EscalationResult) :
    (counts.add result).processed = counts.processed + 1 := by
  obtain ⟨_ | verdict, _ | (_ | _ | _)⟩ := result <;> rfl

theorem BackfillCounts.budgetExhausted_add {counts : BackfillCounts}
    {result : Option RuleVerdict × Option EscalationResult}
    (h : result.2 ≠ some .budgetExhausted) :
    (counts.add result).budgetExhausted = counts.budgetExhausted := by
  obtain ⟨_ | verdict, _ | (_ | _ | _)⟩ := result <;> first | rfl | exact absurd rfl h

/-- **The messages of a page.**  With room for all of them, all of them are handled, unless one
fails. -/
theorem backfillMessages_handled (hdeps : deps.Wired) {limit : Nat} :
    ∀ (ms : List NormalizedMessage) (counts : BackfillCounts) (w : World),
      (∀ m ∈ ms, Affords A deps rules m) → counts.processed + ms.length ≤ limit →
      counts.budgetExhausted = false →
      (machine A).wp (fun _ => True) (backfillMessages deps rules limit ms counts)
        (fun r w' => ((∃ e, r = .error e) ∧ FailedAmong A deps rules w w' ms) ∨
          ∃ counts', r = .ok counts' ∧ counts'.budgetExhausted = false ∧
            counts'.processed = counts.processed + ms.length ∧ Handled w w' ms) w
  | [], counts, w, _, _, hbudget => ⟨trivial, .inr ⟨counts, rfl, hbudget, rfl, .refl w⟩⟩
  | m :: ms, counts, w, hms, hroom, hbudget => by
    rw [List.length_cons] at hroom
    rw [backfillMessages, if_neg (by omega), backfillOne_eq, bind_assoc, wp_bind]
    refine wp_mono (fun _ h => h) ?_ (handleMessage_handled hdeps (hms m List.mem_cons_self) w)
    rintro _ w₁ _ (⟨⟨e, rfl⟩, hfail⟩ | ⟨result, rfl, hresult, hhandled⟩)
    · exact ⟨trivial, .inl ⟨⟨e, rfl⟩, (Handled.refl w).failedAmong hfail ms⟩⟩
    have hprocessed := counts.processed_add result
    have hleft : (counts.add result).budgetExhausted = false :=
      (BackfillCounts.budgetExhausted_add hresult).trans hbudget
    simp only [Prog.onValue, pure_bind, hleft, Bool.false_eq_true, if_false]
    refine wp_mono (fun _ h => h) ?_ (backfillMessages_handled hdeps ms _ w₁
      (fun m' hm' => hms m' (List.mem_cons_of_mem m hm')) (by omega) hleft)
    rintro _ w₂ _ (⟨herror, hfail⟩ | ⟨counts', rfl, hleft', hprocessed', hhandled'⟩)
    · have hrest := hhandled.failedAmong hfail []
      rw [List.append_nil] at hrest
      exact .inl ⟨herror, hrest⟩
    · refine .inr ⟨counts', rfl, hleft', ?_, hhandled.trans hhandled'⟩
      rw [List.length_cons]
      omega

/-- Before a round: what was handled so far, and what is left to see, is what a sweep sees. -/
structure Sweeping (window : List (Option NormalizedMessage)) (options : BackfillOptions)
    (w₀ : World) (s : BackfillState) (w : World) : Prop where
  budget : s.counts.budgetExhausted = false
  handled : ∃ done, Handled w₀ w done ∧
    done ++ sweep window options.pageSize options.limit s.position s.counts.processed
      = sweep window options.pageSize options.limit 0 0

/-- A run is over: a message failed, or everything that a sweep sees was handled. -/
def Over (A : Allowed) (deps : MessageDeps) (rules : List Rule)
    (window : List (Option NormalizedMessage)) (options : BackfillOptions) (w₀ : World)
    (r : Except Exn (Next BackfillState BackfillCounts)) (w : World) : Prop :=
  ((∃ e, r = .error e) ∧
      FailedAmong A deps rules w₀ w (sweep window options.pageSize options.limit 0 0)) ∨
    ∃ counts, r = .ok (.leave counts) ∧
      Handled w₀ w (sweep window options.pageSize options.limit 0 0)

/-- After a round: it goes round again further on, or the run is over. -/
def SweptTo (A : Allowed) (deps : MessageDeps) (rules : List Rule)
    (window : List (Option NormalizedMessage)) (options : BackfillOptions) (w₀ : World)
    (position : Nat) (r : Except Exn (Next BackfillState BackfillCounts)) (w : World) : Prop :=
  (∃ s, r = .ok (.again s) ∧ position < s.position ∧ s.position < window.length ∧
      Sweeping window options w₀ s w) ∨ Over A deps rules window options w₀ r w

/-- **One page.** -/
theorem backfillPage_sweeps (hdeps : deps.Wired) (hserves : Serves A window options.unreadOnly)
    (hafford : ∀ m, some m ∈ window → Affords A deps rules m) (hsize : 0 < options.pageSize)
    {s : BackfillState} (hs : Sweeping window options w₀ s w) :
    (machine A).wp (fun _ => True) (backfillPage deps rules options s)
      (SweptTo A deps rules window options w₀ s.position) w := by
  obtain ⟨hbudget, seen, hseen, hsweep⟩ := hs
  rw [backfillPage]
  split
  · rename_i hgo
    refine wp_call_bind trivial (fun page db' hA hg => ?_)
      fun e hA _ => absurd hA (hserves.returns _ e)
    have hquery : Handled w₀ (w.record (.queryMessages _ _ _) (.ok page) db') seen := by
      have := hseen.trans (.of_responds (.answers hA hg) rfl rfl)
      rwa [List.append_nil] at this
    rw [sweep_of_page hgo.1 hsize] at hsweep
    have hpage := hserves.pages _ _ page hA
    obtain ⟨es, hes⟩ : ∃ es, es = Windows.page window options.pageSize options.limit s.position
      s.counts.processed := ⟨_, rfl⟩
    have hmessages : page.messages = es.reduceOption := by rw [hpage, hes]; rfl
    have hnext : page.nextPosition = s.position + es.length := by rw [hpage, hes]; rfl
    have hmore : page.hasMore = decide (s.position + es.length < window.length) := by
      rw [hpage, hes]
      rfl
    have hroom : es.reduceOption.length ≤ options.limit - s.counts.processed := by
      rw [hes]
      exact length_reduceOption_page_le _ _ _ _ _
    have hmem : ∀ m ∈ es.reduceOption, some m ∈ window := by
      intro m hm
      rw [hes] at hm
      exact List.mem_of_mem_drop (List.mem_of_mem_take (List.reduceOption_mem_iff.mp hm))
    rw [← hes] at hsweep
    rw [hmessages]
    split
    · rename_i hgone
      rw [if_pos hgone, List.append_nil] at hsweep
      exact ⟨trivial, .inr (.inr ⟨_, rfl, hsweep ▸ hquery⟩)⟩
    · rename_i hthere
      rw [if_neg hthere, ← List.append_assoc] at hsweep
      rw [wp_bind]
      refine wp_mono (fun _ h => h) ?_ (backfillMessages_handled hdeps es.reduceOption s.counts _
        (fun m hm => hafford m (hmem m hm)) (by omega) hbudget)
      rintro _ w' _ (⟨⟨e, rfl⟩, hfail⟩ | ⟨counts, rfl, hleft, hprocessed, hhandled⟩)
      · rw [List.append_assoc] at hsweep
        exact ⟨trivial, .inr (.inl ⟨⟨e, rfl⟩, hsweep ▸ hquery.failedAmong hfail _⟩)⟩
      have hhandled := hquery.trans hhandled
      simp only [Prog.onValue, hmore, hnext, decide_eq_true_eq]
      split
      · rename_i hagain
        have hne : es ≠ [] := fun h => hthere (by rw [h]; rfl)
        have hpos := List.length_pos_iff.mpr hne
        refine ⟨trivial, .inl ⟨_, rfl, by simp only; omega, hagain, hleft, _, hhandled, ?_⟩⟩
        rw [hprocessed]
        exact hsweep
      · rename_i hend
        rw [sweep_of_end (Nat.not_lt.mp hend), List.append_nil] at hsweep
        exact ⟨trivial, .inr (.inr ⟨_, rfl, hsweep ▸ hhandled⟩)⟩
  · rename_i hstop
    have hlimit : options.limit ≤ s.counts.processed := by
      by_contra hlt
      exact hstop ⟨Nat.not_le.mp hlt, hbudget⟩
    rw [sweep_of_limit hlimit, List.append_nil] at hsweep
    exact ⟨trivial, .inr (.inr ⟨_, rfl, hsweep ▸ hseen⟩)⟩

/-- The first page comes behind the audit entry of the run. -/
theorem backfill_first_page (hdeps : deps.Wired) (hserves : Serves A window options.unreadOnly)
    (hafford : ∀ m, some m ∈ window → Affords A deps rules m) (hsize : 0 < options.pageSize)
    (w : World) : (machine A).wp (fun _ => True) (backfill deps rules options)
      (SweptTo A deps rules window options w 0) w := by
  rw [backfill]
  refine wp_call_bind trivial (fun ts db₁ hA₁ hg₁ => ?_)
    fun e hA _ => absurd hA (hserves.returns _ e)
  refine wp_call_bind trivial (fun _ db₂ hA₂ hg₂ => ?_)
    fun e hA _ => absurd hA (hserves.returns _ e)
  have hnow : Handled w (w.record .now (.ok ts) db₁) [] := .of_responds (.answers hA₁ hg₁) rfl rfl
  have haudit := hnow.trans (.of_responds (.answers hA₂ hg₂) rfl rfl)
  exact backfillPage_sweeps (s := {}) hdeps hserves hafford hsize ⟨rfl, [], haudit, rfl⟩

/-- **A run handles what a sweep sees**, unless a message fails. -/
theorem backfill_sweeps (hdeps : deps.Wired) (hserves : Serves A window options.unreadOnly)
    (hafford : ∀ m, some m ∈ window → Affords A deps rules m) (hsize : 0 < options.pageSize)
    {c : Loop.Config sig World BackfillState BackfillCounts}
    (h : Loop.Reaches (machine A) (backfillPage deps rules options)
      (backfill deps rules options, w) c)
    {r : Except Exn (Next BackfillState BackfillCounts)} (hr : c.1 = .done r) :
    (∃ s, r = .ok (.again s)) ∨ Over A deps rules window options w r c.2 := by
  let Q : Except Exn (Next BackfillState BackfillCounts) → World → Prop := fun r w' =>
    (∃ s, r = .ok (.again s) ∧ Sweeping window options w s w') ∨
      Over A deps rules window options w r w'
  have hQ : ∀ {position r w'}, SweptTo A deps rules window options w position r w' → Q r w' :=
    fun h =>
    h.imp (fun ⟨s, hr, _, _, hs⟩ => ⟨s, hr, hs⟩) id
  have hwp : (machine A).wp (fun _ => True) c.1 Q c.2 := by
    refine Loop.reaches_wp (J := Sweeping window options w) (fun s w' hs => ?_) ?_ ?_ h
    · exact wp_mono (fun _ h => h) (fun _ _ _ => hQ)
        (backfillPage_sweeps hdeps hserves hafford hsize hs)
    · rintro s w' (⟨s', hs', hsweeping⟩ | ⟨⟨_, herror⟩, _⟩ | ⟨_, hleave, _⟩)
      · cases hs'
        exact hsweeping
      · cases herror
      · cases hleave
    · exact wp_mono (fun _ h => h) (fun _ _ _ => hQ)
        (backfill_first_page hdeps hserves hafford hsize w)
  rw [hr] at hwp
  exact hwp.2.imp (fun ⟨s, hr, _⟩ => ⟨s, hr⟩) id

/-- **A run terminates.**  Every page that is followed by another one moves on. -/
theorem backfill_terminates (hdeps : deps.Wired) (hserves : Serves A window options.unreadOnly)
    (hafford : ∀ m, some m ∈ window → Affords A deps rules m) (hsize : 0 < options.pageSize)
    (w : World) :
    Acc (fun c' c => Loop.Step (machine A) (backfillPage deps rules options) c c')
      (backfill deps rules options, w) := by
  have hrank : ∀ {position r w'}, SweptTo A deps rules window options w position r w' →
      ∀ s, r = .ok (.again s) →
      Sweeping window options w s w' ∧ window.length - s.position < window.length - position := by
    rintro position r w' (⟨s', rfl, hmoved, hwindow, hs⟩ | ⟨⟨_, rfl⟩, _⟩ | ⟨_, rfl, _⟩) s hr
    · cases hr
      exact ⟨hs, by omega⟩
    · cases hr
    · cases hr
  refine Loop.terminates (I := fun _ => True) (J := Sweeping window options w)
    (fun s => window.length - s.position) (fun s w' hs => ?_) window.length _ w ?_
  · exact wp_mono (fun _ h => h) (fun _ _ _ => hrank)
      (backfillPage_sweeps hdeps hserves hafford hsize hs)
  · exact wp_mono (fun _ h => h) (fun _ _ _ => hrank)
      (backfill_first_page hdeps hserves hafford hsize w)

end Pages

/-! ## A window with gaps -/

namespace QueryWindow

/-- The ids of the messages that still exist. -/
def survivors (q : QueryWindow) : List String := q.entries.filterMap fun x => x.2.map fun _ => x.1

/-- No page is wholly gone before the last entry that is not. -/
def NoPageGone (q : QueryWindow) (pageSize : Nat) : Prop :=
  ∀ i, i * pageSize < q.entries.length →
    (∀ x ∈ slice q.entries (i * pageSize) (i * pageSize + pageSize), x.2 = none) →
    ∀ x ∈ q.entries.drop (i * pageSize), x.2 = none

variable (q : QueryWindow)

/-- The message of an entry that still exists. -/
theorem normalize_entry {x : String × Option JmapEmail} (hx : x ∈ q.entries) {e : JmapEmail}
    (he : x.2 = some e) : ∃ m, e.normalize = .ok m ∧ m.messageId = x.1 := by
  obtain ⟨hid, hthread⟩ := q.named x hx e he
  obtain ⟨m, hm, hmid⟩ := JmapEmail.normalize_ok
    ⟨x.1, _, hid, (Option.some_get hthread).symm⟩
  exact ⟨m, hm, Option.some.inj (hmid.symm.trans hid)⟩

theorem messages_survivors :
    q.messages.reduceOption.map NormalizedMessage.messageId = q.survivors := by
  rw [messages, List.reduceOption, List.filterMap_map, List.map_filterMap]
  refine List.filterMap_congr fun x hx => ?_
  cases he : x.2 with
  | none => simp [he]
  | some e =>
    obtain ⟨m, hm, hid⟩ := q.normalize_entry hx he
    simp [he, hm, hid, Except.toOption]

theorem survivors_sublist : q.survivors.Sublist (q.entries.map Prod.fst) := by
  rw [survivors]
  induction q.entries with
  | nil => exact .slnil
  | cons x entries ih =>
    cases hx : x.2 with
    | none =>
      rw [List.filterMap_cons_none (by rw [hx]; rfl)]
      exact ih.cons _
    | some e =>
      rw [List.filterMap_cons_some (by rw [hx]; rfl)]
      exact ih.cons_cons _

/-- A part of the window without messages is a part without entries that still exist. -/
theorem reduceOption_eq_nil_iff {es : List (String × Option JmapEmail)} (hes : es ⊆ q.entries) :
    (es.map fun x => x.2.bind fun e => e.normalize.toOption).reduceOption = [] ↔
      ∀ x ∈ es, x.2 = none := by
  rw [List.reduceOption, List.filterMap_map, List.filterMap_eq_nil_iff]
  refine forall₂_congr fun x hx => ?_
  cases he : x.2 with
  | none => simp [he]
  | some e =>
    obtain ⟨m, hm, _⟩ := q.normalize_entry (hes hx) he
    simp [he, hm, Except.toOption]

/-- A sweep of the whole window. -/
theorem sweep_eq_iff {pageSize limit : Nat} (hsize : 0 < pageSize)
    (hlimit : q.entries.length ≤ limit) :
    sweep q.messages pageSize limit 0 0 = q.messages.reduceOption ↔ q.NoPageGone pageSize := by
  have hlimit' : q.messages.length ≤ limit := by rwa [messages, List.length_map]
  have hall := Windows.sweep_eq_iff hsize hlimit' (Nat.le_refl 0)
  rw [List.drop_zero] at hall
  rw [hall, NoPageGone]
  refine forall_congr' fun i => ?_
  rw [Nat.zero_add, messages, List.length_map, slice, ← List.map_drop, ← List.map_take,
    q.reduceOption_eq_nil_iff fun x hx => List.mem_of_mem_drop (List.mem_of_mem_take hx),
    q.reduceOption_eq_nil_iff fun x hx => List.mem_of_mem_drop hx]
  rfl

end QueryWindow

/-- The ids of a run that failed are all that survive exactly if it failed on the last of them. -/
theorem QueryWindow.failed_iff (q : QueryWindow) {pageSize limit : Nat} (hsize : 0 < pageSize)
    (hlimit : q.entries.length ≤ limit) {seen rest : List NormalizedMessage}
    {m : NormalizedMessage} (hsweep : sweep q.messages pageSize limit 0 0 = seen ++ m :: rest) :
    (seen ++ [m]).map NormalizedMessage.messageId = q.survivors ↔
      q.NoPageGone pageSize ∧ some m.messageId = q.survivors.getLast? := by
  have hinitial := sweep_initial q.messages pageSize limit 0 0
  rw [List.drop_zero] at hinitial
  rw [← q.sweep_eq_iff hsize hlimit]
  constructor
  · intro hids
    have hlength := congrArg List.length hids
    rw [← q.messages_survivors, List.length_map, List.length_map, List.length_append,
      List.length_singleton] at hlength
    have hle := hinitial.length_le
    rw [hsweep, List.length_append, List.length_cons] at hle
    refine ⟨hinitial.eq_of_length ?_, ?_⟩
    · rw [hsweep, List.length_append, List.length_cons]
      omega
    · rw [← hids, List.map_append, List.map_singleton, List.getLast?_concat]
  · rintro ⟨hall, hlast⟩
    have hids : (seen ++ m :: rest).map NormalizedMessage.messageId = q.survivors := by
      rw [← hsweep, hall, q.messages_survivors]
    have hnodup : q.survivors.Nodup := q.survivors_sublist.nodup q.distinct
    rw [← hids, List.map_append, List.map_cons] at hnodup hlast
    cases rest with
    | nil => exact hids
    | cons m' rest =>
      -- its id would be there twice
      rw [List.getLast?_append_of_ne_nil _ (List.cons_ne_nil _ _), List.map_cons,
        List.getLast?_cons_cons] at hlast
      have hmem := List.mem_of_getLast? hlast.symm
      exact absurd hmem (List.nodup_cons.1 (List.nodup_append.1 hnodup).2.1).1

/-- **When a backfill reaches every message that still exists.**  With a limit for the whole window,
and as long as no call raises and Tier 2's budget lasts, a run over a JMAP query terminates.  It
raises only if `process_message` or `escalate_message_or_quarantine` does on the message that it has
called `process_message` for last; it has called it for every surviving id, once and in order,
exactly if no page is wholly gone before the last of them and it has raised on none but the last;
so it does if no page is and none of the others can make it raise. -/
theorem backfill_reaches_survivors_iff (d : Deployment) (rules : List Rule)
    (options : BackfillOptions) (q : QueryWindow) {A : Allowed}
    (hpages : ∀ position limit page,
      A (.queryMessages options.unreadOnly position limit) (.ok page) →
      (JmapProvider.queryMessages options.unreadOnly position limit).eval q.answer () =
        (.ok page, ()))
    (hreturns : ∀ op e, ¬A op (.error e))
    (hbudget : ∀ date usage, A (.getLlmUsage date) (.ok usage) →
      hasBudgetRemaining usage d.tiering.dailyCallBudget = true)
    (hsize : 0 < options.pageSize) (hlimit : q.entries.length ≤ options.limit) (w : World) :
    Acc (fun c' c => Loop.Step (machine A) (backfillPage d.backfillDeps rules options) c c')
      (backfill d.backfillDeps rules options, w) ∧
    ∀ (c : Loop.Config sig World BackfillState BackfillCounts) r,
      Loop.Reaches (machine A) (backfillPage d.backfillDeps rules options)
        (backfill d.backfillDeps rules options, w) c →
      c.1 = .done r → (∀ s, r ≠ .ok (.again s)) →
      (∀ e, r = .error e → ∃ m, some m ∈ q.messages ∧ MayFail A d.backfillDeps rules m ∧
        c.2.gated.getLast? = some m.messageId) ∧
      (c.2.gated = w.gated ++ q.survivors ↔ q.NoPageGone options.pageSize ∧
        ∀ e, r = .error e → c.2.gated.getLast? = q.survivors.getLast?) ∧
      (q.NoPageGone options.pageSize →
        (∀ m, some m ∈ q.messages → q.survivors.getLast? ≠ some m.messageId →
          ¬MayFail A d.backfillDeps rules m) →
        c.2.gated = w.gated ++ q.survivors) := by
  have hserves : Serves A q.messages options.unreadOnly := by
    refine ⟨hreturns, fun position limit page hA => ?_⟩
    have heval := hpages position limit page hA
    rw [JmapProvider.queryMessages_eval] at heval
    exact (Except.ok.inj (Prod.mk.inj heval).1).symm
  have hafford : ∀ m, some m ∈ q.messages → Affords A d.backfillDeps rules m := fun _ _ =>
    handleMessage_budget hbudget
  refine ⟨backfill_terminates d.backfill_wired hserves hafford hsize w, fun c r hc hr hover => ?_⟩
  suffices h : (∀ e, r = .error e → ∃ m, some m ∈ q.messages ∧ MayFail A d.backfillDeps rules m ∧
        c.2.gated.getLast? = some m.messageId) ∧
      (c.2.gated = w.gated ++ q.survivors ↔ q.NoPageGone options.pageSize ∧
        ∀ e, r = .error e → c.2.gated.getLast? = q.survivors.getLast?) by
    refine ⟨h.1, h.2, fun hpage hsafe => h.2.2 ⟨hpage, fun e he => ?_⟩⟩
    obtain ⟨m, hmem, hfail, hlast⟩ := h.1 e he
    by_contra hne
    exact hsafe m hmem (fun hid => hne (hlast.trans hid.symm)) hfail
  have hinitial := sweep_initial q.messages options.pageSize options.limit 0 0
  rw [List.drop_zero] at hinitial
  obtain ⟨s, hs⟩ | ⟨⟨e, rfl⟩, seen, m, rest, hsweep, hfail, hgated⟩ | ⟨counts, rfl, hhandled⟩ :=
    backfill_sweeps d.backfill_wired hserves hafford hsize hc hr
  · exact absurd hs (hover s)
  · have hlast : c.2.gated.getLast? = some m.messageId := by
      rw [hgated, List.map_append, List.map_singleton, ← List.append_assoc, List.getLast?_concat]
    have hmem : some m ∈ q.messages := by
      rw [← List.reduceOption_mem_iff]
      exact hinitial.subset (hsweep ▸ List.mem_append_right _ List.mem_cons_self)
    refine ⟨fun _ _ => ⟨m, hmem, hfail, hlast⟩, ?_⟩
    rw [hgated, List.append_cancel_left_eq, q.failed_iff hsize hlimit hsweep, ← hgated, hlast]
    exact and_congr_right fun _ => ⟨fun h _ _ => h, fun h => h e rfl⟩
  · have hreturned : ∀ e, (.ok (.leave counts) : Except Exn (Next BackfillState BackfillCounts))
        = .error e → c.2.gated.getLast? = q.survivors.getLast? := nofun
    refine ⟨nofun, ?_⟩
    rw [and_iff_left hreturned, hhandled.gated, List.append_cancel_left_eq,
      ← q.messages_survivors, ← q.sweep_eq_iff hsize hlimit]
    refine ⟨fun hids => ?_, fun hsweep => by rw [hsweep]⟩
    exact hinitial.eq_of_length (by simpa using congrArg List.length hids)

/-- Nothing raises, the pages are those of a window, and there is always budget left. -/
def serving (window : List (Option NormalizedMessage)) (budget : Int) : Allowed := fun op r =>
  match op, r with
  | _, .error _ => False
  | .queryMessages _ position limit, .ok page => page = windowPage window position limit
  | .getLlmUsage _, .ok usage => hasBudgetRemaining usage budget = true
  | _, .ok _ => True

/-- A quiet day on which a window is backfilled. -/
def Env.paging (window : List (Option NormalizedMessage)) : Env := fun _ op =>
  match op with
  | .queryMessages _ position limit => .ok (windowPage window position limit)
  | op => .ok (quietAnswer op)

theorem Env.paging_lawful (window : List (Option NormalizedMessage)) : (paging window).Lawful := by
  intro w op e h
  cases op <;> cases h

/-- Two ids, the first of which is gone. -/
def goneFirst : QueryWindow where
  entries := [("m1", none), ("m2", some { id := some "m2", threadId := some "t2" })]
  distinct := by decide
  named := by simp

/-- Both on one page. -/
def onePage : BackfillOptions := { limit := 2, pageSize := 2 }

/-- Nothing is done with any message. -/
def ignoringRule : Rule := always { type := .ignore }

/-- On one page, the id that is gone does not keep a backfill from the other one. -/
theorem backfill_reaches_survivors_iff_gone :
    Acc (fun c' c => Loop.Step (machine (serving goneFirst.messages 1))
        (backfillPage oneCall.backfillDeps [ignoringRule] onePage) c c')
      (backfill oneCall.backfillDeps [ignoringRule] onePage, ⟨.empty, []⟩) ∧
    ∃ counts w', Loop.Reaches (machine (serving goneFirst.messages 1))
        (backfillPage oneCall.backfillDeps [ignoringRule] onePage)
        (backfill oneCall.backfillDeps [ignoringRule] onePage, ⟨.empty, []⟩)
        (.done (.ok (.leave counts)), w') ∧
      w'.gated = goneFirst.survivors := by
  have hround : (Env.paging goneFirst.messages).Fits (serving goneFirst.messages 1)
      (backfill oneCall.backfillDeps [ignoringRule] onePage) ⟨.empty, []⟩ :=
    ⟨trivial, trivial, rfl, trivial, trivial, trivial, trivial, trivial, trivial⟩
  have hpages : ∀ position limit page, serving goneFirst.messages 1
      (.queryMessages onePage.unreadOnly position limit) (.ok page) →
      (JmapProvider.queryMessages onePage.unreadOnly position limit).eval goneFirst.answer () =
        (.ok page, ()) := by
    intro position limit page hpage
    rw [JmapProvider.queryMessages_eval]
    exact congrArg (fun page => (Except.ok page, ())) hpage.symm
  obtain ⟨hends, hruns⟩ := backfill_reaches_survivors_iff oneCall [ignoringRule] onePage goneFirst
    hpages (fun op e h => by cases op <;> exact h) (fun date usage h => h) (by decide) (by decide)
    ⟨.empty, []⟩
  obtain ⟨counts, w', hrun⟩ : ∃ counts w', Loop.Reaches (machine (serving goneFirst.messages 1))
      (backfillPage oneCall.backfillDeps [ignoringRule] onePage)
      (backfill oneCall.backfillDeps [ignoringRule] onePage, ⟨.empty, []⟩)
      (.done (.ok (.leave counts)), w') :=
    ⟨_, _, Loop.reaches_of_machine (hround.reaches (Env.paging_lawful _))⟩
  refine ⟨hends, counts, w', hrun, (hruns _ _ hrun rfl (fun s h => by cases h)).2.2 ?_ ?_⟩
  · intro i hi hgone
    have hzero : i * onePage.pageSize = 0 := by
      have hlength : i * 2 < 2 := hi
      show i * 2 = 0
      omega
    rw [hzero] at hgone
    have hthere := hgone ("m2", some { id := some "m2", threadId := some "t2" })
      (List.mem_cons_of_mem _ List.mem_cons_self)
    cases hthere
  · intro m hm hother
    have hthere := (List.mem_cons.1 hm).resolve_left (fun h => by cases h)
    obtain rfl := Option.some.inj (List.mem_singleton.1 hthere)
    exact absurd rfl hother

/-- A page for each of them. -/
def singlePages : BackfillOptions := { limit := 2, pageSize := 1 }

/-- Two ids that are both still there. -/
def bothThere : QueryWindow where
  entries := [("m1", some { id := some "m1", threadId := some "t1" }),
    ("m2", some { id := some "m2", threadId := some "t2" })]
  distinct := by decide
  named := by simp

/-- **Two runs that do not reach the second id**: the page of the first has no messages, and the run
ends with it; and the first is to be moved to no mailbox, and takes the run down. -/
theorem backfill_stops_at_gone_page :
    (goneFirst.entries.length ≤ singlePages.limit ∧ goneFirst.survivors = ["m2"] ∧
      ∃ counts w', Loop.Reaches (machine (serving goneFirst.messages 1))
        (backfillPage oneCall.backfillDeps [] singlePages)
        (backfill oneCall.backfillDeps [] singlePages, ⟨.empty, []⟩)
        (.done (.ok (.leave counts)), w') ∧ w'.gated = []) ∧
    bothThere.entries.length ≤ onePage.limit ∧ bothThere.survivors = ["m1", "m2"] ∧
      ∃ e w', Loop.Reaches (machine (serving bothThere.messages 1))
        (backfillPage oneCall.backfillDeps [always { type := .move }] onePage)
        (backfill oneCall.backfillDeps [always { type := .move }] onePage, ⟨.empty, []⟩)
        (.done (.error e), w') ∧ w'.gated = ["m1"] := by
  have hround : (Env.paging goneFirst.messages).Fits (serving goneFirst.messages 1)
      (backfill oneCall.backfillDeps [] singlePages) ⟨.empty, []⟩ :=
    ⟨trivial, trivial, rfl, trivial⟩
  have hfailing : (Env.paging bothThere.messages).Fits (serving bothThere.messages 1)
      (backfill oneCall.backfillDeps [always { type := .move }] onePage) ⟨.empty, []⟩ :=
    ⟨trivial, trivial, rfl, trivial, trivial, trivial, trivial⟩
  exact ⟨⟨by decide, rfl, _, _,
    Loop.reaches_of_machine (hround.reaches (Env.paging_lawful _)), rfl⟩, by decide, rfl, _, _,
    Loop.reaches_of_machine (hfailing.reaches (Env.paging_lawful _)), rfl⟩

/-! ## One run after another -/

/-- So many runs in a row, each to its end, with the same arguments and on the same store. -/
inductive BackfillRuns (M : Machine sig World) (deps : MessageDeps) (rules : List Rule)
    (options : BackfillOptions) : Nat → World → World → Prop where
  | zero {w : World} : BackfillRuns M deps rules options 0 w w
  | succ {k : Nat} {counts : BackfillCounts} {w w₁ w₂ : World}
      (h : Loop.Reaches M (backfillPage deps rules options) (backfill deps rules options, w)
        (.done (.ok (.leave counts)), w₁))
      (hs : BackfillRuns M deps rules options k w₁ w₂) :
      BackfillRuns M deps rules options (k + 1) w w₂

section Runs

variable {A : Allowed} {deps : MessageDeps} {rules : List Rule} {options : BackfillOptions}
  {provider : FileProvider} {w w' : World}

/-- A run over a file handles the first messages, whether they were handled before or not. -/
theorem backfill_file_run (hdeps : deps.Wired)
    (hserves : Serves A (provider.messages.map some) options.unreadOnly)
    (hafford : ∀ m ∈ provider.messages, Affords A deps rules m) (hsize : 0 < options.pageSize)
    {counts : BackfillCounts}
    (h : Loop.Reaches (machine A) (backfillPage deps rules options) (backfill deps rules options, w)
      (.done (.ok (.leave counts)), w')) :
    Handled w w' (provider.messages.take options.limit) := by
  have hafford' : ∀ m, some m ∈ provider.messages.map some → Affords A deps rules m := by
    intro m hm
    obtain ⟨m', hm', hsome⟩ := List.mem_map.mp hm
    exact Option.some.inj hsome ▸ hafford m' hm'
  obtain ⟨s, hs⟩ | ⟨⟨e, herror⟩, _⟩ | ⟨_, _, hhandled⟩ :=
    backfill_sweeps hdeps hserves hafford' hsize h rfl
  · cases hs
  · cases herror
  · rwa [sweep_of_full hsize, List.drop_zero, Nat.sub_zero] at hhandled

/-- However often it is repeated. -/
theorem backfill_file_runs (hdeps : deps.Wired)
    (hserves : Serves A (provider.messages.map some) options.unreadOnly)
    (hafford : ∀ m ∈ provider.messages, Affords A deps rules m) (hsize : 0 < options.pageSize)
    {k : Nat} (h : BackfillRuns (machine A) deps rules options k w w') (hk : 0 < k) (id : String) :
    w'.db.hasProcessed id = true ↔ w.db.hasProcessed id = true ∨
      id ∈ (provider.messages.take options.limit).map NormalizedMessage.messageId := by
  induction h with
  | zero => exact absurd hk (Nat.lt_irrefl 0)
  | @succ k counts w w₁ w₂ h hs ih =>
    have hrun := (backfill_file_run hdeps hserves hafford hsize h).processed id
    cases k with
    | zero =>
      cases hs
      exact hrun
    | succ k => rw [ih (Nat.succ_pos k), hrun, or_assoc, or_self]

end Runs

/-- **When repeated backfills process every message.**  Each run starts from the first message again
and counts the ones that were processed before, so no number of runs gets behind the limit of one:
they leave every message processed exactly if those behind the limit were processed at the start. -/
theorem backfill_resumable_iff (d : Deployment) (rules : List Rule) (options : BackfillOptions)
    (provider : FileProvider) {A : Allowed}
    (hdistinct : (provider.messages.map NormalizedMessage.messageId).Nodup)
    (hrules : ∀ r ∈ rules, r.action.Terminal)
    (hdefault : d.backfillDeps.tier1.defaultUnmatchedAction.Terminal)
    (hpages : ∀ position limit page,
      A (.queryMessages options.unreadOnly position limit) (.ok page) →
      page = provider.queryMessages options.unreadOnly position limit)
    (hreturns : ∀ op e, ¬A op (.error e)) (hsize : 0 < options.pageSize)
    {k : Nat} (hk : provider.messages.length ≤ k * options.limit) {w w' : World}
    (h : BackfillRuns (machine A) d.backfillDeps rules options k w w') :
    (∀ m ∈ provider.messages, w'.db.hasProcessed m.messageId = true) ↔
      ∀ m ∈ provider.messages.drop options.limit, w.db.hasProcessed m.messageId = true := by
  have hserves : Serves A (provider.messages.map some) options.unreadOnly :=
    ⟨hreturns, fun position limit page hA =>
      (hpages position limit page hA).trans (provider.queryMessages_eq _ _ _)⟩
  have hafford : ∀ m ∈ provider.messages, Affords A d.backfillDeps rules m := fun _ _ =>
    handleMessage_terminal hrules hdefault
  rcases Nat.eq_zero_or_pos k with rfl | hpos
  · have hnone : provider.messages = [] := by
      rw [Nat.zero_mul] at hk
      exact List.length_eq_zero_iff.mp (Nat.le_zero.mp hk)
    simp [hnone]
  have hruns := backfill_file_runs d.backfill_wired hserves hafford hsize h hpos
  have hsplit := List.take_append_drop options.limit provider.messages
  constructor
  · intro hall m hm
    refine ((hruns m.messageId).mp (hall m (List.mem_of_mem_drop hm))).resolve_right
      fun hfirst => ?_
    -- a message behind the limit is none of the first ones
    rw [← hsplit, List.map_append, List.nodup_append] at hdistinct
    exact hdistinct.2.2 _ hfirst _ (List.mem_map_of_mem hm) rfl
  · intro hrest m hm
    rw [hruns]
    rw [← hsplit, List.mem_append] at hm
    exact hm.symm.imp (hrest m) (List.mem_map_of_mem ·)

/-- Two messages. -/
def twoLetters : FileProvider := ⟨[letter, { letter with messageId := "M2" }]⟩

/-- One message a run. -/
def oneAtATime : BackfillOptions := { limit := 1, pageSize := 1 }

/-- The rule that every message is ignored. -/
def ignoring : List Rule := [always { type := .ignore }]

/-- A deployment without escalations. -/
def noEscalation : Deployment where
  tiering := { oneCall.tiering with defaultUnmatchedAction := .ignore }

/-- A run over the two of them. -/
abbrev letterRun : Proc (Next BackfillState BackfillCounts) :=
  backfill noEscalation.backfillDeps ignoring oneAtATime

/-- A day on which they are backfilled. -/
abbrev letterDay : Env := Env.paging (twoLetters.messages.map some)

/-- What may be answered on it. -/
abbrev letterAnswers : Allowed := serving (twoLetters.messages.map some) 1

/-- The store after a run. -/
abbrev afterLetterRun (w : World) : World := (letterDay.eval letterRun w).2

/-- A run that is over after one page. -/
theorem letterRun_reaches {w : World} {s : BackfillState}
    (hround : letterDay.Fits letterAnswers letterRun w)
    (hagain : (letterDay.eval letterRun w).1 = .ok (.again s)) (hlimit : s.counts.processed = 1) :
    Loop.Reaches (machine letterAnswers)
      (backfillPage noEscalation.backfillDeps ignoring oneAtATime)
      (letterRun, w) (.done (.ok (.leave s.counts)), afterLetterRun w) := by
  have hpage : backfillPage noEscalation.backfillDeps ignoring oneAtATime s
      = .done (.ok (.leave s.counts)) := by
    rw [backfillPage, hlimit]
    rfl
  have hreaches : Loop.Reaches (machine letterAnswers)
      (backfillPage noEscalation.backfillDeps ignoring oneAtATime) (letterRun, w)
      (.done (letterDay.eval letterRun w).1, afterLetterRun w) :=
    Loop.reaches_of_machine (hround.reaches (Env.paging_lawful _))
  rw [hagain] at hreaches
  exact hpage ▸ hreaches.tail .again

/-- A store in which the second message was processed. -/
def secondProcessed : StateDB := StateDB.empty.markProcessed "M2"
    { threadId := "T1", processedAt := "" }

/-- The first run ignores the first message, and the second one finds it processed. -/
theorem letter_runs {db : StateDB} (hdb : db = .empty ∨ db = secondProcessed) :
    BackfillRuns (machine letterAnswers) noEscalation.backfillDeps ignoring oneAtATime 2 ⟨db, []⟩
      (afterLetterRun (afterLetterRun ⟨db, []⟩)) := by
  have hfirst : letterDay.Fits letterAnswers letterRun ⟨db, []⟩ ∧
      (letterDay.eval letterRun ⟨db, []⟩).1 =
        .ok (.again ⟨{ processed := 1, tier1Actions := 1 }, 1⟩) := by
    obtain rfl | rfl := hdb
    · exact ⟨⟨trivial, trivial, rfl, trivial, trivial, trivial, trivial, trivial, trivial⟩, rfl⟩
    · exact ⟨⟨trivial, trivial, rfl, trivial, trivial, trivial, trivial, trivial, trivial⟩, rfl⟩
  have hsecond : letterDay.Fits letterAnswers letterRun (afterLetterRun ⟨db, []⟩) ∧
      (letterDay.eval letterRun (afterLetterRun ⟨db, []⟩)).1 =
        .ok (.again ⟨{ processed := 1 }, 1⟩) := by
    obtain rfl | rfl := hdb
    · exact ⟨⟨trivial, trivial, rfl, trivial, trivial⟩, rfl⟩
    · exact ⟨⟨trivial, trivial, rfl, trivial, trivial⟩, rfl⟩
  exact .succ (letterRun_reaches hfirst.1 hfirst.2 rfl)
    (.succ (letterRun_reaches hsecond.1 hsecond.2 rfl) .zero)

theorem backfill_resumable_iff_second_processed :
    BackfillRuns (machine letterAnswers) noEscalation.backfillDeps ignoring oneAtATime 2
      ⟨secondProcessed, []⟩ (afterLetterRun (afterLetterRun ⟨secondProcessed, []⟩)) ∧
    ∀ m ∈ twoLetters.messages,
      (afterLetterRun (afterLetterRun ⟨secondProcessed, []⟩)).db.hasProcessed m.messageId =
      true := by
  refine ⟨letter_runs (.inr rfl), ?_⟩
  refine (backfill_resumable_iff noEscalation ignoring oneAtATime twoLetters (by decide)
    (by simp [ignoring, always, Action.Terminal]) (.inr (.inr rfl)) ?_ ?_ (by decide)
    (by decide) (letter_runs (.inr rfl))).mpr ?_
  · exact fun position limit page hpage => hpage.trans (twoLetters.queryMessages_eq _ _ _).symm
  · exact fun op e h => by cases op <;> exact h
  · decide

/-- Two runs over two messages, one message a run, leave the second one unprocessed. -/
theorem backfill_starts_over :
    twoLetters.messages.length ≤ 2 * oneAtATime.limit ∧
    BackfillRuns (machine letterAnswers) noEscalation.backfillDeps ignoring oneAtATime 2
      ⟨.empty, []⟩
      (afterLetterRun (afterLetterRun ⟨.empty, []⟩)) ∧
    (afterLetterRun (afterLetterRun ⟨.empty, []⟩)).db.hasProcessed "M2" = false :=
  ⟨by decide, letter_runs (.inl rfl), rfl⟩

end Spork
