import Spork.Runtime
import Spork.Effects.Loop

/-!
# The backfill

`cli/commands/backfill.py`: `_backfill` from its audit entry on, one page at a time.  It is the
other process that handles messages: the same two tiers as the daemon, over the same store, in a
process of its own.
-/

set_option autoImplicit false

namespace Spork

open Effects

/-- The options of `spork backfill`. -/
structure BackfillOptions where
  unreadOnly : Bool := false
  limit : Nat := 50
  pageSize : Nat := 50

/-- What a run counts. -/
structure BackfillCounts where
  processed : Nat := 0
  tier1Actions : Nat := 0
  tier2Verdicts : Nat := 0
  tier2Quarantined : Nat := 0
  budgetExhausted : Bool := false
  deriving DecidableEq, Repr

/-- What the loop over the pages carries along. -/
structure BackfillState where
  counts : BackfillCounts := {}
  position : Nat := 0

/-- A backfill archives no receipts. -/
def Deployment.backfillDeps (d : Deployment) : MessageDeps :=
  { d.deps with tier1 := { d.tier1 with receiptArchive := none } }

theorem Deployment.backfill_wired (d : Deployment) : d.backfillDeps.Wired :=
  ⟨{ d.tier1_wired with receiptArchive := fun _ h => by cases h }, d.escalation_wired⟩

/-- What one message adds to the counts. -/
def BackfillCounts.add (counts : BackfillCounts) :
    Option RuleVerdict × Option EscalationResult → BackfillCounts
  | (none, _) => { counts with processed := counts.processed + 1 }
  | (some _, result) =>
    let counts := { counts with
      processed := counts.processed + 1
      tier1Actions := counts.tier1Actions + 1 }
    match result with
    | none => counts
    | some .budgetExhausted => { counts with budgetExhausted := true }
    | some (.quarantinedMessage _) =>
      { counts with tier2Quarantined := counts.tier2Quarantined + 1 }
    | some (.verdict _) => { counts with tier2Verdicts := counts.tier2Verdicts + 1 }

/-- One message of a page. -/
def backfillOne (deps : MessageDeps) (rules : List Rule) (message : NormalizedMessage)
    (counts : BackfillCounts) : Proc BackfillCounts := do
  let verdict ← processMessage deps.tier1 false message rules
  if verdict.isNone then pure (counts.add (verdict, none))
  else if escalates verdict then do
    let result ← escalateMessageOrQuarantine deps.escalation message
    pure (counts.add (verdict, some result))
  else pure (counts.add (verdict, none))

/-- The loop over the messages of a page.  It is left early at the limit, and when Tier 2's budget
is gone. -/
def backfillMessages (deps : MessageDeps) (rules : List Rule) (limit : Nat) :
    List NormalizedMessage → BackfillCounts → Proc BackfillCounts
  | [], counts => pure counts
  | message :: messages, counts =>
    if limit ≤ counts.processed then pure counts
    else do
      let counts ← backfillOne deps rules message counts
      if counts.budgetExhausted then pure counts
      else backfillMessages deps rules limit messages counts

/-- A message of a page is handled as in the daemon. -/
theorem backfillOne_eq (deps : MessageDeps) (rules : List Rule) (message : NormalizedMessage)
    (counts : BackfillCounts) : backfillOne deps rules message counts = (do
      let result ← handleMessage deps rules message
      pure (counts.add result)) := by
  rw [backfillOne, handleMessage, bind_assoc]
  refine bind_congr fun verdict => ?_
  cases verdict with
  | none => rfl
  | some verdict =>
    rw [if_neg (by simp)]
    cases escalates (some verdict) <;> simp

/-- One page. -/
def backfillPage (deps : MessageDeps) (rules : List Rule) (options : BackfillOptions)
    (s : BackfillState) : Proc (Next BackfillState BackfillCounts) :=
  if s.counts.processed < options.limit ∧ s.counts.budgetExhausted = false then do
    let page ← call (.queryMessages options.unreadOnly s.position
      (min options.pageSize (options.limit - s.counts.processed)))
    if page.messages = [] then pure (.leave s.counts)
    else do
      let counts ← backfillMessages deps rules options.limit page.messages s.counts
      if page.hasMore then pure (.again ⟨counts, page.nextPosition⟩) else pure (.leave counts)
  else pure (.leave s.counts)

/-- `json.dumps({"unread_only": ..., "limit": ..., "page_size": ...})`. -/
def BackfillOptions.detail (options : BackfillOptions) : String :=
  jsonObject [("unread_only", jsonBool options.unreadOnly), ("limit", toString options.limit),
    ("page_size", toString options.pageSize)]

/-- `_backfill`: the audit entry of the run, and then its first page. -/
def backfill (deps : MessageDeps) (rules : List Rule) (options : BackfillOptions) :
    Proc (Next BackfillState BackfillCounts) := do
  let ts ← call .now
  call (.writeAuditEntry ts "" "backfill_triggered" (some options.detail))
  backfillPage deps rules options {}

/-! ## What a page keeps -/

section Keeps

open Machine

variable {W : Type} {N : Machine sig W} {I : W → Prop} {deps : MessageDeps} {rules : List Rule}

theorem backfillMessages_keeps
    (hhandle : ∀ message, N.Keeps I (handleMessage deps rules message)) (limit : Nat) :
    ∀ (messages : List NormalizedMessage) (counts : BackfillCounts),
      N.Keeps I (backfillMessages deps rules limit messages counts)
  | [], _ => keeps_done
  | message :: messages, counts => by
    rw [backfillMessages]
    refine .ite keeps_done (Keeps.bind ?_ fun counts =>
      .ite keeps_done (backfillMessages_keeps hhandle limit messages counts))
    rw [backfillOne_eq]
    exact (hhandle message).bind fun _ => keeps_done

/-- **A page keeps what handling a message keeps**, if the query does. -/
theorem backfillPage_keeps (hhandle : ∀ message, N.Keeps I (handleMessage deps rules message))
    (hquery : ∀ unreadOnly position limit,
      N.Keeps I (call (.queryMessages unreadOnly position limit)))
    (options : BackfillOptions) (s : BackfillState) :
    N.Keeps I (backfillPage deps rules options s) := by
  rw [backfillPage]
  refine .ite ((hquery _ _ _).bind fun page => .ite keeps_done ?_) keeps_done
  refine (backfillMessages_keeps hhandle _ _ _).bind fun counts => ?_
  split <;> exact keeps_done

end Keeps

end Spork
