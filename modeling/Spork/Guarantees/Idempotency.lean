import Spork.Guarantees.Handling

/-!
# Handling a message again

The daemon and the backfill may be given a message any number of times, and may die anywhere on the
way.  `Attempt.run` is one go at a message, and a sequence of attempts (`Machine.Attempts`) is what
a store lives through: each attempt returns, raises or is cut off, and the next one starts from what
it left behind.

Once the mark of a message is committed, the gate is the only call a later attempt still makes
(`handled_again`).  Until then an attempt may apply an action and die before its mark, so the number
of applied actions is bounded by the attempts that were lost, plus one.
-/

set_option autoImplicit false

namespace Spork

open Effects Machine

/-- One go at a message. -/
structure Attempt where
  deployment : Deployment
  rules : List Rule
  message : NormalizedMessage

/-- Handle the message. -/
def Attempt.run (attempt : Attempt) : Proc (Option RuleVerdict × Option EscalationResult) :=
  handleMessage attempt.deployment.deps attempt.rules attempt.message

/-- How many attempts on message `id` did not return. -/
def abortedOn (id : String) (attempts : List (Attempt × Bool)) : Nat :=
  attempts.countP fun a => a.1.message.messageId = id ∧ a.2 = false

theorem abortedOn_cons (id : String) (a : Attempt × Bool) (attempts : List (Attempt × Bool)) :
    abortedOn id (a :: attempts)
      = abortedOn id attempts + if a.1.message.messageId = id ∧ a.2 = false then 1 else 0 := by
  rw [abortedOn, abortedOn, List.countP_cons]
  simp only [decide_eq_true_eq]

section Attempts

variable {A : Allowed} {w w' : World}

/-- **A processed message is not touched again**: the gate is read, and that is all. -/
theorem handled_again {deps : MessageDeps} {rules : List Rule} {message : NormalizedMessage}
    {p : Proc (Option RuleVerdict × Option EscalationResult)}
    (hw : w.db.hasProcessed message.messageId = true)
    (hr : (machine A).Reaches (handleMessage deps rules message) w p w') :
    w'.db = w.db ∧
      (w'.trace = w.trace ∨ ∃ r, w'.trace = w.trace ++ [⟨.hasProcessed message.messageId, r⟩]) := by
  have hwp : (machine A).wp (fun w' => w'.db = w.db ∧
      (w'.trace = w.trace ∨ ∃ r, w'.trace = w.trace ++ [⟨.hasProcessed message.messageId, r⟩]))
      (handleMessage deps rules message) (fun _ _ => True) w := by
    rw [handleMessage_eq]
    refine wp_call_bind ⟨rfl, .inl rfl⟩ (fun seen db' _ hg => ?_)
      (fun e _ _ => ⟨⟨rfl, .inr ⟨_, rfl⟩⟩, trivial⟩)
    obtain ⟨hseen, hdb⟩ := gives_hasProcessed.1 hg
    rw [hw] at hseen
    subst hseen hdb
    exact ⟨⟨rfl, .inr ⟨_, rfl⟩⟩, trivial⟩
  have hat := wp_inv (wp_reaches hwp hr)
  exact hat

theorem applied_handled_again {deps : MessageDeps} {rules : List Rule}
    {message : NormalizedMessage} {p : Proc (Option RuleVerdict × Option EscalationResult)}
    (hw : w.db.hasProcessed message.messageId = true)
    (hr : (machine A).Reaches (handleMessage deps rules message) w p w') (id : String) :
    w'.applied id = w.applied id := by
  obtain ⟨_, htrace | ⟨r, htrace⟩⟩ := handled_again hw hr <;>
    rw [World.applied, World.applied, htrace]
  simp [Event.applied]

/-- What one attempt adds to the count. -/
theorem applied_attempt {attempt : Attempt}
    {p : Proc (Option RuleVerdict × Option EscalationResult)}
    (hr : (machine A).Reaches attempt.run w p w') (id : String) :
    w'.applied id ≤ w.applied id + share attempt.message id :=
  reaches_count_le (fun w => w.applied id)
    (fun _ _ _ _ h => Responds.applied_le h id)
    (handleMessage_applies attempt.deployment.wired attempt.rules attempt.message) hr

/-- The one application that is left as long as there is no mark. -/
def World.unmarked (w : World) (id : String) : Nat :=
  if w.db.hasProcessed id = true then 0 else 1

theorem unmarked_reaches {α : Type} {p p' : Proc α} (id : String)
    (hr : (machine A).Reaches p w p' w') : w'.unmarked id ≤ w.unmarked id := by
  rw [World.unmarked, World.unmarked]
  by_cases hw : w.db.hasProcessed id = true
  · rw [if_pos hw, if_pos ((keeps_hasProcessed p).reaches hw hr)]
  · rw [if_neg hw]
    split <;> omega

/-- The bound. -/
theorem applied_attempts {attempts : List (Attempt × Bool)} (id : String)
    (h : (machine A).Attempts Attempt.run attempts w w') :
    w'.applied id ≤ w.applied id + abortedOn id attempts + w.unmarked id := by
  induction h with
  | nil => omega
  | @returned attempt rest w w₁ w₂ result hr _ ih =>
    rw [abortedOn_cons, if_neg (fun h => Bool.noConfusion h.2)]
    have hleft := unmarked_reaches id hr
    have hadd := applied_attempt hr id
    rw [share] at hadd
    by_cases hid : attempt.message.messageId = id
    · by_cases hw : w.db.hasProcessed id = true
      · have hsame := applied_handled_again (hid.symm ▸ hw) hr id
        omega
      · -- the attempt may have used the application, but its message has a row now
        have hdone : w₁.db.hasProcessed id = true :=
          hid ▸ (wp_reaches (handleMessage_marks _ _ _ w) hr).2 rfl
        have hused : w₁.unmarked id = 0 := if_pos hdone
        have hfree : w.unmarked id = 1 := if_neg hw
        rw [if_pos hid] at hadd
        omega
    · rw [if_neg hid] at hadd
      omega
  | @aborted attempt rest w w₁ w₂ p hr _ ih =>
    rw [abortedOn_cons]
    have hleft := unmarked_reaches id hr
    have hadd := applied_attempt hr id
    rw [share] at hadd
    by_cases hid : attempt.message.messageId = id
    · -- whatever it used is made up for by its being lost
      rw [if_pos hid] at hadd
      rw [if_pos ⟨hid, rfl⟩]
      omega
    · rw [if_neg hid] at hadd
      rw [if_neg (fun h => hid h.1)]
      omega

end Attempts

/-- **Handling is idempotent under crashes and re-delivery.**  After the mark of a message is
committed, whatever has been attempted since, a further attempt changes nothing in the store and
makes no call but the gate's; and altogether at most one action more is applied to a message than
attempts on it were lost. -/
theorem handling_idempotent (id : String) :
    (∀ (w w₁ w₂ : World) (since : List (Attempt × Bool)) (attempt : Attempt)
        (p : Proc (Option RuleVerdict × Option EscalationResult)),
      w.db.hasProcessed id = true → (machine anything).Attempts Attempt.run since w w₁ →
      attempt.message.messageId = id → (machine anything).Reaches attempt.run w₁ p w₂ →
        w₂.db = w₁.db ∧ ∀ e ∈ w₂.trace.drop w₁.trace.length, e.op = .hasProcessed id) ∧
    ∀ (w w' : World) (attempts : List (Attempt × Bool)),
      (machine anything).Attempts Attempt.run attempts w w' →
        w'.applied id ≤ w.applied id + 1 + abortedOn id attempts := by
  refine ⟨fun w w₁ w₂ since attempt p hw hsince hid hr => ?_, fun w w' attempts h => ?_⟩
  · have hw₁ : w₁.db.hasProcessed attempt.message.messageId = true :=
      hid ▸ Attempts.keeps (fun _ => keeps_hasProcessed _) hsince hw
    obtain ⟨hdb, htrace | ⟨r, htrace⟩⟩ := handled_again hw₁ hr
    · refine ⟨hdb, fun e he => ?_⟩
      rw [htrace, List.drop_length] at he
      cases he
    · refine ⟨hdb, fun e he => ?_⟩
      rw [htrace, List.drop_left, List.mem_singleton] at he
      rw [he, hid]
  · have hle := applied_attempts id h
    rw [World.unmarked] at hle
    split at hle <;> omega

/-- One go at `letter`. -/
def tryLetter : Attempt := ⟨oneCall, [], letter⟩

/-- On a quiet day `letter` is handled, and a second go at it finds nothing to do. -/
theorem handling_idempotent_quiet : ∃ w w' p,
    (machine anything).Attempts Attempt.run [(tryLetter, true)] ⟨.empty, []⟩ w ∧
    (machine anything).Reaches tryLetter.run w p w' ∧ w.db.hasProcessed "M1" = true ∧
    w'.db = w.db ∧ (∀ e ∈ w'.trace.drop w.trace.length, e.op = .hasProcessed "M1") ∧
    w.applied "M1" ≤ 1 := by
  let w := (Env.quiet.eval tryLetter.run ⟨.empty, []⟩).2
  obtain ⟨_, hreturned⟩ := Env.quiet_returns (w := ⟨.empty, []⟩)
    (show (Env.quiet.eval tryLetter.run _).1.isOk = true by decide +kernel)
  have hfirst : (machine anything).Attempts Attempt.run [(tryLetter, true)] ⟨.empty, []⟩ w :=
    .returned hreturned .nil
  have hmarked : w.db.hasProcessed "M1" = true := by decide +kernel
  have hsecond := Env.quiet_reaches tryLetter.run w
  obtain ⟨hdb, hevents⟩ := (handling_idempotent "M1").1 w w _ [] tryLetter _ hmarked
    .nil rfl hsecond
  exact ⟨w, _, _, hfirst, hsecond, hmarked, hdb, hevents,
    (handling_idempotent "M1").2 ⟨.empty, []⟩ w _ hfirst⟩

end Spork
