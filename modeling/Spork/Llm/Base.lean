import Spork.State.Db

/-!
# Verdicts, and the gates they pass

`core/llm/base.py`, `validate.py`, `confidence.py` and `budget.py`: what a Tier 2 backend is asked
and answers, and the pure decisions taken on the answer.

A `Verdict` is a pydantic model, and nothing but its validators stands between the model's output
and the pipeline, so here they are fields of the structure: a verdict whose confidence is outside
`[0, 1]`, or whose action is not terminal, cannot be built.  Whether the category and the mailbox
exist in *this* deployment is not a matter of shape; that is `validateVerdict`.
-/

set_option autoImplicit false

namespace Spork

/-- Everything an `LLMClient` needs to produce one verdict. -/
structure VerdictRequest where
  subject : String
  fromAddress : String
  toAddresses : List String
  cleanedBody : String
  threadPriorSubject : Option String
  threadUserHasReplied : Bool
  availableMailboxes : List String
  availableCategories : List String
  contextSnippets : List String
  deriving DecidableEq, Repr

/-- `Verdict.urgency`. -/
inductive Urgency where
  | low
  | medium
  | high
  deriving DecidableEq, Repr

/-- One Tier 2 verdict. -/
structure Verdict where
  category : String
  urgency : Urgency
  confidence : PyFloat
  suggestedAction : Action
  summary : String
  draftReply : Option String := none
  reasoning : String
  metadata : List (String × String) := []
  /-- `Field(ge=0.0)`. -/
  confidence_nonneg : (PyFloat.fin 0).le confidence = true
  /-- `Field(le=1.0)`. -/
  confidence_le_one : confidence.le (.fin 1) = true
  /-- `_suggested_action_must_be_terminal`, first half. -/
  not_escalate : suggestedAction.type ≠ .escalate
  /-- `_suggested_action_must_be_terminal`, second half. -/
  not_archive : suggestedAction.type ≠ .archiveReceipt
  deriving DecidableEq

/-- A verdict's action is `move`, `tag` or `ignore`. -/
theorem Verdict.terminal (v : Verdict) :
    v.suggestedAction.type = .move ∨ v.suggestedAction.type = .tag ∨
      v.suggestedAction.type = .ignore := by
  have h1 := v.not_escalate
  have h2 := v.not_archive
  cases h : v.suggestedAction.type <;> simp_all

theorem Verdict.confidence_isNan (v : Verdict) : v.confidence.isNan = false :=
  (PyFloat.isNan_of_le v.confidence_nonneg).2

/-- Token counts of one external call. -/
structure LLMCallUsage where
  tokensIn : Int
  tokensOut : Int
  deriving DecidableEq, Repr

/-- The verdict and usage returned across the `LLMClient` boundary. -/
structure LLMResult where
  verdict : Verdict
  usage : LLMCallUsage
  deriving DecidableEq

/-- The token counts are ones that `record_llm_call` accepts. -/
def LLMCallUsage.Recordable (u : LLMCallUsage) : Prop :=
  0 ≤ u.tokensIn ∧ u.tokensIn < 2 ^ 63 ∧ 0 ≤ u.tokensOut ∧ u.tokensOut < 2 ^ 63

instance (u : LLMCallUsage) : Decidable u.Recordable :=
  inferInstanceAs (Decidable (_ ∧ _))

/-! ## Validation against this deployment -/

/-- `validate_verdict`: the verdict unchanged, or a `VerdictValidationError`. -/
def validateVerdict (verdict : Verdict) (allowedCategories allowedMailboxes : List String) :
    Except Exn Verdict :=
  if verdict.category ∉ allowedCategories then
    .error ⟨.verdictValidationError,
      "verdict category " ++ pyRepr verdict.category ++ " is not in the configured category set: "
        ++ pyReprSorted allowedCategories⟩
  else
    match verdict.suggestedAction.mailbox with
    | none => .ok verdict
    | some mailbox =>
      if mailbox ∉ allowedMailboxes then
        .error ⟨.verdictValidationError,
          "suggested_action.mailbox " ++ pyRepr mailbox ++
            " is not in the configured mailbox set: " ++ pyReprSorted allowedMailboxes⟩
      else .ok verdict

/-- The verdict names only categories and mailboxes of this deployment. -/
def Verdict.Admissible (v : Verdict) (allowedCategories allowedMailboxes : List String) : Prop :=
  v.category ∈ allowedCategories ∧ ∀ mb, v.suggestedAction.mailbox = some mb → mb ∈ allowedMailboxes

instance (v : Verdict) (cats mbs : List String) : Decidable (v.Admissible cats mbs) :=
  match h : v.suggestedAction.mailbox with
  | none => decidable_of_iff (v.category ∈ cats) (by simp [Verdict.Admissible, h])
  | some mb => decidable_of_iff (v.category ∈ cats ∧ mb ∈ mbs) (by simp [Verdict.Admissible, h])

/-- **Everything `validate_verdict` can do.** -/
theorem validateVerdict_cases (v : Verdict) (cats mbs : List String) :
    (validateVerdict v cats mbs = .ok v ∧ v.Admissible cats mbs) ∨
      ∃ e, validateVerdict v cats mbs = .error e ∧ e.cls = .verdictValidationError ∧
        ¬v.Admissible cats mbs := by
  rw [validateVerdict]
  split
  · rename_i hc
    exact .inr ⟨_, rfl, rfl, fun h => hc h.1⟩
  · rename_i hc
    split
    · rename_i hmb
      exact .inl ⟨rfl, not_not.1 hc, by simp [hmb]⟩
    · rename_i mb hmb
      split
      · rename_i hn
        exact .inr ⟨_, rfl, rfl, fun h => hn (h.2 mb hmb)⟩
      · rename_i hn
        refine .inl ⟨rfl, not_not.1 hc, fun mb' h => ?_⟩
        rw [hmb, Option.some_inj] at h
        exact h ▸ not_not.1 hn

/-! ## Confidence bands -/

/-- One of the three action bands. -/
inductive ConfidenceBand where
  | autoact
  | autoactAlert
  | alertOnly
  deriving DecidableEq, Repr

/-- The literal a band is written as. -/
def ConfidenceBand.value : ConfidenceBand → String
  | .autoact => "autoact"
  | .autoactAlert => "autoact_alert"
  | .alertOnly => "alert_only"

/-- `confidence_band`.  Both thresholds are inclusive on their own side. -/
def confidenceBand (confidence alertThreshold autoactThreshold : PyFloat) :
    Except Exn ConfidenceBand :=
  if confidence.isNan || alertThreshold.isNan || autoactThreshold.isNan then
    .error ⟨.valueError, "confidence_band() got a NaN argument"⟩
  else if !alertThreshold.le autoactThreshold then
    .error ⟨.valueError, "alert_threshold must not exceed autoact_threshold"⟩
  else if autoactThreshold.le confidence then .ok .autoact
  else if alertThreshold.le confidence then .ok .autoactAlert
  else .ok .alertOnly

/-- The band of a confidence, when the thresholds are in order. -/
def bandOf (confidence alertThreshold autoactThreshold : PyFloat) : ConfidenceBand :=
  if autoactThreshold.le confidence then .autoact
  else if alertThreshold.le confidence then .autoactAlert
  else .alertOnly

/-- With ordered thresholds, a number always gets a band. -/
theorem confidenceBand_of_le {c a b : PyFloat} (hc : c.isNan = false) (h : a.le b = true) :
    confidenceBand c a b = .ok (bandOf c a b) := by
  obtain ⟨ha, hb⟩ := PyFloat.isNan_of_le h
  rw [confidenceBand, bandOf, hc, ha, hb, h]
  simp only [Bool.or_self, Bool.false_eq_true, ↓reduceIte, Bool.not_true]
  split
  · rfl
  · split <;> rfl

/-- **Everything `confidence_band` can do** on a number: reject unordered thresholds, or pick the
band. -/
theorem confidenceBand_cases {c : PyFloat} (a b : PyFloat) (hc : c.isNan = false) :
    (confidenceBand c a b = .ok (bandOf c a b) ∧ a.le b = true) ∨
      ∃ e, confidenceBand c a b = .error e ∧ e.cls = .valueError ∧ a.le b = false := by
  cases h : a.le b with
  | true => exact .inl ⟨confidenceBand_of_le hc h, rfl⟩
  | false =>
    rw [confidenceBand, h]
    refine .inr ?_
    split
    · exact ⟨_, rfl, rfl, rfl⟩
    · exact ⟨_, rfl, rfl, rfl⟩

/-- A band that acts is only given from the alert threshold up. -/
theorem le_confidence_of_band {c a b : PyFloat} (h : a.le b = true)
    (hb : bandOf c a b ≠ .alertOnly) : a.le c = true := by
  rw [bandOf] at hb
  split at hb
  · rename_i hbc
    exact PyFloat.le_trans h hbc
  · split at hb
    · assumption
    · exact absurd rfl hb

/-! ## The budget -/

/-- `has_budget_remaining`: the limit is exclusive. -/
def hasBudgetRemaining (usage : LLMUsage) (dailyCallBudget : Int) : Bool :=
  decide ((usage.calls : Int) < dailyCallBudget)

end Spork
