import Spork.World
import Spork.Effects.Footprint

/-!
# Rule evaluation

`core/rules/engine.py` and `core/actions/executor.py`: the first enabled rule that matches decides,
and a terminal action is handed to the provider.

The classifier is asked lazily and at most once for a message: its result travels with the loop
over the rules as a cache, which is what the closure `classify()` of the source does with its
one-element list.
-/

set_option autoImplicit false

namespace Spork

open Effects

/-! ## Evaluation -/

/-- `classify()`: the cached result, or a first call of the classifier. -/
def classifyOnce (classifier : Option TextClassifier) (message : NormalizedMessage)
    (cached : Option ClassificationResult) : Proc ClassificationResult :=
  match cached with
  | some result => pure result
  | none =>
    match classifier with
    | none => raise .runtimeError
        "a rule condition requires a local classifier, but none was configured (see docs/DESIGN.md §9.1)"
    | some classifier => classifier.classify message

/-- An unset list field passes; a set one has to contain the value. -/
def passes (field : Option (List String)) (value : String) : Bool :=
  match field with
  | none => true
  | some values => decide (value ∈ values)

/-- `_condition_matches`, with the classification cache it leaves behind.  A condition with no
field set matches nothing. -/
def conditionMatches (condition : Condition) (message : NormalizedMessage)
    (classifier : Option TextClassifier) (cached : Option ClassificationResult) :
    Proc (Bool × Option ClassificationResult) :=
  if condition.always then pure (true, cached)
  else if !passes condition.fromDomainIn message.fromDomain then pure (false, cached)
  else if !passes condition.fromIn message.fromAddress then pure (false, cached)
  else
    match condition.localClassifierCategoryIn with
    | none => pure (condition.fromDomainIn.isSome || condition.fromIn.isSome, cached)
    | some categories => do
      let result ← classifyOnce classifier message cached
      pure (decide (result.category ∈ categories), some result)

/-- The loop of `evaluate`. -/
def evaluateFrom (message : NormalizedMessage) (defaultUnmatchedAction : Action)
    (classifier : Option TextClassifier) :
    List Rule → Option ClassificationResult → Proc RuleVerdict
  | [], _ => pure ⟨defaultUnmatchedAction, none⟩
  | rule :: rules, cached =>
    if !rule.enabled then evaluateFrom message defaultUnmatchedAction classifier rules cached
    else do
      let (matched, cached) ← conditionMatches rule.when message classifier cached
      if matched then pure ⟨rule.action, some rule.id⟩
      else evaluateFrom message defaultUnmatchedAction classifier rules cached

/-- `evaluate`: run `message` through `rules`; the first enabled match wins. -/
def evaluate (message : NormalizedMessage) (rules : List Rule) (defaultUnmatchedAction : Action)
    (classifier : Option TextClassifier) : Proc RuleVerdict :=
  evaluateFrom message defaultUnmatchedAction classifier rules none

/-! ### What evaluating can touch

Whatever the rules are, the only calls are those of the classifier, and that is all any later proof
needs to know about evaluation. -/

section Footprint

variable {C : Op → Prop} {message : NormalizedMessage} {classifier : Option TextClassifier}

theorem classifyOnce_only (hc : ∀ c ∈ classifier, (c.classify message).Only C)
    (cached : Option ClassificationResult) :
    (classifyOnce classifier message cached).Only C := by
  cases cached with
  | some result => trivial
  | none =>
    cases classifier with
    | none => trivial
    | some c => exact hc c rfl

theorem conditionMatches_only (hc : ∀ c ∈ classifier, (c.classify message).Only C)
    (condition : Condition) (cached : Option ClassificationResult) :
    (conditionMatches condition message classifier cached).Only C := by
  rw [conditionMatches]
  refine .ite trivial (.ite trivial (.ite trivial ?_))
  cases condition.localClassifierCategoryIn with
  | none => trivial
  | some categories => exact (classifyOnce_only hc cached).bind fun _ => trivial

theorem evaluateFrom_only (hc : ∀ c ∈ classifier, (c.classify message).Only C) (default : Action) :
    ∀ (rules : List Rule) (cached : Option ClassificationResult),
      (evaluateFrom message default classifier rules cached).Only C
  | [], _ => trivial
  | rule :: rules, cached => by
    rw [evaluateFrom]
    refine .ite (evaluateFrom_only hc default rules cached) ?_
    refine (conditionMatches_only hc rule.when cached).bind fun p => ?_
    exact .ite trivial (evaluateFrom_only hc default rules p.2)

/-- Evaluation calls what the classifier calls. -/
theorem evaluate_only (hc : ∀ c ∈ classifier, (c.classify message).Only C) (rules : List Rule)
    (default : Action) : (evaluate message rules default classifier).Only C :=
  evaluateFrom_only hc default rules none

end Footprint

/-! ## The terminal step -/

/-- Applies a verdict's action through the injected applier. -/
structure ActionExecutor where
  applier : ActionApplier

/-- `ActionExecutor.execute`: apply `action` to `message`, or reject it outright.  `ignore` never
reaches the applier. -/
def ActionExecutor.execute (executor : ActionExecutor) (message : NormalizedMessage)
    (action : Action) : Proc Unit :=
  if action.type = .escalate then
    raise .actionExecutionError ("ActionExecutor cannot execute an escalate action: " ++
      action.repr ++ " — escalation is Tier 2's job, not the terminal action step")
  else if action.type = .archiveReceipt then
    raise .actionExecutionError ("ActionExecutor cannot execute an archive_receipt action: " ++
      action.repr ++
      " — receipt archiving is its own pipeline branch, not the terminal action step")
  else if action.type.needsMailbox && action.mailbox.isNone then
    raise .actionExecutionError (action.type.value ++ " action requires a mailbox, got None: " ++
      action.repr)
  else if action.type = .ignore then pure ()
  else executor.applier.apply message action

/-- An action that reaches the applier: a move or a tag with a mailbox. -/
def Action.Acts (action : Action) : Prop :=
  (action.type = .move ∨ action.type = .tag) ∧ action.mailbox.isSome

instance (action : Action) : Decidable action.Acts := inferInstanceAs (Decidable (_ ∧ _))

/-- **Everything `execute` can do**: hand an action to the applier, do nothing, or reject it. -/
theorem ActionExecutor.execute_cases (executor : ActionExecutor) (message : NormalizedMessage)
    (action : Action) :
    (executor.execute message action = executor.applier.apply message action ∧ action.Acts) ∨
      (executor.execute message action = pure () ∧ action.type = .ignore) ∨
      ∃ e, executor.execute message action = Prog.raise e ∧ e.cls = .actionExecutionError ∧
        ¬action.Acts ∧ action.type ≠ .ignore := by
  rw [execute, Action.Acts]
  cases ht : action.type <;> cases hm : action.mailbox <;>
    simp [ActionType.needsMailbox] <;> exact ⟨_, rfl, rfl⟩

/-- What reaches the applier is up to the applier. -/
theorem ActionExecutor.execute_of_acts (executor : ActionExecutor) (message : NormalizedMessage)
    {action : Action} (h : action.Acts) :
    executor.execute message action = executor.applier.apply message action := by
  rcases executor.execute_cases message action with ⟨he, -⟩ | ⟨-, hi⟩ | ⟨-, -, -, hn, -⟩
  · exact he
  · rcases h.1 with ht | ht <;> rw [hi] at ht <;> cases ht
  · exact absurd h hn

/-- Nothing else is. -/
theorem ActionExecutor.execute_of_not_acts (executor executor' : ActionExecutor)
    (message : NormalizedMessage) {action : Action} (h : ¬action.Acts) :
    executor.execute message action = executor'.execute message action := by
  rw [execute, execute]
  rw [Action.Acts] at h
  cases ht : action.type <;> cases hm : action.mailbox <;>
    simp_all [ActionType.needsMailbox]

theorem ActionExecutor.execute_only {executor : ActionExecutor} {message : NormalizedMessage}
    {action : Action} {C : Op → Prop}
    (h : action.Acts → (executor.applier.apply message action).Only C) :
    (executor.execute message action).Only C := by
  rcases executor.execute_cases message action with ⟨he, ha⟩ | ⟨he, _⟩ | ⟨e, he, _⟩ <;> rw [he]
  · exact h ha
  · trivial
  · trivial

end Spork
