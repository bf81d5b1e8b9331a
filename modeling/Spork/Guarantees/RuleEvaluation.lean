import Spork.Effects.DecisionList
import Spork.Evaluation
import Spork.Rules.Engine

/-!
# Rule evaluation, declaratively

What `evaluate` is for: the first enabled rule that matches decides.  `Condition.Matches` is that
without a loop, a cache or a classifier that is called on the way: a condition is held against a
message and a category, as if the category were known.  `NeedsClassifier` says when it has to be
known, and `evaluate_declared` that the program comes to exactly this.

The program is a decision list whose one question is put to the classifier (`evaluate_eq_decide`);
the rest is what is true of all decision lists.
-/

set_option autoImplicit false

namespace Spork

open Effects

/-! ## The declaration -/

/-- Every list field but the category list, if it is set, contains the message's value. -/
def Condition.PassesOthers (condition : Condition) (message : NormalizedMessage) : Prop :=
  (∀ domains, condition.fromDomainIn = some domains → message.fromDomain ∈ domains) ∧
    ∀ addresses, condition.fromIn = some addresses → message.fromAddress ∈ addresses

/-- `always` is set, or at least one list field is and every one that is contains its value. -/
def Condition.Matches (condition : Condition) (message : NormalizedMessage) (category : String) :
    Prop :=
  condition.always = true ∨
    (condition.fromDomainIn.isSome = true ∨ condition.fromIn.isSome = true ∨
        condition.localClassifierCategoryIn.isSome = true) ∧
      condition.PassesOthers message ∧
      ∀ categories, condition.localClassifierCategoryIn = some categories → category ∈ categories

/-- An enabled rule whose condition matches. -/
def Rule.Matches (rule : Rule) (message : NormalizedMessage) (category : String) : Prop :=
  rule.enabled = true ∧ rule.when.Matches message category

/-- An enabled rule without `always` that has a category list, and whose other set lists contain
the message's values. -/
def Rule.Asks (rule : Rule) (message : NormalizedMessage) : Prop :=
  rule.enabled = true ∧ rule.when.always = false ∧
    rule.when.localClassifierCategoryIn.isSome = true ∧ rule.when.PassesOthers message

/-- A rule up to and including the first match asks for the category. -/
def NeedsClassifier (message : NormalizedMessage) (rules : List Rule) (category : String) : Prop :=
  ∃ before rule after, rules = before ++ rule :: after ∧
    (∀ r ∈ before, ¬r.Matches message category) ∧ rule.Asks message

/-- `rule` is the first match, behind the rules `before`. -/
def FirstMatch (message : NormalizedMessage) (category : String) (before : List Rule)
    (rule : Rule) : Prop :=
  rule.Matches message category ∧ ∀ r ∈ before, ¬r.Matches message category

section Decidable

instance (c : Condition) (message : NormalizedMessage) : Decidable (c.PassesOthers message) :=
  decidable_of_iff (passes c.fromDomainIn message.fromDomain = true ∧
      passes c.fromIn message.fromAddress = true) (by
    rw [Condition.PassesOthers]
    cases c.fromDomainIn <;> cases c.fromIn <;> simp [passes])

instance (c : Condition) (message : NormalizedMessage) (category : String) :
    Decidable (c.Matches message category) :=
  decidable_of_iff (c.always = true ∨
      (c.fromDomainIn.isSome = true ∨ c.fromIn.isSome = true ∨
        c.localClassifierCategoryIn.isSome = true) ∧ c.PassesOthers message ∧
          passes c.localClassifierCategoryIn category = true) (by
    rw [Condition.Matches]
    cases c.localClassifierCategoryIn <;> simp [passes])

instance (rule : Rule) (message : NormalizedMessage) (category : String) :
    Decidable (rule.Matches message category) := inferInstanceAs (Decidable (_ ∧ _))

end Decidable

/-- The action and the id of the first rule that matches, or else the default. -/
def declaredVerdict (message : NormalizedMessage) (rules : List Rule) (default : Action)
    (category : String) : RuleVerdict :=
  match rules.find? fun rule => decide (rule.Matches message category) with
  | none => ⟨default, none⟩
  | some rule => ⟨rule.action, some rule.id⟩

theorem declaredVerdict_of_firstMatch {message : NormalizedMessage} {default : Action}
    {category : String} {before after : List Rule} {rule : Rule}
    (h : FirstMatch message category before rule) :
    declaredVerdict message (before ++ rule :: after) default category
      = ⟨rule.action, some rule.id⟩ := by
  have hfind : (before ++ rule :: after).find?
      (fun r => decide (r.Matches message category)) = some rule := by
    rw [List.find?_append, List.find?_eq_none.2 fun r hr => by simpa using h.2 r hr,
      Option.none_or, List.find?_cons_of_pos (by simpa using h.1)]
  rw [declaredVerdict, hfind]

/-! ## Rules as clauses -/

/-- What a rule has to see to decide. -/
def guardOf (message : NormalizedMessage) (rule : Rule) : Guard ClassificationResult :=
  if !rule.enabled then .settled false
  else if rule.when.always then .settled true
  else if !passes rule.when.fromDomainIn message.fromDomain then .settled false
  else if !passes rule.when.fromIn message.fromAddress then .settled false
  else
    match rule.when.localClassifierCategoryIn with
    | none => .settled (rule.when.fromDomainIn.isSome || rule.when.fromIn.isSome)
    | some categories => .asks fun result => decide (result.category ∈ categories)

/-- The rules, each behind its guard. -/
def clausesOf (message : NormalizedMessage) (rules : List Rule) :
    List (Guard ClassificationResult × Rule) :=
  rules.map fun rule => (guardOf message rule, rule)

/-- The verdict of the rule that decided, if one did. -/
def verdictOf (default : Action) : Option Rule → RuleVerdict
  | none => ⟨default, none⟩
  | some rule => ⟨rule.action, some rule.id⟩

section Clauses

variable {message : NormalizedMessage} {rule : Rule} {rules : List Rule}

theorem passes_iff {field : Option (List String)} {value : String} :
    passes field value = true ↔ ∀ values, field = some values → value ∈ values := by
  cases field <;> simp [passes]

theorem passesOthers_iff {condition : Condition} : condition.PassesOthers message ↔
    passes condition.fromDomainIn message.fromDomain = true ∧
      passes condition.fromIn message.fromAddress = true := by
  rw [passes_iff, passes_iff]
  rfl

/-- A guard holds exactly when its rule matches. -/
theorem guardOf_holds (result : ClassificationResult) :
    (guardOf message rule).holds result = true ↔ rule.Matches message result.category := by
  rw [Rule.Matches, Condition.Matches, passesOthers_iff, guardOf]
  cases rule.enabled <;> cases rule.when.always <;>
    cases passes rule.when.fromDomainIn message.fromDomain <;>
    cases passes rule.when.fromIn message.fromAddress <;>
    cases rule.when.localClassifierCategoryIn <;> simp [Guard.holds]

/-- A guard asks exactly when its rule does. -/
theorem guardOf_isAsking : (guardOf message rule).isAsking = true ↔ rule.Asks message := by
  rw [Rule.Asks, passesOthers_iff, guardOf]
  cases rule.enabled <;> cases rule.when.always <;>
    cases passes rule.when.fromDomainIn message.fromDomain <;>
    cases passes rule.when.fromIn message.fromAddress <;>
    cases rule.when.localClassifierCategoryIn <;> simp [Guard.isAsking]

theorem firstOf_clausesOf (default : Action) (result : ClassificationResult) :
    ∀ rules : List Rule, verdictOf default (firstOf (clausesOf message rules) result)
      = declaredVerdict message rules default result.category
  | [] => rfl
  | rule :: rules => by
    have ih := firstOf_clausesOf default result rules
    rw [declaredVerdict] at ih
    rw [clausesOf, List.map_cons, firstOf_cons, declaredVerdict]
    by_cases h : rule.Matches message result.category
    · rw [if_pos ((guardOf_holds result).2 h), List.find?_cons_of_pos (by simpa using h)]
      rfl
    · rw [if_neg fun hg => h ((guardOf_holds result).1 hg),
        List.find?_cons_of_neg (by simpa using h)]
      exact ih

theorem asked_clausesOf (result : ClassificationResult) :
    Asked (clausesOf message rules) result ↔ NeedsClassifier message rules result.category := by
  constructor
  · rintro ⟨before, c, after, h, hbefore, hc⟩
    obtain ⟨before', rest, rfl, rfl, hrest⟩ := List.map_eq_append_iff.1 h
    obtain ⟨rule, after', rfl, rfl, rfl⟩ := List.map_eq_cons_iff.1 hrest
    refine ⟨before', rule, after', rfl, fun r hr hm => ?_, guardOf_isAsking.1 hc⟩
    have := hbefore _ (List.mem_map_of_mem hr)
    rw [(guardOf_holds result).2 hm] at this
    cases this
  · rintro ⟨before, rule, after, rfl, hbefore, hrule⟩
    refine ⟨clausesOf message before, _, clausesOf message after, List.map_append, ?_,
      guardOf_isAsking.2 hrule⟩
    intro d hd
    obtain ⟨r, hr, rfl⟩ := List.mem_map.1 hd
    exact Bool.eq_false_iff.2 fun hg => hbefore r hr ((guardOf_holds result).1 hg)

end Clauses

/-! ## The program -/

/-- What the condition of an enabled rule comes to, by its guard. -/
theorem conditionMatches_eq (message : NormalizedMessage) (classifier : Option TextClassifier)
    {rule : Rule} (henabled : rule.enabled = true) (cached : Option ClassificationResult) :
    conditionMatches rule.when message classifier cached =
      match guardOf message rule with
      | .settled b => pure (b, cached)
      | .asks p => askOnce (classifyOnce classifier message none) cached >>= fun result =>
          pure (p result, some result) := by
  rw [conditionMatches, guardOf, henabled]
  cases rule.when.always with
  | true => rfl
  | false =>
    cases passes rule.when.fromDomainIn message.fromDomain with
    | false => rfl
    | true =>
      cases passes rule.when.fromIn message.fromAddress with
      | false => rfl
      | true =>
        cases rule.when.localClassifierCategoryIn with
        | none => rfl
        | some categories => cases cached <;> rfl

/-- **The loop of `evaluate` is a decision list whose question is put to the classifier.** -/
theorem evaluateFrom_eq_decide (message : NormalizedMessage) (default : Action)
    (classifier : Option TextClassifier) :
    ∀ (rules : List Rule) (cached : Option ClassificationResult),
      evaluateFrom message default classifier rules cached
        = decideFrom (classifyOnce classifier message none) (clausesOf message rules) cached
            >>= fun rule => pure (verdictOf default rule)
  | [], _ => rfl
  | rule :: rules, cached => by
    have ih := evaluateFrom_eq_decide message default classifier rules
    rw [evaluateFrom, clausesOf, List.map_cons]
    cases henabled : rule.enabled with
    | false =>
      have hguard : guardOf message rule = .settled false := by rw [guardOf, henabled]; rfl
      rw [hguard]
      exact ih cached
    | true =>
      rw [conditionMatches_eq message classifier henabled]
      cases guardOf message rule with
      | settled b =>
        cases b with
        | true => rfl
        | false => exact ih cached
      | asks p =>
        simp only [Bool.not_true, Bool.false_eq_true, if_false, bind_assoc, pure_bind]
        rw [decideFrom, bind_assoc]
        refine bind_congr fun result => ?_
        cases p result with
        | true => rfl
        | false => exact ih (some result)

/-! ## What evaluation comes to -/

section Declared

variable {message : NormalizedMessage} {rules : List Rule} {default : Action} {category : String}

theorem evaluate_eq_decide (classifier : Option TextClassifier) :
    evaluate message rules default classifier
      = decideFrom (classifyOnce classifier message none) (clausesOf message rules) none
          >>= fun rule => pure (verdictOf default rule) :=
  evaluateFrom_eq_decide message default classifier rules none

/-- Whether the category is needed does not depend on what it is. -/
theorem needsClassifier_iff_of_any (category category' : String) :
    NeedsClassifier message rules category ↔ NeedsClassifier message rules category' := by
  rw [← asked_clausesOf ⟨category, []⟩, ← asked_clausesOf ⟨category', []⟩]
  exact asked_iff_of_any _ _ _

/-- If it is not, the classifier is not called. -/
theorem evaluate_of_not_needs (h : ¬NeedsClassifier message rules category)
    (classifier : Option TextClassifier) :
    evaluate message rules default classifier
      = pure (declaredVerdict message rules default category) := by
  have hasked := mt (asked_clausesOf ⟨category, []⟩).1 h
  rw [evaluate_eq_decide, decideFrom_of_not_asked _ _ hasked, pure_bind, firstOf_clausesOf]

/-- If it is, the classifier is called once and decides. -/
theorem evaluate_of_needs (h : NeedsClassifier message rules category)
    (classifier : Option TextClassifier) :
    evaluate message rules default classifier = classifyOnce classifier message none >>=
      fun result => pure (declaredVerdict message rules default result.category) := by
  have hasked := (asked_clausesOf ⟨category, []⟩).2 h
  rw [evaluate_eq_decide, decideFrom_of_asked _ _ hasked, bind_assoc]
  refine bind_congr fun result => ?_
  rw [pure_bind, firstOf_clausesOf]

/-- A disabled rule might as well not be there. -/
theorem evaluate_erase_disabled {before after : List Rule} {rule : Rule}
    (h : rule.enabled = false) (classifier : Option TextClassifier) :
    evaluate message (before ++ rule :: after) default classifier
      = evaluate message (before ++ after) default classifier := by
  have hguard : guardOf message rule = .settled false := by rw [guardOf, h]; rfl
  have herase := decideFrom_erase (classifyOnce classifier message none) rule
    (clausesOf message after) (clausesOf message before) none
  rw [evaluate_eq_decide, evaluate_eq_decide, clausesOf, List.map_append, List.map_cons, hguard,
    clausesOf, List.map_append]
  exact congrArg (· >>= fun rule => pure (verdictOf default rule)) herase

/-- Behind the first match, rules neither decide nor ask. -/
theorem firstMatch_append (default : Action) {before : List Rule} {rule : Rule}
    (h : FirstMatch message category before rule) (after : List Rule) :
    declaredVerdict message (before ++ rule :: after) default category
        = declaredVerdict message (before ++ [rule]) default category ∧
      (NeedsClassifier message (before ++ rule :: after) category ↔
        NeedsClassifier message (before ++ [rule]) category) := by
  have hholds : (guardOf message rule).holds ⟨category, []⟩ = true := (guardOf_holds _).2 h.1
  refine ⟨by rw [declaredVerdict_of_firstMatch h, declaredVerdict_of_firstMatch h], ?_⟩
  have hasked : Asked (clausesOf message before ++ (guardOf message rule, rule) ::
      clausesOf message after) ⟨category, []⟩ ↔ _ :=
    asked_append (clausesOf message before) hholds (clausesOf message after)
  rw [← asked_clausesOf ⟨category, []⟩, ← asked_clausesOf ⟨category, []⟩, clausesOf,
    List.map_append, List.map_cons, clausesOf, List.map_append]
  exact hasked

/-- So they can be left out wherever the classifier answers with that category. -/
theorem evaluate_append {before : List Rule} {rule : Rule}
    (h : FirstMatch message category before rule) (after : List Rule) {env : Env} {w : World}
    {classifier : Option TextClassifier}
    (hanswers : ∀ c ∈ classifier, ∀ result w',
      env.eval (c.classify message) w = (.ok result, w') → result.category = category) :
    env.eval (evaluate message (before ++ rule :: after) default classifier) w
      = env.eval (evaluate message (before ++ [rule]) default classifier) w := by
  obtain ⟨hverdict, hneeds⟩ := firstMatch_append default h after
  by_cases hn : NeedsClassifier message (before ++ [rule]) category
  · rw [evaluate_of_needs (hneeds.2 hn), evaluate_of_needs hn]
    cases heval : env.eval (classifyOnce classifier message none) w with
    | mk r w' =>
      cases r with
      | error e => rw [Env.eval_bind_error heval, Env.eval_bind_error heval]
      | ok result =>
        have hcategory : result.category = category := by
          cases classifier with
          | none => cases heval
          | some c => exact hanswers c rfl result w' heval
        rw [Env.eval_bind_ok heval, Env.eval_bind_ok heval, hcategory, hverdict]
  · rw [evaluate_of_not_needs (mt hneeds.1 hn), evaluate_of_not_needs hn, hverdict]

/-- With the live classifier, the need is visible in the calls that are made. -/
theorem evaluate_live_trace (env : Env) (w : World) :
    ∃ es, (env.eval (evaluate message rules default (some .live)) w).2.trace = w.trace ++ es ∧
      (NeedsClassifier message rules category ∧
          es = [⟨.classify message, env w (.classify message)⟩] ∨
        ¬NeedsClassifier message rules category ∧ es = []) := by
  by_cases h : NeedsClassifier message rules category
  · refine ⟨_, ?_, .inl ⟨h, rfl⟩⟩
    rw [evaluate_of_needs h]
    show (env.eval (call (.classify message) >>= _) w).2.trace = _
    cases hreply : env w (.classify message) with
    | ok result =>
      rw [Env.eval_bind_ok (Env.does_external rfl hreply).eval]
      rfl
    | error e =>
      have heval : env.eval (call (.classify message)) w
          = (.error e, w.record (.classify message) (.error e) w.db) := by
        show env.answer w (.classify message) = _
        simp only [Env.answer, Op.onDb, hreply]
      rw [Env.eval_bind_error heval]
      rfl
  · refine ⟨[], ?_, .inr ⟨h, rfl⟩⟩
    rw [evaluate_of_not_needs h, List.append_nil]
    rfl

/-- **Rule evaluation is what it is declared to be.**  If no rule up to the first match needs the
category, the verdict is the declared one and nothing is called.  Otherwise a missing classifier is
a `RuntimeError`, and one that is there is called once and its category decides.  A disabled rule
can be left out, and so can one behind the first match under the category that is answered; neither
the outcome nor a call changes. -/
theorem evaluate_declared (message : NormalizedMessage) (rules : List Rule) (default : Action)
    (classifier : Option TextClassifier) (category : String) :
    (¬NeedsClassifier message rules category →
      evaluate message rules default classifier
        = pure (declaredVerdict message rules default category)) ∧
    (NeedsClassifier message rules category →
      (classifier = none → ∃ e, e.cls = .runtimeError ∧
        evaluate message rules default classifier = Prog.raise e) ∧
      ∀ c, classifier = some c → evaluate message rules default classifier
        = c.classify message >>= fun result =>
            pure (declaredVerdict message rules default result.category)) ∧
    (∀ category', NeedsClassifier message rules category' ↔
      NeedsClassifier message rules category) ∧
    (∀ (env : Env) (w : World), ∃ es,
      (env.eval (evaluate message rules default (some .live)) w).2.trace = w.trace ++ es ∧
        (NeedsClassifier message rules category ∧
            es = [⟨.classify message, env w (.classify message)⟩] ∨
          ¬NeedsClassifier message rules category ∧ es = [])) ∧
    (∀ before rule after, rules = before ++ rule :: after → rule.enabled = false →
      evaluate message rules default classifier
        = evaluate message (before ++ after) default classifier) ∧
    ∀ before first between rule after, rules = before ++ first :: (between ++ rule :: after) →
      FirstMatch message category before first → ∀ (env : Env) (w : World),
        (∀ c ∈ classifier, ∀ result w',
          env.eval (c.classify message) w = (.ok result, w') → result.category = category) →
        env.eval (evaluate message rules default classifier) w
          = env.eval (evaluate message (before ++ first :: (between ++ after)) default classifier)
              w := by
  refine ⟨fun h => evaluate_of_not_needs h classifier, fun h => ⟨?_, ?_⟩,
    fun category' => needsClassifier_iff_of_any category' category, evaluate_live_trace, ?_, ?_⟩
  · rintro rfl
    rw [evaluate_of_needs h]
    exact ⟨_, rfl, rfl⟩
  · rintro c rfl
    exact evaluate_of_needs h (some c)
  · rintro before rule after rfl hdisabled
    exact evaluate_erase_disabled hdisabled classifier
  · rintro before first between rule after rfl hfirst env w hanswers
    exact (evaluate_append hfirst _ hanswers).trans (evaluate_append hfirst _ hanswers).symm

end Declared

end Spork
