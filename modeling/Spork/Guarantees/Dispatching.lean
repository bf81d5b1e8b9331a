import Spork.Argmax
import Spork.Classify.Keyword
import Spork.Dispatch
import Spork.Guarantees.RuleEvaluation
import Spork.Runtime

/-!
# What several classifiers decide

A dispatch asks every target in its turn, so in one world it has one outcome (`said`), and what a
`DispatchingClassifier` returns is what its combiner makes of that (`classify_eval`).

* `primary_unaffected`: with `PrimaryCombiner`, two runs in which the named target says the same
  decide the same, whatever the other targets do.
* `highestConfidence_earliest`: with `HighestConfidenceCombiner`, the earliest of the most confident
  results is returned, whatever raises.
-/

set_option autoImplicit false

namespace Spork

open Effects Argmax

/-! ## One dispatch -/

/-- What the targets say in this world, each asked in its turn. -/
def said (env : Env) (message : NormalizedMessage) :
    List (String × TextClassifier) → World → DispatchResult
  | [], _ => []
  | (name, target) :: targets, w =>
    let answer := env.eval (target.classify message) w
    (name, answer.1) :: said env message targets answer.2

/-- The world they leave behind. -/
def afterAsking (env : Env) (message : NormalizedMessage) :
    List (String × TextClassifier) → World → World
  | [], w => w
  | (_, target) :: targets, w =>
    afterAsking env message targets (env.eval (target.classify message) w).2

section Said

variable {env : Env} {message : NormalizedMessage}

theorem dispatchOne_eval (target : TextClassifier) (w : World) :
    env.eval (dispatchOne target message) w
      = (.ok (env.eval (target.classify message) w).1,
        (env.eval (target.classify message) w).2) := by
  rw [dispatchOne, Prog.tryCatch, Env.eval_andThen, Prog.bind_def, Env.eval_andThen]
  cases env.eval (target.classify message) w with
  | mk r w' => cases r <;> rfl

theorem dispatchFrom_eval : ∀ (targets : List (String × TextClassifier)) (results : DispatchResult)
    (w : World), env.eval (dispatchFrom message targets results) w
      = (.ok (results ++ said env message targets w), afterAsking env message targets w)
  | [], results, w => by
    rw [said, List.append_nil]
    rfl
  | (name, target) :: targets, results, w => by
    rw [dispatchFrom, Env.eval_bind_ok (dispatchOne_eval target w), dispatchFrom_eval targets,
      List.append_assoc]
    rfl

/-- **A dispatch never raises**, and the combiner decides. -/
theorem classify_eval (dispatcher : Dispatcher) (combiner : Combiner) (w : World) :
    env.eval ((dispatchingClassifier dispatcher combiner).classify message) w
      = (combiner.combine (said env message dispatcher.targets w),
        afterAsking env message dispatcher.targets w) := by
  have hdispatch : env.eval (dispatcher.dispatch message) w = _ :=
    dispatchFrom_eval dispatcher.targets [] w
  rw [List.nil_append] at hdispatch
  exact Env.eval_bind_ok hdispatch

/-- Every target gets its entry, in the order of the targets. -/
theorem said_names : ∀ (targets : List (String × TextClassifier)) (w : World),
    (said env message targets w).map Prod.fst = targets.map Prod.fst
  | [], _ => rfl
  | (name, _) :: targets, _ => congrArg (name :: ·) (said_names targets _)

/-- The target calls nobody, and this is its outcome. -/
def TextClassifier.Answers (target : TextClassifier) (message : NormalizedMessage)
    (outcome : Except Exn ClassificationResult) : Prop :=
  target.classify message = Prog.done outcome

/-- A target that calls nobody says the same in every world. -/
theorem lookup_said (env : Env) {name : String} :
    ∀ {targets : List (String × TextClassifier)} (w : World),
    (∀ target ∈ targets.lookup name, ∃ outcome, target.Answers message outcome) →
      ((said env message targets w).lookup name = none ∧ targets.lookup name = none) ∨
        ∃ target outcome, targets.lookup name = some target ∧ target.Answers message outcome ∧
          (said env message targets w).lookup name = some outcome
  | [], _, _ => .inl ⟨rfl, rfl⟩
  | (name', target) :: targets, w, h => by
    rw [said, List.lookup_cons, List.lookup_cons]
    rw [List.lookup_cons] at h
    cases hname : name == name' with
    | false =>
      rw [hname] at h
      exact lookup_said env _ h
    | true =>
      rw [hname] at h
      obtain ⟨outcome, hanswers⟩ := h target rfl
      refine .inr ⟨target, outcome, rfl, hanswers, ?_⟩
      rw [hanswers]
      rfl

end Said

/-! ## Shadow targets -/

/-- The same outcome, or a `CombineError` on both sides. -/
def SameDecision {α : Type} (r r' : Except Exn α) : Prop :=
  r = r' ∨ ∃ e e', r = .error e ∧ r' = .error e' ∧ e.cls = combineError ∧ e'.cls = combineError

section Primary

variable {name : String} {message : NormalizedMessage} {rules : List Rule} {default : Action}
  {env env' : Env} {w w' : World}

/-- `PrimaryCombiner` reads one entry. -/
theorem primaryCombiner_same {results results' : DispatchResult}
    (h : results.lookup name = results'.lookup name) :
    SameDecision ((primaryCombiner name).combine results)
      ((primaryCombiner name).combine results') := by
  simp only [primaryCombiner, ← h]
  cases results.lookup name with
  | none => exact .inr ⟨_, _, rfl, rfl, rfl, rfl⟩
  | some outcome =>
    cases outcome with
    | ok result => exact .inl rfl
    | error e => exact .inr ⟨_, _, rfl, rfl, rfl, rfl⟩

/-- The rule engine sees of a classifier what it returns. -/
theorem evaluate_same {classifier classifier' : TextClassifier}
    (h : SameDecision (env.eval (classifier.classify message) w).1
      (env'.eval (classifier'.classify message) w').1) :
    SameDecision (env.eval (evaluate message rules default (some classifier)) w).1
      (env'.eval (evaluate message rules default (some classifier')) w').1 := by
  by_cases hneeds : NeedsClassifier message rules ""
  · rw [evaluate_of_needs hneeds, evaluate_of_needs hneeds, classifyOnce, classifyOnce]
    cases hr : env.eval (classifier.classify message) w with
    | mk r w₁ =>
      cases hr' : env'.eval (classifier'.classify message) w' with
      | mk r' w₁' =>
        rw [hr, hr'] at h
        rcases h with hsame | ⟨e, e', he, he', hcls⟩
        · dsimp only at hsame
          subst hsame
          cases r with
          | ok result =>
            rw [Env.eval_bind_ok hr, Env.eval_bind_ok hr']
            exact .inl rfl
          | error e =>
            rw [Env.eval_bind_error hr, Env.eval_bind_error hr']
            exact .inl rfl
        · dsimp only at he he'
          subst he he'
          rw [Env.eval_bind_error hr, Env.eval_bind_error hr']
          exact .inr ⟨e, e', rfl, rfl, hcls⟩
  · rw [evaluate_of_not_needs hneeds, evaluate_of_not_needs hneeds]
    exact .inl rfl

theorem classify_same {dispatcher dispatcher' : Dispatcher}
    (h : (said env message dispatcher.targets w).lookup name
      = (said env' message dispatcher'.targets w').lookup name) :
    SameDecision
      (env.eval ((dispatchingClassifier dispatcher (primaryCombiner name)).classify message) w).1
      (env'.eval ((dispatchingClassifier dispatcher' (primaryCombiner name)).classify message) w').1
      := by
  rw [classify_eval, classify_eval]
  exact primaryCombiner_same h

end Primary

/-- Two runs over two target maps classify and evaluate the same. -/
structure DecideSame (name : String) (message : NormalizedMessage) (rules : List Rule)
    (default : Action) (env env' : Env) (w w' : World) (classifier classifier' : TextClassifier) :
    Prop where
  classify : SameDecision (env.eval (classifier.classify message) w).1
    (env'.eval (classifier'.classify message) w').1
  evaluate : SameDecision (env.eval (evaluate message rules default (some classifier)) w).1
    (env'.eval (Spork.evaluate message rules default (some classifier')) w').1

/-- **Shadow targets cannot affect decisions.**  Two target maps that agree on the primary name
decide the same, whatever their other targets do.  More generally, two runs do in which the primary
target says the same, or is missing. -/
theorem primary_unaffected (name : String) (message : NormalizedMessage) (rules : List Rule)
    (default : Action) (dispatcher dispatcher' : Dispatcher) :
    (dispatcher.targets.lookup name = dispatcher'.targets.lookup name →
      (∀ target ∈ dispatcher.targets.lookup name, ∃ outcome, target.Answers message outcome) →
        ∀ env env' w w', DecideSame name message rules default env env' w w'
          (dispatchingClassifier dispatcher (primaryCombiner name))
          (dispatchingClassifier dispatcher' (primaryCombiner name))) ∧
    ∀ env env' w w', (said env message dispatcher.targets w).lookup name
        = (said env' message dispatcher'.targets w').lookup name →
      DecideSame name message rules default env env' w w'
        (dispatchingClassifier dispatcher (primaryCombiner name))
        (dispatchingClassifier dispatcher' (primaryCombiner name)) := by
  have hruns : ∀ env env' w w', (said env message dispatcher.targets w).lookup name
        = (said env' message dispatcher'.targets w').lookup name →
      DecideSame name message rules default env env' w w'
        (dispatchingClassifier dispatcher (primaryCombiner name))
        (dispatchingClassifier dispatcher' (primaryCombiner name)) :=
    fun _ _ _ _ h => ⟨classify_same h, evaluate_same (classify_same h)⟩
  refine ⟨fun hagree hanswers env env' w w' => hruns env env' w w' ?_, hruns⟩
  have hanswers' : ∀ target ∈ dispatcher'.targets.lookup name,
      ∃ outcome, target.Answers message outcome := hagree ▸ hanswers
  rcases lookup_said env w hanswers with
    ⟨hnone, hmissing⟩ | ⟨target, outcome, htarget, hsaid, hentry⟩ <;>
  rcases lookup_said env' w' hanswers' with
    ⟨hnone', hmissing'⟩ | ⟨target', outcome', htarget', hsaid', hentry'⟩
  · rw [hnone, hnone']
  · rw [← hagree, hmissing] at htarget'
    cases htarget'
  · rw [← hagree, htarget] at hmissing'
    cases hmissing'
  · rw [← hagree, htarget] at htarget'
    cases htarget'
    rw [hentry, hentry', Prog.done.inj (hsaid.symm.trans hsaid')]

/-- The keyword classifier as a target. -/
def keywordTarget : TextClassifier := ⟨fun message => pure (KeywordClassifier.result {} message)⟩

/-- A dispatcher with one target. -/
def keywordsAlone : Dispatcher := ⟨[("keywords", keywordTarget)], by decide⟩

/-- A dispatcher with a second target, which is asked first. -/
def keywordsShadowed : Dispatcher := ⟨[("shadow", .live), ("keywords", keywordTarget)], by decide⟩

/-- A day on which the shadow target fails. -/
def Env.shadowFails : Env := fun _ op =>
  match op with
  | .classify _ => .error ⟨.other "TimeoutError", "timed out"⟩
  | op => .ok (quietAnswer op)

/-- A rule that needs a classifier. -/
def fileNewsletters : Rule where
  id := "R1"
  when := { localClassifierCategoryIn := some ["newsletter"] }
  action := { type := .move, mailbox := some "Newsletters" }

/-- With a shadow target that fails, `letter` is classified and filed as without one. -/
theorem primary_unaffected_shadowed :
    DecideSame "keywords" letter [fileNewsletters] { type := .escalate } Env.quiet Env.shadowFails
      ⟨.empty, []⟩ ⟨.empty, []⟩ (dispatchingClassifier keywordsAlone (primaryCombiner "keywords"))
      (dispatchingClassifier keywordsShadowed (primaryCombiner "keywords")) := by
  refine (primary_unaffected "keywords" letter [fileNewsletters] { type := .escalate }
    keywordsAlone keywordsShadowed).1 rfl (fun target htarget => ?_) _ _ _ _
  obtain rfl := Option.mem_some.1 htarget
  exact ⟨_, rfl⟩

/-! ## The ensemble -/

/-- The first of the most confident results. -/
structure EarliestBest (results before : DispatchResult) (name : String)
    (result : ClassificationResult) (after : DispatchResult) : Prop where
  split : results = before ++ (name, .ok result) :: after
  maximal : ∀ n r, (n, .ok r) ∈ results → confidence r ≤ confidence result
  earliest : ∀ n r, (n, .ok r) ∈ before → confidence r < confidence result

section Ensemble

variable {results results' : DispatchResult} {result : ClassificationResult}

theorem mem_successes {name : String} :
    (name, result) ∈ successes results ↔ (name, .ok result) ∈ results := by
  rw [successes, List.mem_filterMap]
  constructor
  · rintro ⟨⟨n, outcome⟩, hm, he⟩
    cases outcome with
    | error e => cases he
    | ok r =>
      cases he
      exact hm
  · exact fun hm => ⟨_, hm, rfl⟩

theorem successes_append (results results' : DispatchResult) :
    successes (results ++ results') = successes results ++ successes results' :=
  List.filterMap_append

theorem successes_cons_ok (name : String) (result : ClassificationResult)
    (results : DispatchResult) :
    successes ((name, .ok result) :: results) = (name, result) :: successes results := rfl

theorem successes_cons_error (name : String) (e : Exn) (results : DispatchResult) :
    successes ((name, .error e) :: results) = successes results := rfl

/-- A result among the successes stands between those before it and those behind it. -/
theorem exists_of_successes_eq {before' after' : List (String × ClassificationResult)}
    {name : String} (h : successes results = before' ++ (name, result) :: after') :
    ∃ before after, results = before ++ (name, .ok result) :: after ∧
      successes before = before' := by
  obtain ⟨front, back, rfl, hfront, hback⟩ := List.filterMap_eq_append_iff.1 h
  obtain ⟨failed, entry, after, rfl, hfailed, hentry, -⟩ := List.filterMap_eq_cons_iff.1 hback
  have hok : entry = (name, .ok result) := by
    obtain ⟨n, outcome⟩ := entry
    cases outcome with
    | error e => cases hentry
    | ok r =>
      cases hentry
      rfl
  have hnone : successes failed = [] := List.filterMap_eq_nil_iff.2 hfailed
  refine ⟨front ++ failed, after, by rw [hok, List.append_assoc], ?_⟩
  rw [successes_append, hnone, List.append_nil]
  exact hfront

theorem highestConfidence_ok : highestConfidenceCombiner.combine results = .ok result ↔
    ∃ name, (successes results).argmax (fun entry => confidence entry.2) = some (name, result) := by
  rw [highestConfidenceCombiner]
  dsimp only
  cases (successes results).argmax fun entry => confidence entry.2 with
  | none => exact iff_of_false (by rintro ⟨⟩) (by rintro ⟨_, ⟨⟩⟩)
  | some best =>
    constructor
    · rintro ⟨⟩
      exact ⟨best.1, rfl⟩
    · rintro ⟨_, ⟨⟩⟩
      rfl

/-- **The earliest most confident success is returned**, and nothing else is. -/
theorem highestConfidence_ok_iff : highestConfidenceCombiner.combine results = .ok result ↔
    ∃ before name after, EarliestBest results before name result after := by
  rw [highestConfidence_ok]
  constructor
  · rintro ⟨name, hargmax⟩
    have hbest := argmax_eq_some_iff_firstBest.1 hargmax
    obtain ⟨before', after', hsplit, hfirst, -⟩ := id hbest
    obtain ⟨before, after, rfl, hbefore⟩ := exists_of_successes_eq hsplit
    exact ⟨before, name, after, rfl, fun n r hm => hbest.le (n, r) (mem_successes.2 hm),
      fun n r hm => hfirst (n, r) (hbefore ▸ mem_successes.2 hm)⟩
  · rintro ⟨before, name, after, rfl, hmax, hfirst⟩
    have hsplit : successes (before ++ (name, .ok result) :: after)
        = successes before ++ (name, result) :: successes after := by
      rw [successes_append, successes_cons_ok]
    refine ⟨name, argmax_eq_some_iff_firstBest.2 ⟨successes before, successes after, hsplit,
      fun entry hm => hfirst entry.1 entry.2 (mem_successes.1 hm), fun entry hm => ?_⟩⟩
    have hmem : entry ∈ successes (before ++ (name, .ok result) :: after) :=
      hsplit ▸ List.mem_append_right _ (List.mem_cons_of_mem _ hm)
    exact hmax entry.1 entry.2 (mem_successes.1 hmem)

/-- It raises exactly if every target raised. -/
theorem highestConfidence_error_iff :
    (∃ e, highestConfidenceCombiner.combine results = .error e ∧ e.cls = combineError) ↔
      ∀ entry ∈ results, ∃ e, entry.2 = .error e := by
  have hnone : (successes results).argmax (fun entry => confidence entry.2) = none ↔
      ∀ entry ∈ results, ∃ e, entry.2 = .error e := by
    rw [List.argmax_eq_none, successes, List.filterMap_eq_nil_iff]
    refine forall₂_congr fun entry _ => ?_
    cases entry.2 with
    | ok r => exact iff_of_false (by rintro ⟨⟩) (by rintro ⟨_, ⟨⟩⟩)
    | error e => exact iff_of_true rfl ⟨e, rfl⟩
  rw [← hnone, highestConfidenceCombiner]
  dsimp only
  cases (successes results).argmax fun entry => confidence entry.2 with
  | none => exact iff_of_true ⟨_, rfl, rfl⟩ rfl
  | some best => exact iff_of_false (by rintro ⟨_, ⟨⟩, _⟩) (by rintro ⟨⟩)

theorem highestConfidence_returns {name : String} (h : (name, .ok result) ∈ results) :
    ∃ best, highestConfidenceCombiner.combine results = .ok best := by
  have hne : successes results ≠ [] := List.ne_nil_of_mem (mem_successes.2 h)
  rw [highestConfidenceCombiner]
  dsimp only
  cases hbest : (successes results).argmax fun entry => confidence entry.2 with
  | none => exact absurd (List.argmax_eq_none.1 hbest) hne
  | some best => exact ⟨best.2, rfl⟩

theorem highestConfidence_congr (h : successes results = successes results') :
    highestConfidenceCombiner.combine results = highestConfidenceCombiner.combine results' := by
  simp only [highestConfidenceCombiner, h]

/-- Nobody else is as confident as this one. -/
structure OnlyBest (results : DispatchResult) (name : String) (result : ClassificationResult) :
    Prop where
  mem : (name, .ok result) ∈ results
  only : ∀ n r, (n, .ok r) ∈ results → (n, r) ≠ (name, result) →
    confidence r < confidence result

theorem OnlyBest.perm {name : String} (h : OnlyBest results name result)
    (hperm : results.Perm results') : OnlyBest results' name result :=
  ⟨hperm.mem_iff.1 h.mem, fun n r hm => h.only n r (hperm.mem_iff.2 hm)⟩

theorem OnlyBest.combine {name : String} (h : OnlyBest results name result) :
    highestConfidenceCombiner.combine results = .ok result := by
  have hle : ∀ entry ∈ successes results, entry = (name, result) ∨
      confidence entry.2 < confidence result := fun entry hm =>
    or_iff_not_imp_left.2 fun hne => h.only entry.1 entry.2 (mem_successes.1 hm) hne
  refine highestConfidence_ok.2 ⟨name, List.argmax_eq_some_iff.2
    ⟨mem_successes.2 h.mem, fun entry hm => ?_, fun entry hm hmax => ?_⟩⟩
  · rcases hle entry hm with rfl | hlt
    · exact le_refl _
    · exact hlt.le
  · rcases hle entry hm with rfl | hlt
    · exact le_refl _
    · exact absurd hmax (not_le.2 hlt)

end Ensemble

/-! ### Target maps -/

/-- What the ensemble decides about a message in this world. -/
def ensembleDecision (dispatcher : Dispatcher) (message : NormalizedMessage) (env : Env)
    (w : World) : Except Exn ClassificationResult :=
  (env.eval ((dispatchingClassifier dispatcher highestConfidenceCombiner).classify message) w).1

theorem ensembleDecision_eq (dispatcher : Dispatcher) (message : NormalizedMessage) (env : Env)
    (w : World) : ensembleDecision dispatcher message env w
      = highestConfidenceCombiner.combine (said env message dispatcher.targets w) := by
  rw [ensembleDecision, classify_eval]

/-- Targets that call nobody say the same whenever they are asked. -/
theorem said_of_answers (env : Env) {message : NormalizedMessage}
    {answers : String × TextClassifier → Except Exn ClassificationResult} :
    ∀ {targets : List (String × TextClassifier)} (w : World),
      (∀ target ∈ targets, target.2.Answers message (answers target)) →
        said env message targets w = targets.map fun target => (target.1, answers target)
  | [], _, _ => rfl
  | (name, target) :: targets, w, h => by
    have htarget : target.classify message = Prog.done (answers (name, target)) :=
      h (name, target) List.mem_cons_self
    rw [said, said_of_answers env _ fun t hm => h t (List.mem_cons_of_mem _ hm), htarget]
    rfl

/-- **The ensemble's choice.**  It fails exactly if every target raised; otherwise the earliest of
the most confident results is returned.  An entry that raised can be put anywhere or taken out, and
the entries can be reordered if only one of them is the most confident; so can the targets
themselves, if they call nobody. -/
theorem highestConfidence_earliest (dispatcher : Dispatcher) (message : NormalizedMessage)
    (env : Env) (w : World) :
    (said env message dispatcher.targets w).map Prod.fst = dispatcher.targets.map Prod.fst ∧
    ((∃ e, ensembleDecision dispatcher message env w = .error e ∧ e.cls = combineError) ↔
      ∀ entry ∈ said env message dispatcher.targets w, ∃ e, entry.2 = .error e) ∧
    ((∃ entry ∈ said env message dispatcher.targets w, ∃ r, entry.2 = .ok r) →
      ∃ result, ensembleDecision dispatcher message env w = .ok result) ∧
    (∀ result, ensembleDecision dispatcher message env w = .ok result ↔
      ∃ before name after,
        EarliestBest (said env message dispatcher.targets w) before name result after) ∧
    (∀ d' env' w' before name e after,
      said env message dispatcher.targets w = before ++ after →
        said env' message d'.targets w' = before ++ (name, .error e) :: after →
          ensembleDecision d' message env' w' = ensembleDecision dispatcher message env w) ∧
    (∀ d' env' w' name result, OnlyBest (said env message dispatcher.targets w) name result →
      (said env message dispatcher.targets w).Perm (said env' message d'.targets w') →
        ensembleDecision d' message env' w' = ensembleDecision dispatcher message env w) ∧
    ∀ answers : String × TextClassifier → Except Exn ClassificationResult, ∀ d' : Dispatcher,
      (∀ target ∈ dispatcher.targets, target.2.Answers message (answers target)) →
      (∀ target ∈ d'.targets, target.2.Answers message (answers target)) →
      ((∃ before target after e, answers target = .error e ∧
          dispatcher.targets = before ++ after ∧ d'.targets = before ++ target :: after) ∨
        dispatcher.targets.Perm d'.targets ∧
          ∃ name result, OnlyBest (said env message dispatcher.targets w) name result) →
      ∀ env' w', ensembleDecision d' message env' w' =
        ensembleDecision dispatcher message env w := by
  have hinsert : ∀ d' env' w' before name e after,
      said env message dispatcher.targets w = before ++ after →
        said env' message d'.targets w' = before ++ (name, .error e) :: after →
          ensembleDecision d' message env' w' = ensembleDecision dispatcher message env w := by
    intro d' env' w' before name e after hsaid hsaid'
    rw [ensembleDecision_eq, ensembleDecision_eq, hsaid, hsaid']
    refine highestConfidence_congr ?_
    rw [successes_append, successes_append, successes_cons_error]
  have hreorder : ∀ d' env' w' name result,
      OnlyBest (said env message dispatcher.targets w) name result →
        (said env message dispatcher.targets w).Perm (said env' message d'.targets w') →
          ensembleDecision d' message env' w' = ensembleDecision dispatcher message env w := by
    intro d' env' w' name result hbest hperm
    rw [ensembleDecision_eq, ensembleDecision_eq, hbest.combine, (hbest.perm hperm).combine]
  refine ⟨said_names _ w, ?_, ?_, ?_, hinsert, hreorder, ?_⟩
  · rw [ensembleDecision_eq]
    exact highestConfidence_error_iff
  · rintro ⟨⟨name, outcome⟩, hm, r, rfl⟩
    rw [ensembleDecision_eq]
    exact highestConfidence_returns hm
  · intro result
    rw [ensembleDecision_eq]
    exact highestConfidence_ok_iff
  · intro answers d' hanswers hanswers' hmap env' w'
    have hsaid := said_of_answers env w hanswers
    have hsaid' := said_of_answers env' w' hanswers'
    rcases hmap with ⟨before, target, after, e, he, htargets, htargets'⟩ |
      ⟨hperm, name, result, hbest⟩
    · refine hinsert d' env' w' (before.map fun t => (t.1, answers t)) target.1 e
        (after.map fun t => (t.1, answers t)) ?_ ?_
      · rw [hsaid, htargets, List.map_append]
      · rw [hsaid', htargets', List.map_append, List.map_cons, he]
    · refine hreorder d' env' w' name result hbest ?_
      rw [hsaid, hsaid']
      exact hperm.map _

end Spork
