import Mathlib.Data.List.MinMax
import Spork.Rules.Engine

/-!
# Dispatching to several classifiers

`core/dispatch`: a `Dispatcher` asks every target about a message and keeps, for each, its result or
the exception it raised; a `Combiner` reduces that to one result.  A `DispatchingClassifier` is a
classifier like any other, so the rule engine does not know that there are several.
-/

set_option autoImplicit false

namespace Spork

open Effects

/-! ## The dispatcher -/

/-- What every target said: its result, or the exception it raised. -/
abbrev DispatchResult : Type := List (String × Except Exn ClassificationResult)

/-- The configured targets, in their order. -/
structure Dispatcher where
  targets : List (String × TextClassifier)
  distinct : (targets.map Prod.fst).Nodup

/-- One target's entry: an exception is captured. -/
def dispatchOne (target : TextClassifier) (message : NormalizedMessage) :
    Proc (Except Exn ClassificationResult) :=
  (target.classify message >>= fun result => pure (.ok result)).tryCatch fun e => pure (.error e)

/-- The loop of `dispatch`.  The names are distinct, so each assignment adds an entry. -/
def dispatchFrom (message : NormalizedMessage) :
    List (String × TextClassifier) → DispatchResult → Proc DispatchResult
  | [], results => pure results
  | (name, target) :: targets, results => do
    let outcome ← dispatchOne target message
    dispatchFrom message targets (results ++ [(name, outcome)])

/-- `Dispatcher.dispatch`. -/
def Dispatcher.dispatch (dispatcher : Dispatcher) (message : NormalizedMessage) :
    Proc DispatchResult := dispatchFrom message dispatcher.targets []

/-! ## Combiners -/

/-- `CombineError`. -/
def combineError : ExnClass := .other "CombineError"

/-- Reduces one dispatch to a single decision. -/
structure Combiner where
  combine : DispatchResult → Except Exn ClassificationResult

/-- `PrimaryCombiner`: the named target decides, the others are shadows. -/
def primaryCombiner (primaryName : String) : Combiner where
  combine results :=
    match results.lookup primaryName with
    | none => .error ⟨combineError, "primary target " ++ pyRepr primaryName ++
        " was not in the dispatch results; available: " ++ pyReprSorted (results.map Prod.fst)⟩
    | some (.error _) => .error ⟨combineError, "primary target " ++ pyRepr primaryName ++
        " failed to classify"⟩
    | some (.ok result) => .ok result

/-- `confidence`: the maximum of the scores, 0 if there is none. -/
def confidence (result : ClassificationResult) : ℚ := (result.scores.map Prod.snd).max?.getD 0

/-- The targets that did not raise. -/
def successes (results : DispatchResult) : List (String × ClassificationResult) :=
  results.filterMap fun entry => entry.2.toOption.map fun result => (entry.1, result)

/-- `HighestConfidenceCombiner`.  `max` returns the first entry whose key is maximal. -/
def highestConfidenceCombiner : Combiner where
  combine results :=
    match (successes results).argmax fun entry => confidence entry.2 with
    | none => .error ⟨combineError, "no target produced a successful classification result"⟩
    | some best => .ok best.2

/-- `DispatchingClassifier`. -/
def dispatchingClassifier (dispatcher : Dispatcher) (combiner : Combiner) : TextClassifier where
  classify message := do
    let results ← dispatcher.dispatch message
    ofExcept (combiner.combine results)

end Spork
