import Spork.World

/-!
# Pipelines

`core/pipeline/core.py`: a pipeline is a straight line of stages, optionally ended by a selector
whose branches are pipelines again.  Nothing here knows what a message is; `M` is whatever the
concrete pipeline carries along.

`TracingStage` and `TracingSelector`, which every composed pipeline wraps around its stages, write
one log record after the stage has run and pass its result on.  A log record is not part of the
modelled world, so a wrapped stage is the stage.
-/

set_option autoImplicit false

namespace Spork

open Effects

variable {M : Type}

/-- The unit every stage reads and returns.  (`meta` itself is a keyword of Lean.) -/
structure Payload (M : Type) where
  text : String
  metaData : M

/-- A straight-line stage.  The two kinds have the same shape; which method is called is all that
tells them apart. -/
inductive Stage (M : Type) where
  | filter (apply : Payload M → Proc (Payload M))
  | augment (augment : Payload M → Proc (Payload M))

/-- Run one stage: `stage.augment(payload)` or `stage.apply(payload)`. -/
def Stage.run : Stage M → Payload M → Proc (Payload M)
  | .filter f => f
  | .augment f => f

/-- A routing decision: the branch's name, and the payload to take there. -/
abbrev Selector (M : Type) : Type := Payload M → Proc (String × Payload M)

/-- Stages, then possibly a selector with its routes. -/
inductive Pipeline (M : Type) where
  | mk (stages : List (Stage M)) (selector : Option (Selector M))
      (routes : List (String × Pipeline M))

/-- The empty pipeline, which does nothing. -/
def Pipeline.empty : Pipeline M := .mk [] none []

/-- A pipeline without a selector. -/
def Pipeline.straight (stages : List (Stage M)) : Pipeline M := .mk stages none []

/-- Run every stage in order. -/
def runStages : List (Stage M) → Payload M → Proc (Payload M)
  | [], payload => pure payload
  | stage :: stages, payload => do
    let payload ← stage.run payload
    runStages stages payload

mutual

/-- `Pipeline.run`: every stage in order, then the selector's branch, if there is a selector. -/
def Pipeline.run : Pipeline M → Payload M → Proc (Payload M)
  | .mk stages selector routes, payload => do
    let payload ← runStages stages payload
    match selector with
    | none => pure payload
    | some select => do
      let (branch, payload) ← select payload
      runRoute routes (routes.map Prod.fst) branch payload

/-- Follow the route of a branch; a branch without one is a wiring error. -/
def runRoute : List (String × Pipeline M) → List String → String → Payload M → Proc (Payload M)
  | [], known, branch, _ =>
    raise .unknownBranchError ("selector returned branch " ++ pyRepr branch ++
      ", no route for it; known routes: " ++ pyReprSorted known)
  | (name, pipeline) :: routes, known, branch, payload =>
    if name = branch then pipeline.run payload else runRoute routes known branch payload

end

@[simp] theorem runStages_nil (payload : Payload M) : runStages [] payload = pure payload := rfl

@[simp] theorem runStages_filter (f : Payload M → Proc (Payload M)) (stages : List (Stage M))
    (payload : Payload M) :
    runStages (.filter f :: stages) payload = f payload >>= runStages stages := rfl

@[simp] theorem runStages_augment (f : Payload M → Proc (Payload M)) (stages : List (Stage M))
    (payload : Payload M) :
    runStages (.augment f :: stages) payload = f payload >>= runStages stages := rfl

end Spork
