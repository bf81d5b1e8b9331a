import Spork.Effects.Noting
import Spork.Pipeline.Tier2.Default

/-!
# Traced pipelines

`core/pipeline/tracing.py` and `core/pipeline/observer.py`: the pipelines as
`build_default_pipeline` and `build_tier2_pipeline` compose them, with `TracingStage` and
`TracingSelector` around every module and a log record for every alert.  A log record is a note
(`Spork.Effects.Noting`).

`Pipeline.Wraps` is what wrapping is meant to be: the pipeline that is left when the log is crossed
out is the one of `Spork.Pipeline.Default` and `Spork.Pipeline.Tier2.Default`.

`duration_ms` is a floating-point number read off a clock that nothing else reads; it is left out.
-/

set_option autoImplicit false

namespace Spork

open Effects

namespace Traced

/-! ## Log records -/

/-- The fields of a log record, by who writes it. -/
inductive Fields where
  | stage (kind : String)
  | selector (branch : String)
  | alert (body : String) (urgency : AlertUrgency)
  deriving DecidableEq, Repr

/-- A log record. -/
structure TraceRecord where
  correlationId : String
  event : String
  fields : Fields
  deriving DecidableEq, Repr

/-- A program that writes log records. -/
abbrev TProc (α : Type) : Type := Prog (sig.noting TraceRecord) α

/-- `PipelineObserver.trace`. -/
def trace (correlationId event : String) (fields : Fields) : TProc Unit :=
  Prog.note ⟨correlationId, event, fields⟩

/-- `PipelineObserver.alert`: trace the alert, then deliver it. -/
def alert (ops : PipelineObserver) (correlationId title body : String) (urgency : AlertUrgency) :
    TProc Unit := do
  trace correlationId title (.alert body urgency)
  (ops.alert title body urgency).lift

/-- Metadata that has a `correlation_id`. -/
class Correlated (M : Type) where
  correlationId : M → Option String

instance : Correlated MessageMeta := ⟨MessageMeta.correlationId⟩

instance : Correlated Tier2Meta := ⟨Tier2Meta.correlationId⟩

/-- `id or "-"` -/
def shown (id : String) : String := if id = "" then "-" else id

/-- `_correlation_id`. -/
def correlationIdOf {M : Type} [Correlated M] (m : M) : String :=
  match Correlated.correlationId m with
  | none => "-"
  | some id => shown id

/-! ## Wrapped modules -/

section Modules

variable {M : Type}

/-- A stage, with the name of its class. -/
inductive Stage (M : Type) where
  | filter (name : String) (apply : Payload M → TProc (Payload M))
  | augment (name : String) (augment : Payload M → TProc (Payload M))

/-- `type(stage).__name__` -/
def Stage.name : Stage M → String
  | .filter name _ => name
  | .augment name _ => name

/-- What `TracingStage` logs as the stage's kind. -/
def Stage.kind : Stage M → String
  | .filter _ _ => "filter"
  | .augment _ _ => "augment"

/-- The wrapped stage's own method. -/
def Stage.run : Stage M → Payload M → TProc (Payload M)
  | .filter _ f => f
  | .augment _ f => f

/-- A stage that writes no log record. -/
def Stage.of (name : String) : Spork.Stage M → Stage M
  | .filter f => .filter name fun payload => (f payload).lift
  | .augment f => .augment name fun payload => (f payload).lift

/-- A selector, with the name of its class. -/
structure Selector (M : Type) where
  name : String
  select : Payload M → TProc (String × Payload M)

/-- A selector that writes no log record. -/
def Selector.of (name : String) (select : Spork.Selector M) : Selector M :=
  ⟨name, fun payload => (select payload).lift⟩

/-- `Pipeline(wrap_stages(stages), selector=wrap_selector(selector), routes=routes)`. -/
inductive Pipeline (M : Type) where
  | mk (stages : List (Stage M)) (selector : Option (Selector M))
      (routes : List (String × Pipeline M))

variable [Correlated M]

/-- `TracingStage.apply`. -/
def tracingStage (stage : Stage M) (payload : Payload M) : TProc (Payload M) := do
  let result ← stage.run payload
  trace (correlationIdOf payload.metaData) (stage.name ++ " ran") (.stage stage.kind)
  pure result

/-- `TracingSelector.select`. -/
def tracingSelector (selector : Selector M) (payload : Payload M) :
    TProc (String × Payload M) := do
  let result ← selector.select payload
  trace (correlationIdOf payload.metaData) (selector.name ++ " selected") (.selector result.1)
  pure result

/-- Run every wrapped stage in order. -/
def runStages : List (Stage M) → Payload M → TProc (Payload M)
  | [], payload => pure payload
  | stage :: stages, payload => do
    let payload ← tracingStage stage payload
    runStages stages payload

mutual

/-- `Pipeline.run`. -/
def Pipeline.run : Pipeline M → Payload M → TProc (Payload M)
  | .mk stages selector routes, payload => do
    let payload ← runStages stages payload
    match selector with
    | none => pure payload
    | some selector => do
      let (branch, payload) ← tracingSelector selector payload
      runRoute routes (routes.map Prod.fst) branch payload

/-- Follow the route of a branch. -/
def runRoute : List (String × Pipeline M) → List String → String → Payload M →
    TProc (Payload M)
  | [], known, branch, _ =>
    Prog.raise (S := sig.noting TraceRecord) ⟨.unknownBranchError, "selector returned branch " ++
      pyRepr branch ++ ", no route for it; known routes: " ++ pyReprSorted known⟩
  | (name, pipeline) :: routes, known, branch, payload =>
    if name = branch then pipeline.run payload else runRoute routes known branch payload

end

end Modules

/-! ## Wrapping -/

section Wraps

variable {M : Type}

/-- The stage that is left when the log is crossed out. -/
def Stage.Wraps (stage : Stage M) (plain : Spork.Stage M) : Prop :=
  ∀ payload, (stage.run payload).Erases (plain.run payload)

/-- The selector that is left. -/
def Selector.Wraps (selector : Selector M) (plain : Spork.Selector M) : Prop :=
  ∀ payload, (selector.select payload).Erases (plain payload)

/-- The selector that is left, if there is one. -/
def wrapsSelector : Option (Selector M) → Option (Spork.Selector M) → Prop
  | none, none => True
  | some selector, some plain => selector.Wraps plain
  | _, _ => False

mutual

/-- The pipeline that is left. -/
def Pipeline.Wraps : Pipeline M → Spork.Pipeline M → Prop
  | .mk stages selector routes, .mk stages' selector' routes' =>
    List.Forall₂ Stage.Wraps stages stages' ∧ wrapsSelector selector selector' ∧
      WrapsRoutes routes routes'

/-- The routes that are left, under the same names. -/
def WrapsRoutes : List (String × Pipeline M) → List (String × Spork.Pipeline M) → Prop
  | [], [] => True
  | (name, pipeline) :: routes, (name', plain) :: routes' =>
    name = name' ∧ pipeline.Wraps plain ∧ WrapsRoutes routes routes'
  | _, _ => False

end

theorem Stage.of_wraps (name : String) (stage : Spork.Stage M) :
    (Stage.of name stage).Wraps stage := by
  intro payload
  cases stage with
  | filter f => exact Prog.erases_lift _
  | augment f => exact Prog.erases_lift _

theorem Selector.of_wraps (name : String) (select : Spork.Selector M) :
    (Selector.of name select).Wraps select := fun _ => Prog.erases_lift _

theorem WrapsRoutes.names : ∀ {routes : List (String × Pipeline M)}
    {routes' : List (String × Spork.Pipeline M)}, WrapsRoutes routes routes' →
      routes.map Prod.fst = routes'.map Prod.fst
  | [], [], _ => rfl
  | (_, _) :: _, (_, _) :: _, h => by
    rw [List.map_cons, List.map_cons, h.2.2.names, h.1]

variable [Correlated M]

theorem tracingStage_erases {stage : Stage M} {plain : Spork.Stage M} (h : stage.Wraps plain)
    (payload : Payload M) : (tracingStage stage payload).Erases (plain.run payload) :=
  (h payload).bind_note _

theorem tracingSelector_erases {selector : Selector M} {plain : Spork.Selector M}
    (h : selector.Wraps plain) (payload : Payload M) :
    (tracingSelector selector payload).Erases (plain payload) :=
  (h payload).bind_note _

theorem runStages_erases {stages : List (Stage M)} {plain : List (Spork.Stage M)}
    (h : List.Forall₂ Stage.Wraps stages plain) (payload : Payload M) :
    (runStages stages payload).Erases (Spork.runStages plain payload) := by
  induction h generalizing payload with
  | nil => exact .done _
  | cons hstage _ ih => exact (tracingStage_erases hstage payload).bind ih

mutual

/-- **Wrapping never changes what actually executes.** -/
theorem Pipeline.Wraps.run : ∀ {pipeline : Pipeline M} {plain : Spork.Pipeline M},
    pipeline.Wraps plain → ∀ payload, (pipeline.run payload).Erases (plain.run payload)
  | .mk stages selector routes, .mk stages' selector' routes', h, payload => by
    obtain ⟨hstages, hselector, hroutes⟩ := h
    rw [Pipeline.run, Spork.Pipeline.run]
    refine (runStages_erases hstages payload).bind fun payload => ?_
    cases selector with
    | none =>
      cases selector' with
      | none => exact .done _
      | some plain => exact hselector.elim
    | some selector =>
      cases selector' with
      | none => exact hselector.elim
      | some plain =>
        refine (tracingSelector_erases hselector payload).bind fun routed => ?_
        rw [hroutes.names]
        exact WrapsRoutes.run hroutes _ routed.1 routed.2

/-- The routes do what the plain ones do. -/
theorem WrapsRoutes.run : ∀ {routes : List (String × Pipeline M)}
    {routes' : List (String × Spork.Pipeline M)}, WrapsRoutes routes routes' →
      ∀ known branch payload,
        (runRoute routes known branch payload).Erases (Spork.runRoute routes' known branch payload)
  | [], [], _, known, branch, payload => by
    rw [runRoute, Spork.runRoute]
    exact .done _
  | (name, pipeline) :: routes, (name', plain) :: routes', h, known, branch, payload => by
    obtain ⟨rfl, hpipeline, hroutes⟩ := h
    rw [runRoute, Spork.runRoute]
    split
    · exact hpipeline.run payload
    · exact WrapsRoutes.run hroutes known branch payload

end

end Wraps

end Traced

end Spork
