import Spork.Pipeline.Traced
import Spork.Runtime

/-!
# What the log can be relied on for

* `tracing_changes_nothing`: a traced pipeline does what the plain one does.
* `log_shows_the_way`: a log says how far a message has come and which way it took, whether its
  run ended, was cut off or failed: a record is there if and only if its module has returned.
* `log_has_one_correlation_id`: the records of a message share one id, but for those before the id
  was drawn.
-/

set_option autoImplicit false

namespace Spork

namespace Traced

open Effects Machine

/-! ## Nothing changes -/

section Nothing

variable {W : Type} (M : Machine sig W) (w w' : W) (log : List TraceRecord)

/-- **Tracing changes nothing.**  Whatever the collaborators do, a traced pipeline can be brought
exactly as far as the plain one, through the same worlds, and ends with the same outcomes. -/
theorem tracing_changes_nothing :
    (∀ (deps : Tier1Deps) (force : Bool) (message : NormalizedMessage) (rules : List Rule),
      ((∃ p log', Reaches (M.noting TraceRecord) (processMessage deps force message rules) (w, log)
          p (w', log')) ↔ ∃ q, Reaches M (Spork.processMessage deps force message rules) w q w') ∧
      ∀ r, (∃ log', Reaches (M.noting TraceRecord) (processMessage deps force message rules)
          (w, log) (.done (S := sig.noting TraceRecord) r) (w', log')) ↔
        Reaches M (Spork.processMessage deps force message rules) w (.done r) w') ∧
    ∀ (deps : Tier2Deps) (input : Tier2Input),
      ((∃ p log', Reaches (M.noting TraceRecord) (processTier2Message deps input) (w, log)
          p (w', log')) ↔ ∃ q, Reaches M (Spork.processTier2Message deps input) w q w') ∧
      ∀ r, (∃ log', Reaches (M.noting TraceRecord) (processTier2Message deps input)
          (w, log) (.done (S := sig.noting TraceRecord) r) (w', log')) ↔
        Reaches M (Spork.processTier2Message deps input) w (.done r) w' := by
  refine ⟨fun deps force message rules => ?_, fun deps input => ?_⟩
  · have h := processMessage_erases deps force message rules
    exact ⟨erases_reaches_iff h log, fun r => erases_finishes_iff h log⟩
  · have h := processTier2Message_erases deps input
    exact ⟨erases_reaches_iff h log, fun r => erases_finishes_iff h log⟩

end Nothing

/-! ## Modules that only log their alerts -/

section Modules

variable {M : Type} [Correlated M]

/-- The id of a payload. -/
abbrev cid (payload : Payload M) : Option String := Correlated.correlationId payload.metaData

/-- The records are alerts under the payload's id. -/
def AlertsAs (payload : Payload M) (log : List TraceRecord) : Prop :=
  ∀ r ∈ log, cid payload = some r.correlationId ∧ ∃ body urgency, r.fields = .alert body urgency

/-- A stage that logs nothing but alerts. -/
def Stage.Quiet (stage : Stage M) : Prop :=
  ∀ payload, (stage.run payload).Notes (AlertsAs payload) fun _ => AlertsAs payload

/-- And that leaves the id alone. -/
def Stage.Keeps (stage : Stage M) : Prop :=
  ∀ payload, (stage.run payload).Notes (AlertsAs payload) fun r log =>
    AlertsAs payload log ∧ ∀ p, r = .ok p → cid p = cid payload

/-- A selector that logs nothing and leaves the id alone. -/
def Selector.Keeps (selector : Selector M) : Prop :=
  ∀ payload, (selector.select payload).Notes (· = []) fun r log =>
    log = [] ∧ ∀ p, r = .ok p → cid p.2 = cid payload

theorem alertsAs_nil (payload : Payload M) : AlertsAs payload [] := by
  rintro r ⟨⟩

theorem Stage.Keeps.quiet {stage : Stage M} (h : stage.Keeps) : stage.Quiet := fun payload =>
  (h payload).mono (fun _ => id) fun _ _ => And.left

mutual

/-- Every module of a pipeline. -/
def Pipeline.All (P : Stage M → Prop) : Pipeline M → Prop
  | .mk stages selector routes =>
    (∀ stage ∈ stages, P stage) ∧ (∀ s ∈ selector, s.Keeps) ∧ AllRoutes P routes

/-- Every module behind a selector. -/
def AllRoutes (P : Stage M → Prop) : List (String × Pipeline M) → Prop
  | [] => True
  | (_, pipeline) :: routes => pipeline.All P ∧ AllRoutes P routes

end

/-- Any answer whatever. -/
def freely : Machine sig Unit := fun _ _ _ _ => True

theorem notes_lift_alertsAs {payload : Payload M} {p : Proc (Payload M)}
    {P : Payload M → Prop} (h : freely.ReturnsOnly P p) :
    (p.lift (N := TraceRecord)).Notes (AlertsAs payload) fun r log =>
      AlertsAs payload log ∧ ∀ p, r = .ok p → P p := by
  refine (Prog.notes_lift (fun _ _ _ _ => trivial) h).mono ?_ ?_
  · rintro _ rfl
    exact alertsAs_nil payload
  · rintro r _ ⟨rfl, hr⟩
    exact ⟨alertsAs_nil payload, hr⟩

theorem Stage.of_keeps {name : String} {stage : Spork.Stage M}
    (h : ∀ payload, freely.ReturnsOnly (fun p => cid p = cid payload) (stage.run payload)) :
    (Stage.of name stage).Keeps := by
  cases stage with
  | filter f => exact fun payload => notes_lift_alertsAs (h payload)
  | augment f => exact fun payload => notes_lift_alertsAs (h payload)

theorem Stage.of_quiet {name : String} {stage : Spork.Stage M} : (Stage.of name stage).Quiet := by
  cases stage with
  | filter f =>
    exact fun payload => (notes_lift_alertsAs (freely.returnsOnly_true (f payload))).mono
      (fun _ => id) fun _ _ => And.left
  | augment f =>
    exact fun payload => (notes_lift_alertsAs (freely.returnsOnly_true (f payload))).mono
      (fun _ => id) fun _ _ => And.left

theorem Selector.of_keeps {name : String} {select : Spork.Selector M}
    (h : ∀ payload, freely.ReturnsOnly (fun p => cid p.2 = cid payload) (select payload)) :
    (Selector.of name select).Keeps := fun payload =>
  Prog.notes_lift (fun _ _ _ _ => trivial) (h payload)

end Modules

/-! ## The way -/

section Way

variable {M : Type}

/-- A record of a module, not of an alert. -/
def TraceRecord.isStep (r : TraceRecord) : Bool :=
  match r.fields with
  | .alert _ _ => false
  | _ => true

/-- What a log says about the way. -/
def steps (log : List TraceRecord) : List (String × Fields) :=
  (log.filter TraceRecord.isStep).map fun r => (r.event, r.fields)

/-- What a stage leaves behind. -/
def Stage.step (stage : Stage M) : String × Fields := (stage.name ++ " ran", .stage stage.kind)

/-- What a selector leaves behind. -/
def Selector.step (selector : Selector M) (branch : String) : String × Fields :=
  (selector.name ++ " selected", .selector branch)

@[simp] theorem steps_nil : steps [] = [] := rfl

theorem steps_append (l l' : List TraceRecord) : steps (l ++ l') = steps l ++ steps l' := by
  rw [steps, List.filter_append, List.map_append]
  rfl

section Standing

variable {W : Type} (K : Machine sig W)

/-- From `w` the program can come to `q` in `w'`, whatever it logs. -/
def Comes {α : Type} (p q : TProc α) (w w' : W) : Prop :=
  ∃ log log', Reaches (K.noting TraceRecord) p (w, log) q (w', log')

/-- A module is at work, or has raised. -/
inductive AtWork {α β : Type} (p : TProc α) (w w' : W) : Option (sig.Outcome β) → Prop where
  | working {q : TProc α} (h : Comes K p q w w') : AtWork p w w' none
  | raised {e : Exn} (h : Comes K p (.done (S := sig.noting TraceRecord) (.error e)) w w') :
      AtWork p w w' (some (.error e))

/-- The stages have returned, each on what the one before it returned. -/
inductive Ran : List (Stage M) → Payload M → W → Payload M → W → Prop where
  | nil {payload : Payload M} {w : W} : Ran [] payload w payload w
  | cons {stage : Stage M} {stages : List (Stage M)} {payload payload₁ payload₂ : Payload M}
      {w w₁ w₂ : W}
      (h : Comes K (stage.run payload) (.done (S := sig.noting TraceRecord) (.ok payload₁)) w w₁)
      (hs : Ran stages payload₁ w₁ payload₂ w₂) : Ran (stage :: stages) payload w payload₂ w₂

mutual

/-- A run through a pipeline stands in `w'`, with `way` behind it: in front of the next record a
stage or the selector is at work, or has raised; or the run has come to the end. -/
def Pipeline.Stands : Pipeline M → Payload M → W → List (String × Fields) →
    Option (sig.Outcome (Payload M)) → W → Prop
  | .mk stages selector routes, payload, w, way, ended, w' =>
    (∃ front stage rest payload₁ w₁, stages = front ++ stage :: rest ∧
        Ran K front payload w payload₁ w₁ ∧ way = front.map Stage.step ∧
        AtWork K (stage.run payload₁) w₁ w' ended) ∨
      ∃ payload₁ w₁, Ran K stages payload w payload₁ w₁ ∧
        match selector with
        | none => way = stages.map Stage.step ∧ ended = some (.ok payload₁) ∧ w' = w₁
        | some selector =>
          (way = stages.map Stage.step ∧ AtWork K (selector.select payload₁) w₁ w' ended) ∨
            ∃ branch payload₂ w₂ rest,
              Comes K (selector.select payload₁)
                (.done (S := sig.noting TraceRecord) (.ok (branch, payload₂))) w₁ w₂ ∧
              way = stages.map Stage.step ++ selector.step branch :: rest ∧
              StandsFrom routes branch payload₂ w₂ rest ended w'

/-- A run through the route of a branch; without one, it has raised. -/
def StandsFrom : List (String × Pipeline M) → String → Payload M → W → List (String × Fields) →
    Option (sig.Outcome (Payload M)) → W → Prop
  | [], _, _, w, way, ended, w' =>
    way = [] ∧ w' = w ∧ ∃ e : Exn, e.cls = .unknownBranchError ∧ ended = some (.error e)
  | (name, pipeline) :: routes, branch, payload, w, way, ended, w' =>
    if name = branch then pipeline.Stands payload w way ended w'
    else StandsFrom routes branch payload w way ended w'

end

end Standing

variable [Correlated M] {W : Type} {K : Machine sig W} {w w' : W} {log log' : List TraceRecord}
  {β : Type} {c : TProc β}

theorem steps_alertsAs {payload : Payload M} {log : List TraceRecord} (h : AlertsAs payload log) :
    steps log = [] := by
  rw [steps, List.map_eq_nil_iff, List.filter_eq_nil_iff]
  intro r hr
  obtain ⟨-, body, urgency, hfields⟩ := h r hr
  rw [TraceRecord.isStep, hfields]
  exact Bool.false_ne_true

/-- **A module and its record**: without the record it is at work, and behind it it has returned. -/
theorem traced_reaches {α : Type} {p : TProc α} {note : α → TraceRecord} {f : α → TProc β}
    (hp : p.Notes (fun log => steps log = []) fun _ log => steps log = [])
    (hr : Reaches (K.noting TraceRecord)
      ((p >>= fun a => Prog.note (note a) >>= fun _ => pure a) >>= f) (w, log) c (w', log')) :
    (∃ new ended, log' = log ++ new ∧ steps new = [] ∧ AtWork K p w w' ended ∧
        ∀ r, c = .done (S := sig.noting TraceRecord) r → ended = some r) ∨
      ∃ a w₁ new, Comes K p (.done (S := sig.noting TraceRecord) (.ok a)) w w₁ ∧
        steps new = steps [note a] ∧
        Reaches (K.noting TraceRecord) (f a) (w₁, log ++ new) c (w', log') := by
  rw [bind_assoc] at hr
  rcases hr.bind_cases with ⟨q, hq, rfl, hne⟩ | ⟨a, ⟨w₁, log₁⟩, hdone, hrest⟩
  · obtain ⟨new, hlog, hnew, -⟩ := notes_reaches hp hq
    cases q with
    | call op k => exact .inl ⟨new, none, hlog, hnew, .working ⟨_, _, hq⟩, nofun⟩
    | done r =>
      cases r with
      | ok a => exact absurd rfl (hne a)
      | error e =>
        refine .inl ⟨new, some (.error e), hlog, hnew, .raised ⟨_, _, hq⟩, fun r hr => ?_⟩
        cases hr
        rfl
  · obtain ⟨new, rfl, hnew, -⟩ := notes_reaches hp hdone
    rcases Relation.ReflTransGen.cases_head hrest with heq | ⟨x, hs, hrest⟩
    · -- It has returned, and its record is still to be written.
      cases heq
      exact .inl ⟨new, none, rfl, hnew, .working ⟨_, _, hdone⟩, nofun⟩
    · cases hs with
      | @call op k _ y r hc =>
        obtain ⟨rfl, rfl⟩ := hc
        refine .inr ⟨a, w₁, new ++ [note a], ⟨_, _, hdone⟩, ?_, ?_⟩
        · rw [steps_append, hnew, List.nil_append]
        · rw [← List.append_assoc]
          exact hrest

theorem Stage.Quiet.steps {stage : Stage M} (h : stage.Quiet) (payload : Payload M) :
    (stage.run payload).Notes (fun log => steps log = []) fun _ log => Traced.steps log = [] :=
  (h payload).mono (fun _ => steps_alertsAs) fun _ _ => steps_alertsAs

theorem Selector.Keeps.steps {selector : Selector M} (h : selector.Keeps) (payload : Payload M) :
    (selector.select payload).Notes (fun log => steps log = [])
      fun _ log => Traced.steps log = [] :=
  (h payload).mono (fun _ hlog => by rw [hlog, steps_nil]) fun _ _ hlog => by rw [hlog.1, steps_nil]

theorem runStages_reaches : ∀ {stages : List (Stage M)}, (∀ stage ∈ stages, stage.Quiet) →
    ∀ {payload : Payload M} {w : W} {log : List TraceRecord} {f : Payload M → TProc β},
    Reaches (K.noting TraceRecord) (runStages stages payload >>= f) (w, log) c (w', log') →
    (∃ front stage rest payload₁ w₁ new ended, stages = front ++ stage :: rest ∧
        Ran K front payload w payload₁ w₁ ∧ log' = log ++ new ∧
        steps new = front.map Stage.step ∧ AtWork K (stage.run payload₁) w₁ w' ended ∧
        ∀ r, c = .done (S := sig.noting TraceRecord) r → ended = some r) ∨
      ∃ payload₁ w₁ new, Ran K stages payload w payload₁ w₁ ∧ steps new = stages.map Stage.step ∧
        Reaches (K.noting TraceRecord) (f payload₁) (w₁, log ++ new) c (w', log')
  | [], _, payload, w, log, f, hr => by
    refine .inr ⟨payload, w, [], .nil, rfl, ?_⟩
    rw [List.append_nil]
    exact hr
  | stage :: stages, h, payload, w, log, f, hr => by
    rw [runStages, bind_assoc] at hr
    rcases traced_reaches ((h stage List.mem_cons_self).steps payload) hr with
      ⟨new, ended, hlog, hnew, hwork, hend⟩ | ⟨payload₁, w₁, new, hcomes, hnew, hrest⟩
    · exact .inl ⟨[], stage, stages, payload, w, new, ended, rfl, .nil, hlog, hnew, hwork, hend⟩
    · have hstep : steps new = [stage.step] := hnew
      rcases runStages_reaches (fun s hs => h s (List.mem_cons_of_mem _ hs)) hrest with
        ⟨front, s, rest, payload₂, w₂, more, ended, rfl, hran, hlog, hmore, hwork, hend⟩ |
        ⟨payload₂, w₂, more, hran, hmore, hrest⟩
      · refine .inl ⟨stage :: front, s, rest, payload₂, w₂, new ++ more, ended, rfl,
          .cons hcomes hran, by rw [hlog, List.append_assoc], ?_, hwork, hend⟩
        rw [steps_append, hstep, hmore]
        rfl
      · refine .inr ⟨payload₂, w₂, new ++ more, .cons hcomes hran, ?_, ?_⟩
        · rw [steps_append, hstep, hmore]
          rfl
        · rw [← List.append_assoc]
          exact hrest

mutual

/-- **Where a run stands.** -/
theorem Pipeline.run_stands : ∀ {pipeline : Pipeline M}, pipeline.All Stage.Quiet →
    ∀ {payload : Payload M} {w : W} {log : List TraceRecord} {c : TProc (Payload M)},
    Reaches (K.noting TraceRecord) (pipeline.run payload) (w, log) c (w', log') →
    ∃ new ended, log' = log ++ new ∧ pipeline.Stands K payload w (steps new) ended w' ∧
      ∀ r, c = .done (S := sig.noting TraceRecord) r → ended = some r
  | .mk stages selector routes, h, payload, w, log, c, hr => by
    rw [Pipeline.run] at hr
    rcases runStages_reaches h.1 hr with
      ⟨front, stage, rest, payload₁, w₁, new, ended, hstages, hran, hlog, hnew, hwork, hend⟩ |
      ⟨payload₁, w₁, new, hran, hnew, hrest⟩
    · refine ⟨new, ended, hlog, ?_, hend⟩
      rw [Pipeline.Stands]
      exact .inl ⟨front, stage, rest, payload₁, w₁, hstages, hran, hnew, hwork⟩
    · cases selector with
      | none =>
        rcases Relation.ReflTransGen.cases_head hrest with heq | ⟨x, hs, -⟩
        · cases heq
          refine ⟨new, some (.ok payload₁), rfl, ?_, fun r hr => ?_⟩
          · rw [Pipeline.Stands]
            exact .inr ⟨payload₁, _, hran, hnew, rfl, rfl⟩
          · cases hr
            rfl
        · cases hs
      | some selector =>
        rcases traced_reaches ((h.2.1 selector rfl).steps payload₁) hrest with
          ⟨more, ended, hlog, hmore, hwork, hend⟩ |
          ⟨⟨branch, payload₂⟩, w₂, more, hcomes, hmore, hrest⟩
        · refine ⟨new ++ more, ended, by rw [hlog, List.append_assoc], ?_, hend⟩
          rw [Pipeline.Stands, steps_append, hmore, List.append_nil]
          exact .inr ⟨payload₁, w₁, hran, .inl ⟨hnew, hwork⟩⟩
        · obtain ⟨last, ended, hlog, hstands, hend⟩ := runRoute_stands h.2.2 hrest
          have hbranch : steps more = [selector.step branch] := hmore
          refine ⟨new ++ (more ++ last), ended, by rw [hlog]; simp only [List.append_assoc], ?_,
            hend⟩
          rw [Pipeline.Stands, steps_append, steps_append, hnew, hbranch]
          exact .inr ⟨payload₁, w₁, hran, .inr ⟨branch, payload₂, w₂, steps last, hcomes, rfl,
            hstands⟩⟩

theorem runRoute_stands : ∀ {routes : List (String × Pipeline M)},
    AllRoutes Stage.Quiet routes → ∀ {known : List String} {branch : String}
    {payload : Payload M} {w : W} {log : List TraceRecord} {c : TProc (Payload M)},
    Reaches (K.noting TraceRecord) (runRoute routes known branch payload) (w, log) c (w', log') →
    ∃ new ended, log' = log ++ new ∧ StandsFrom K routes branch payload w (steps new) ended w' ∧
      ∀ r, c = .done (S := sig.noting TraceRecord) r → ended = some r
  | [], _, known, branch, payload, w, log, c, hr => by
    obtain ⟨e, hcls, he⟩ : ∃ e : Exn, e.cls = .unknownBranchError ∧
        runRoute ([] : List (String × Pipeline M)) known branch payload
          = .done (S := sig.noting TraceRecord) (.error e) :=
      ⟨⟨.unknownBranchError, _⟩, rfl, by rw [runRoute]; rfl⟩
    rw [he] at hr
    rcases Relation.ReflTransGen.cases_head hr with heq | ⟨x, hs, -⟩
    · cases heq
      refine ⟨[], some (.error e), (List.append_nil _).symm, ⟨rfl, rfl, e, hcls, rfl⟩,
        fun r hr => ?_⟩
      cases hr
      rfl
    · cases hs
  | (name, pipeline) :: routes, h, known, branch, payload, w, log, c, hr => by
    rw [runRoute] at hr
    simp only [StandsFrom]
    split at hr
    · next hname =>
      simp only [if_pos hname]
      exact Pipeline.run_stands h.1 hr
    · next hname =>
      simp only [if_neg hname]
      exact runRoute_stands h.2 hr

end

end Way

/-! ## The modules of the two tiers -/

/-- An alert is an alert under its id. -/
theorem alert_alertsAs {M : Type} [Correlated M] {payload : Payload M} {id : String}
    (hid : cid payload = some id) (ops : PipelineObserver) (title body : String)
    (urgency : AlertUrgency) :
    (alert ops id title body urgency).Notes (AlertsAs payload) fun _ => AlertsAs payload := by
  have hone : AlertsAs payload [⟨id, title, .alert body urgency⟩] := by
    intro r hr
    obtain rfl := List.mem_singleton.1 hr
    exact ⟨hid, body, urgency, rfl⟩
  refine ⟨alertsAs_nil payload, ?_⟩
  refine (Prog.notes_lift (fun _ _ _ _ => trivial)
    (freely.returnsOnly_true (ops.alert title body urgency))).mono ?_ ?_
  · rintro _ rfl
    exact hone
  · rintro r _ ⟨rfl, -⟩
    exact hone

/-- An alert, and then a change of the payload that leaves its id alone. -/
theorem alert_keeps {M : Type} [Correlated M] {payload result : Payload M} {α : Type}
    {p : TProc α} (h : p.Notes (AlertsAs payload) fun _ => AlertsAs payload)
    (hresult : cid result = cid payload) :
    (p >>= fun _ => pure result).Notes (AlertsAs payload) fun r log =>
      AlertsAs payload log ∧ ∀ p, r = .ok p → cid p = cid payload := by
  refine h.bind (fun _ => id) (fun e log hlog => ⟨hlog, nofun⟩) fun a log hlog _ => ?_
  have happend : AlertsAs payload (log ++ []) := by rwa [List.append_nil]
  refine ⟨happend, happend, ?_⟩
  rintro _ ⟨⟩
  exact hresult

theorem missing_alertsAs {M : Type} [Correlated M] {payload : Payload M} {α : Type}
    (message : String) :
    (missing message : TProc α).Notes (AlertsAs payload) fun _ => AlertsAs payload :=
  ⟨alertsAs_nil payload, alertsAs_nil payload⟩

theorem missing_keeps {M : Type} [Correlated M] {payload : Payload M} (message : String) :
    (missing message : TProc (Payload M)).Notes (AlertsAs payload) fun r log =>
      AlertsAs payload log ∧ ∀ p, r = .ok p → cid p = cid payload :=
  ⟨alertsAs_nil payload, alertsAs_nil payload, nofun⟩

/-- No alert, and a change of the payload that leaves its id alone. -/
theorem pure_keeps {M : Type} [Correlated M] {payload result : Payload M}
    (hresult : cid result = cid payload) :
    (pure result : TProc (Payload M)).Notes (AlertsAs payload) fun r log =>
      AlertsAs payload log ∧ ∀ p, r = .ok p → cid p = cid payload := by
  refine ⟨alertsAs_nil payload, alertsAs_nil payload, ?_⟩
  rintro _ ⟨⟩
  exact hresult

/-- Something that is not logged, in front. -/
theorem lift_bind_keeps {M : Type} [Correlated M] {payload : Payload M} {α : Type} {p : Proc α}
    {f : α → TProc (Payload M)}
    (h : ∀ a, (f a).Notes (AlertsAs payload) fun r log =>
      AlertsAs payload log ∧ ∀ p, r = .ok p → cid p = cid payload) :
    ((p.lift (N := TraceRecord)) >>= f).Notes (AlertsAs payload) fun r log =>
      AlertsAs payload log ∧ ∀ p, r = .ok p → cid p = cid payload := by
  have hlift := Prog.notes_lift (N := TraceRecord) (fun _ _ _ _ => trivial)
    (freely.returnsOnly_true p)
  refine hlift.bind ?_ ?_ ?_
  · rintro _ rfl
    exact alertsAs_nil payload
  · rintro e _ ⟨rfl, -⟩
    exact ⟨alertsAs_nil payload, nofun⟩
  · rintro a _ rfl -
    exact h a

/-- The stages of a straight pipeline are all there is to it. -/
theorem all_straight {M : Type} [Correlated M] {P : Stage M → Prop} {stages : List (Stage M)}
    (h : ∀ stage ∈ stages, P stage) : (Pipeline.mk stages none []).All P := ⟨h, nofun, trivial⟩

namespace Tier1

open Spork.Tier1 (applyActionFilter writeAuditEntryFilter markProcessedFilter
  archiveReceiptAugment ruleEvaluationSelector idempotencyGateSelector)

theorem applyActionFilter_keeps (executor : ActionExecutor) :
    (Stage.of "ApplyActionFilter" (applyActionFilter executor)).Keeps := by
  refine Stage.of_keeps fun payload => ?_
  simp only [applyActionFilter, Spork.Stage.run]
  split
  · exact returnsOnly_raise
  · exact ReturnsOnly.bind_right fun _ => returnsOnly_pure rfl

theorem writeAuditEntryFilter_keeps :
    (Stage.of "WriteAuditEntryFilter" writeAuditEntryFilter).Keeps := by
  refine Stage.of_keeps fun payload => ?_
  simp only [writeAuditEntryFilter, Spork.Stage.run]
  split
  · exact ReturnsOnly.bind_right fun _ => returnsOnly_pure rfl
  · exact returnsOnly_raise

theorem markProcessedFilter_keeps :
    (Stage.of "MarkProcessedFilter" markProcessedFilter).Keeps := by
  refine Stage.of_keeps fun payload => ?_
  simp only [markProcessedFilter, Spork.Stage.run]
  split
  · exact ReturnsOnly.bind_right fun _ => returnsOnly_pure rfl
  · exact returnsOnly_raise

theorem archiveReceiptAugment_keeps (components : ReceiptArchiveComponents) :
    (Stage.of "ArchiveReceiptAugment" (archiveReceiptAugment components)).Keeps :=
  Stage.of_keeps fun _ => ReturnsOnly.bind_right fun _ => returnsOnly_pure rfl

theorem recordEscalationFilter_keeps (ops : PipelineObserver) :
    (recordEscalationFilter ops).Keeps := by
  intro payload
  simp only [recordEscalationFilter, Stage.run]
  split
  · exact missing_keeps _
  · split
    · split
      · exact alert_keeps (missing_alertsAs _) rfl
      · next hid => exact alert_keeps (alert_alertsAs hid ops _ _ _) rfl
    · exact pure_keeps rfl

theorem ruleEvaluationSelector_keeps :
    (Selector.of "RuleEvaluationSelector" ruleEvaluationSelector).Keeps :=
  Selector.of_keeps fun _ => ReturnsOnly.bind_right fun _ => returnsOnly_pure rfl

theorem idempotencyGateSelector_keeps :
    (Selector.of "IdempotencyGateSelector" idempotencyGateSelector).Keeps := by
  refine Selector.of_keeps fun payload => ReturnsOnly.bind_right fun seen => ?_
  cases seen <;> exact returnsOnly_pure rfl

theorem routes_keep (deps : Tier1Deps) : AllRoutes Stage.Keeps (routes deps) := by
  have hterminal : (terminal deps).All Stage.Keeps := all_straight <|
    List.forall_mem_cons.2 ⟨applyActionFilter_keeps deps.executor,
      List.forall_mem_cons.2 ⟨writeAuditEntryFilter_keeps,
        List.forall_mem_singleton.2 markProcessedFilter_keeps⟩⟩
  have hescalate : (escalate deps).All Stage.Keeps := all_straight <|
    List.forall_mem_cons.2 ⟨recordEscalationFilter_keeps deps.ops,
      List.forall_mem_singleton.2 writeAuditEntryFilter_keeps⟩
  rw [routes]
  cases deps.receiptArchive with
  | none => exact ⟨hterminal, hescalate, trivial⟩
  | some components =>
    have harchive : (archive components).All Stage.Keeps := all_straight <|
      List.forall_mem_cons.2 ⟨archiveReceiptAugment_keeps components,
        List.forall_mem_cons.2 ⟨writeAuditEntryFilter_keeps,
          List.forall_mem_singleton.2 markProcessedFilter_keeps⟩⟩
    exact ⟨hterminal, hescalate, harchive, trivial⟩

end Tier1

namespace Tier2

open Spork.Tier2 (fetchContextAugment buildVerdictRequestFilter callLLMAugment
  recordLLMUsageFilter validateVerdictFilter confidenceBandSelector budgetGateSelector
  createDraftIfWantedFilter writeAuditEntryFilter markProcessedFilter)

theorem fetchContextAugment_keeps (provider : ContextProvider) :
    (Stage.of "FetchContextAugment" (fetchContextAugment provider)).Keeps :=
  Stage.of_keeps fun _ => ReturnsOnly.bind_right fun _ => returnsOnly_pure rfl

theorem buildVerdictRequestFilter_keeps (categories : List String) (maxBodyChars : Int) :
    (Stage.of "BuildVerdictRequestFilter"
      (buildVerdictRequestFilter categories maxBodyChars)).Keeps := by
  refine Stage.of_keeps fun payload => ?_
  simp only [buildVerdictRequestFilter, Spork.Stage.run]
  split
  · exact returnsOnly_raise
  · exact ReturnsOnly.bind_right fun _ => returnsOnly_pure rfl

theorem callLLMAugment_keeps (client : LLMClient) :
    (Stage.of "CallLLMAugment" (callLLMAugment client)).Keeps := by
  refine Stage.of_keeps fun payload => ?_
  simp only [callLLMAugment, Spork.Stage.run]
  split
  · exact returnsOnly_raise
  · exact ReturnsOnly.bind_right fun _ => returnsOnly_pure rfl

theorem recordLLMUsageFilter_keeps :
    (Stage.of "RecordLLMUsageFilter" recordLLMUsageFilter).Keeps := by
  refine Stage.of_keeps fun payload => ?_
  simp only [recordLLMUsageFilter, Spork.Stage.run]
  split
  · exact returnsOnly_raise
  · exact returnsOnly_raise
  · exact ReturnsOnly.bind_right fun _ => returnsOnly_pure rfl

theorem validateVerdictFilter_keeps (categories : List String) :
    (Stage.of "ValidateVerdictFilter" (validateVerdictFilter categories)).Keeps := by
  refine Stage.of_keeps fun payload => ?_
  simp only [validateVerdictFilter, Spork.Stage.run]
  split
  · exact returnsOnly_raise
  · exact ReturnsOnly.bind_right fun _ => returnsOnly_pure rfl

theorem createDraftIfWantedFilter_keeps (creator : DraftCreator) :
    (Stage.of "CreateDraftIfWantedFilter" (createDraftIfWantedFilter creator)).Keeps := by
  refine Stage.of_keeps fun payload => ?_
  simp only [createDraftIfWantedFilter, Spork.Stage.run]
  split
  · exact returnsOnly_raise
  · split
    · exact returnsOnly_pure rfl
    · exact ReturnsOnly.bind_right fun _ => returnsOnly_pure rfl

theorem writeAuditEntryFilter_keeps :
    (Stage.of "WriteAuditEntryFilter" writeAuditEntryFilter).Keeps := by
  refine Stage.of_keeps fun payload => ?_
  simp only [writeAuditEntryFilter, Spork.Stage.run]
  split
  · exact ReturnsOnly.bind_right fun _ => returnsOnly_pure rfl
  · exact returnsOnly_raise

theorem markProcessedFilter_keeps :
    (Stage.of "MarkProcessedFilter" markProcessedFilter).Keeps := by
  refine Stage.of_keeps fun payload => ?_
  simp only [markProcessedFilter, Spork.Stage.run]
  split
  · exact returnsOnly_raise
  · split
    · exact ReturnsOnly.bind_right fun _ => returnsOnly_pure rfl
    · exact ReturnsOnly.bind_right fun _ => ReturnsOnly.bind_right fun _ => returnsOnly_pure rfl

theorem applyVerdictActionFilter_keeps (executor : ActionExecutor) (ops : PipelineObserver) :
    (applyVerdictActionFilter executor ops).Keeps := by
  intro payload
  simp only [applyVerdictActionFilter, Stage.run]
  split
  · exact missing_keeps _
  · refine lift_bind_keeps fun _ => ?_
    split
    · split
      · exact alert_keeps (missing_alertsAs _) rfl
      · next hid => exact alert_keeps (alert_alertsAs hid ops _ _ _) rfl
    · exact pure_keeps rfl

theorem recordAlertOnlyFilter_keeps (ops : PipelineObserver) :
    (recordAlertOnlyFilter ops).Keeps := by
  intro payload
  simp only [recordAlertOnlyFilter, Stage.run]
  split
  · exact missing_keeps _
  · exact missing_keeps _
  · next hid => exact alert_keeps (alert_alertsAs hid ops _ _ _) rfl

theorem recordBudgetExhaustedFilter_keeps (ops : PipelineObserver) :
    (recordBudgetExhaustedFilter ops).Keeps := by
  intro payload
  simp only [recordBudgetExhaustedFilter, Stage.run]
  split
  · exact missing_keeps _
  · next hid => exact alert_keeps (alert_alertsAs hid ops _ _ _) rfl

theorem confidenceBandSelector_keeps (alertThreshold autoactThreshold : PyFloat) :
    (Selector.of "ConfidenceBandSelector"
      (confidenceBandSelector alertThreshold autoactThreshold)).Keeps := by
  refine Selector.of_keeps fun payload => ?_
  simp only [confidenceBandSelector]
  split
  · exact returnsOnly_raise
  · exact ReturnsOnly.bind_right fun _ => returnsOnly_pure rfl

theorem budgetGateSelector_keeps (budget : Int) :
    (Selector.of "BudgetGateSelector" (budgetGateSelector budget)).Keeps := by
  refine Selector.of_keeps fun payload => ?_
  simp only [budgetGateSelector]
  split
  · exact returnsOnly_raise
  · refine ReturnsOnly.bind_right fun usage => ?_
    split <;> exact returnsOnly_pure rfl

/-- The routes behind the budget gate. -/
def routes (deps : Tier2Deps) : List (String × Pipeline Tier2Meta) :=
  [("budget_ok", budgetOk deps), ("budget_exhausted", budgetExhausted deps)]

theorem routes_keep (deps : Tier2Deps) : AllRoutes Stage.Keeps (routes deps) := by
  have hend := List.forall_mem_cons.2 ⟨createDraftIfWantedFilter_keeps deps.draftCreator,
    List.forall_mem_cons.2 ⟨writeAuditEntryFilter_keeps,
      List.forall_mem_singleton.2 markProcessedFilter_keeps⟩⟩
  have hact : (act deps).All Stage.Keeps := all_straight <|
    List.forall_mem_cons.2 ⟨applyVerdictActionFilter_keeps deps.executor deps.ops, hend⟩
  have halert : (alertOnly deps).All Stage.Keeps := all_straight <|
    List.forall_mem_cons.2 ⟨recordAlertOnlyFilter_keeps deps.ops, hend⟩
  have hask : (budgetOk deps).All Stage.Keeps := by
    refine ⟨List.forall_mem_cons.2 ⟨fetchContextAugment_keeps _,
      List.forall_mem_cons.2 ⟨buildVerdictRequestFilter_keeps _ _,
        List.forall_mem_cons.2 ⟨callLLMAugment_keeps _,
          List.forall_mem_cons.2 ⟨recordLLMUsageFilter_keeps,
            List.forall_mem_singleton.2 (validateVerdictFilter_keeps _)⟩⟩⟩⟩, ?_,
      hact, hact, halert, trivial⟩
    rintro _ ⟨⟩
    exact confidenceBandSelector_keeps _ _
  have hskip : (budgetExhausted deps).All Stage.Keeps := all_straight <|
    List.forall_mem_cons.2 ⟨recordBudgetExhaustedFilter_keeps deps.ops,
      List.forall_mem_cons.2 ⟨writeAuditEntryFilter_keeps,
        List.forall_mem_singleton.2 markProcessedFilter_keeps⟩⟩
  exact ⟨hask, hskip, trivial⟩

end Tier2

/-! ## The log shows the way -/

section Log

mutual

theorem Pipeline.All.mono {M : Type} [Correlated M] {P Q : Stage M → Prop}
    (hPQ : ∀ stage, P stage → Q stage) : ∀ {pipeline : Pipeline M}, pipeline.All P → pipeline.All Q
  | .mk _ _ _, h => ⟨fun stage hs => hPQ stage (h.1 stage hs), h.2.1, AllRoutes.mono hPQ h.2.2⟩

theorem AllRoutes.mono {M : Type} [Correlated M] {P Q : Stage M → Prop}
    (hPQ : ∀ stage, P stage → Q stage) :
    ∀ {routes : List (String × Pipeline M)}, AllRoutes P routes → AllRoutes Q routes
  | [], _ => trivial
  | (_, _) :: _, h => ⟨Pipeline.All.mono hPQ h.1, AllRoutes.mono hPQ h.2⟩

end

theorem process_quiet (deps : Tier1Deps) : (Tier1.process deps).All Stage.Quiet := by
  refine ⟨List.forall_mem_cons.2 ⟨Stage.of_quiet, List.forall_mem_singleton.2 Stage.of_quiet⟩, ?_,
    AllRoutes.mono (fun _ => Stage.Keeps.quiet) (Tier1.routes_keep deps)⟩
  rintro _ ⟨⟩
  exact Tier1.ruleEvaluationSelector_keeps

theorem buildDefaultPipeline_quiet (deps : Tier1Deps) (force : Bool) :
    (buildDefaultPipeline deps force).All Stage.Quiet := by
  cases force with
  | true => exact process_quiet deps
  | false =>
    refine ⟨nofun, ?_, ⟨nofun, nofun, trivial⟩, process_quiet deps, trivial⟩
    rintro _ ⟨⟩
    exact Tier1.idempotencyGateSelector_keeps

theorem buildTier2Pipeline_quiet (deps : Tier2Deps) :
    (buildTier2Pipeline deps).All Stage.Quiet := by
  refine ⟨List.forall_mem_cons.2 ⟨Stage.of_quiet, List.forall_mem_singleton.2 Stage.of_quiet⟩, ?_,
    AllRoutes.mono (fun _ => Stage.Keeps.quiet) (Tier2.routes_keep deps)⟩
  rintro _ ⟨⟩
  exact Tier2.budgetGateSelector_keeps _

variable {W : Type} {M : Machine sig W} {w w' : W} {log log' : List TraceRecord}

/-- A program that only reads something off at its end. -/
theorem reaches_then_pure {α β : Type} {p : TProc α} {f : α → β} {c : TProc β}
    (hr : Reaches (M.noting TraceRecord) (p >>= fun a => pure (f a)) (w, log) c (w', log')) :
    ∃ q, Reaches (M.noting TraceRecord) p (w, log) q (w', log') ∧
      ∀ r, c = .done (S := sig.noting TraceRecord) r →
        ∃ r', q = .done (S := sig.noting TraceRecord) r' ∧ r = r'.map f := by
  rcases hr.bind_cases with ⟨q, hq, rfl, hne⟩ | ⟨a, x, hdone, hrest⟩
  · refine ⟨q, hq, fun r hr => ?_⟩
    cases q with
    | call op k => cases hr
    | done r' =>
      cases r' with
      | ok a => exact absurd rfl (hne a)
      | error e =>
        cases hr
        exact ⟨.error e, rfl, rfl⟩
  · rcases Relation.ReflTransGen.cases_head hrest with heq | ⟨y, hs, -⟩
    · cases heq
      refine ⟨_, hdone, fun r hr => ?_⟩
      cases hr
      exact ⟨.ok a, rfl, rfl⟩
    · cases hs

/-- **The log shows the way.**  Wherever a run stands, the records of its modules are those that
have returned on the way there, one after another: what is behind the last of them is still at work
or has raised, or the run is over, with the outcome that `processMessage` has. -/
theorem log_shows_the_way :
    (∀ (deps : Tier1Deps) (force : Bool) (message : NormalizedMessage) (rules : List Rule)
      (p : TProc (Option RuleVerdict)),
      Reaches (M.noting TraceRecord) (processMessage deps force message rules) (w, log)
        p (w', log') →
      ∃ new ended, log' = log ++ new ∧
        (buildDefaultPipeline deps force).Stands M (startPayload deps message rules) w (steps new)
          ended w' ∧
        ∀ r, p = .done (S := sig.noting TraceRecord) r →
          ∃ r', ended = some r' ∧ r = r'.map fun payload => payload.metaData.verdict) ∧
    ∀ (deps : Tier2Deps) (input : Tier2Input) (p : TProc (Option Verdict)),
      Reaches (M.noting TraceRecord) (processTier2Message deps input) (w, log) p (w', log') →
      ∃ new ended, log' = log ++ new ∧
        (buildTier2Pipeline deps).Stands M
          { text := input.message.bodyText, metaData := input.toMeta } w (steps new) ended w' ∧
        ∀ r, p = .done (S := sig.noting TraceRecord) r →
          ∃ r', ended = some r' ∧ r = r'.map fun payload => payload.metaData.verdict := by
  constructor
  · intro deps force message rules p hr
    obtain ⟨q, hq, hout⟩ := reaches_then_pure hr
    obtain ⟨new, ended, hnew, hstands, hend⟩ :=
      Pipeline.run_stands (buildDefaultPipeline_quiet deps force) hq
    refine ⟨new, ended, hnew, hstands, fun r hp => ?_⟩
    obtain ⟨r', hdone, hmap⟩ := hout r hp
    exact ⟨r', hend r' hdone, hmap⟩
  · intro deps input p hr
    obtain ⟨q, hq, hout⟩ := reaches_then_pure hr
    obtain ⟨new, ended, hnew, hstands, hend⟩ :=
      Pipeline.run_stands (buildTier2Pipeline_quiet deps) hq
    refine ⟨new, ended, hnew, hstands, fun r hp => ?_⟩
    obtain ⟨r', hdone, hmap⟩ := hout r hp
    exact ⟨r', hend r' hdone, hmap⟩

end Log

/-! ## One id -/

section Ids

/-- A record under an id; a module's record shows an empty one as a dash. -/
def TraceRecord.Tagged (id : String) (r : TraceRecord) : Prop :=
  r.correlationId = if r.isStep then shown id else id

/-- `lead` records under a dash, and all others under one id. -/
def Tags (lead : Nat) (log : List TraceRecord) : Prop :=
  (∀ r ∈ log.take lead, r.correlationId = "-") ∧ ∃ id, ∀ r ∈ log.drop lead, r.Tagged id

theorem tags_nil (lead : Nat) : Tags lead [] := by
  rw [Tags, List.take_nil, List.drop_nil]
  exact ⟨nofun, "", nofun⟩

theorem tags_cons {lead : Nat} {r : TraceRecord} {log : List TraceRecord}
    (hr : r.correlationId = "-") (h : Tags lead log) : Tags (lead + 1) (r :: log) := by
  rw [Tags, List.take_succ_cons, List.drop_succ_cons]
  exact ⟨List.forall_mem_cons.2 ⟨hr, h.1⟩, h.2⟩

section Modules

variable {M : Type} [Correlated M] {payload : Payload M} {id : String}

theorem tagged_of_alertsAs {log : List TraceRecord} (h : AlertsAs payload log)
    (hid : cid payload = some id) : ∀ r ∈ log, r.Tagged id := by
  intro r hr
  obtain ⟨hcid, body, urgency, hfields⟩ := h r hr
  have hstep : r.isStep = false := by rw [TraceRecord.isStep, hfields]
  rw [TraceRecord.Tagged, hstep, if_neg Bool.false_ne_true]
  exact Option.some.inj (hcid.symm.trans hid)

/-- Without an id there are no alerts. -/
theorem alertsAs_none {log : List TraceRecord} (h : AlertsAs payload log)
    (hid : cid payload = none) : log = [] := by
  rw [List.eq_nil_iff_forall_not_mem]
  intro r hr
  have hcid := (h r hr).1
  rw [hid] at hcid
  cases hcid

theorem correlationIdOf_some (hid : cid payload = some id) :
    correlationIdOf payload.metaData = shown id := by
  rw [correlationIdOf, show Correlated.correlationId payload.metaData = some id from hid]

theorem tagged_stage (hid : cid payload = some id) (event kind : String) :
    TraceRecord.Tagged id ⟨correlationIdOf payload.metaData, event, .stage kind⟩ :=
  correlationIdOf_some hid

theorem tagged_selector (hid : cid payload = some id) (event branch : String) :
    TraceRecord.Tagged id ⟨correlationIdOf payload.metaData, event, .selector branch⟩ :=
  correlationIdOf_some hid

theorem correlationIdOf_none (hid : cid payload = none) :
    correlationIdOf payload.metaData = "-" := by
  rw [correlationIdOf, show Correlated.correlationId payload.metaData = none from hid]

theorem tracingStage_tagged {stage : Stage M} (h : stage.Keeps) (hid : cid payload = some id) :
    (tracingStage stage payload).Notes (fun log => ∀ r ∈ log, r.Tagged id)
      fun r log => (∀ r ∈ log, r.Tagged id) ∧ ∀ p, r = .ok p → cid p = some id := by
  refine (h payload).bind_note (fun log hlog => tagged_of_alertsAs hlog hid)
    (fun e log hlog => ⟨tagged_of_alertsAs hlog.1 hid, nofun⟩) fun p log hlog hp => ?_
  have hall := List.forall_mem_append.2 ⟨tagged_of_alertsAs hlog hid,
    List.forall_mem_singleton.2 (tagged_stage hid (stage.name ++ " ran") stage.kind)⟩
  refine ⟨hall, hall, ?_⟩
  rintro _ ⟨⟩
  exact (hp.2 p rfl).trans hid

theorem tracingSelector_tagged {selector : Selector M} (h : selector.Keeps)
    (hid : cid payload = some id) :
    (tracingSelector selector payload).Notes (fun log => ∀ r ∈ log, r.Tagged id)
      fun r log => (∀ r ∈ log, r.Tagged id) ∧ ∀ p, r = .ok p → cid p.2 = some id := by
  refine (h payload).bind_note (fun log hlog => ?_) (fun e log hlog => ⟨?_, nofun⟩)
    fun p log hlog hp => ?_
  · rw [hlog]
    exact nofun
  · rw [hlog.1]
    exact nofun
  · rw [hlog, List.nil_append]
    have hone := List.forall_mem_singleton.2
      (tagged_selector hid (selector.name ++ " selected") p.1)
    refine ⟨hone, hone, ?_⟩
    rintro _ ⟨⟩
    exact (hp.2 p rfl).trans hid

/-- Two notes in a row: what holds of both holds of all. -/
theorem Notes.bind_forall {α β : Type} {P : TraceRecord → Prop} {K : α → Prop} {K' : β → Prop}
    {p : TProc α} {f : α → TProc β}
    (h : p.Notes (fun log => ∀ r ∈ log, P r) fun r log =>
      (∀ r ∈ log, P r) ∧ ∀ a, r = .ok a → K a)
    (hf : ∀ a, K a → (f a).Notes (fun log => ∀ r ∈ log, P r) fun r log =>
      (∀ r ∈ log, P r) ∧ ∀ b, r = .ok b → K' b) :
    (p >>= f).Notes (fun log => ∀ r ∈ log, P r) fun r log =>
      (∀ r ∈ log, P r) ∧ ∀ b, r = .ok b → K' b := by
  refine h.bind (fun _ => id) (fun e log hlog => ⟨hlog.1, nofun⟩) fun a log hlog ha => ?_
  refine (hf a (ha.2 a rfl)).mono (fun log' hlog' => ?_) fun r log' hlog' => ⟨?_, hlog'.2⟩
  · exact List.forall_mem_append.2 ⟨hlog, hlog'⟩
  · exact List.forall_mem_append.2 ⟨hlog, hlog'.1⟩

theorem runStages_tagged : ∀ {stages : List (Stage M)}, (∀ stage ∈ stages, stage.Keeps) →
    ∀ {payload : Payload M}, cid payload = some id →
      (runStages stages payload).Notes (fun log => ∀ r ∈ log, r.Tagged id)
        fun r log => (∀ r ∈ log, r.Tagged id) ∧ ∀ p, r = .ok p → cid p = some id
  | [], _, payload, hid => by
    refine ⟨nofun, nofun, ?_⟩
    rintro _ ⟨⟩
    exact hid
  | stage :: stages, h, payload, hid =>
    Notes.bind_forall (tracingStage_tagged (h stage List.mem_cons_self) hid) fun _ hp =>
      runStages_tagged (fun s hs => h s (List.mem_cons_of_mem _ hs)) hp

mutual

theorem Pipeline.run_tagged : ∀ {pipeline : Pipeline M}, pipeline.All Stage.Keeps →
    ∀ {payload : Payload M}, cid payload = some id →
      (pipeline.run payload).Notes (fun log => ∀ r ∈ log, r.Tagged id)
        fun r log => (∀ r ∈ log, r.Tagged id) ∧ ∀ p, r = .ok p → cid p = some id
  | .mk stages none routes, h, payload, hid => by
    rw [Pipeline.run, bind_pure]
    exact runStages_tagged h.1 hid
  | .mk stages (some selector) routes, h, payload, hid => by
    rw [Pipeline.run]
    exact Notes.bind_forall (runStages_tagged h.1 hid) fun p hp =>
      Notes.bind_forall (tracingSelector_tagged (h.2.1 selector rfl) hp) fun routed hrouted =>
        runRoute_tagged h.2.2 _ _ hrouted

theorem runRoute_tagged : ∀ {routes : List (String × Pipeline M)}, AllRoutes Stage.Keeps routes →
    ∀ known branch {payload : Payload M}, cid payload = some id →
      (runRoute routes known branch payload).Notes (fun log => ∀ r ∈ log, r.Tagged id)
        fun r log => (∀ r ∈ log, r.Tagged id) ∧ ∀ p, r = .ok p → cid p = some id
  | [], _, known, branch, payload, hid => by
    rw [runRoute]
    exact ⟨nofun, nofun, nofun⟩
  | (name, pipeline) :: routes, h, known, branch, payload, hid => by
    rw [runRoute]
    split
    · exact Pipeline.run_tagged h.1 hid
    · exact runRoute_tagged h.2 known branch hid

end

/-- One record under a dash. -/
def Dash (log : List TraceRecord) : Prop := ∃ r : TraceRecord, r.correlationId = "-" ∧ log = [r]

/-- A dash in front of a log. -/
theorem Dash.tags {l log : List TraceRecord} {lead : Nat} (hl : Dash l) (h : Tags lead log) :
    Tags (lead + 1) (l ++ log) := by
  obtain ⟨r, hr, rfl⟩ := hl
  exact tags_cons hr h

/-- At most one record, under a dash. -/
def Dashed (log : List TraceRecord) : Prop := log = [] ∨ Dash log

theorem Dashed.tags {log : List TraceRecord} (h : Dashed log) (lead : Nat) :
    Tags (lead + 1) log := by
  rcases h with rfl | hdash
  · exact tags_nil _
  · have htags := hdash.tags (tags_nil lead)
    rwa [List.append_nil] at htags

/-- One record under a dash, and then the rest. -/
theorem Notes.dash_bind {α β : Type} {K : α → Prop} {p : TProc α} {f : α → TProc β} {lead : Nat}
    (h : p.Notes Dashed fun r log => Dashed log ∧ ∀ a, r = .ok a → Dash log ∧ K a)
    (hf : ∀ a, K a → (f a).Notes (Tags lead) fun _ => Tags lead) :
    (p >>= f).Notes (Tags (lead + 1)) fun _ => Tags (lead + 1) := by
  refine h.bind (fun log hlog => hlog.tags lead) (fun e log hlog => hlog.1.tags lead)
    fun a log _ ha => ?_
  obtain ⟨hdash, hK⟩ := ha.2 a rfl
  exact (hf a hK).mono (fun _ => hdash.tags) fun _ _ => hdash.tags

/-- A stage, before there is an id. -/
theorem tracingStage_dashed {stage : Stage M} {K : Payload M → Prop}
    (h : (stage.run payload).Notes (AlertsAs payload) fun r log =>
      AlertsAs payload log ∧ ∀ p, r = .ok p → K p) (hid : cid payload = none) :
    (tracingStage stage payload).Notes Dashed fun r log =>
      Dashed log ∧ ∀ p, r = .ok p → Dash log ∧ K p := by
  refine h.bind_note (fun log hlog => .inl (alertsAs_none hlog hid))
    (fun e log hlog => ⟨.inl (alertsAs_none hlog.1 hid), nofun⟩) fun p log hlog hp => ?_
  have hdash : Dash [⟨correlationIdOf payload.metaData, stage.name ++ " ran",
      .stage stage.kind⟩] := ⟨_, correlationIdOf_none hid, rfl⟩
  rw [alertsAs_none hlog hid, List.nil_append]
  refine ⟨.inr hdash, .inr hdash, ?_⟩
  rintro _ ⟨⟩
  exact ⟨hdash, hp.2 p rfl⟩

/-- A selector, before there is an id. -/
theorem tracingSelector_dashed {selector : Selector M} (h : selector.Keeps)
    (hid : cid payload = none) :
    (tracingSelector selector payload).Notes Dashed fun r log =>
      Dashed log ∧ ∀ p, r = .ok p → Dash log ∧ cid p.2 = none := by
  refine (h payload).bind_note (fun log hlog => .inl hlog)
    (fun e log hlog => ⟨.inl hlog.1, nofun⟩) fun p log hlog hp => ?_
  have hdash : Dash [⟨correlationIdOf payload.metaData, selector.name ++ " selected",
      .selector p.1⟩] := ⟨_, correlationIdOf_none hid, rfl⟩
  rw [hlog, List.nil_append]
  refine ⟨.inr hdash, .inr hdash, ?_⟩
  rintro _ ⟨⟩
  exact ⟨hdash, (hp.2 p rfl).trans hid⟩

/-- A stage that draws the id. -/
def Stage.Draws (stage : Stage M) : Prop :=
  ∀ payload, (stage.run payload).Notes (AlertsAs payload) fun r log =>
    AlertsAs payload log ∧ ∀ p, r = .ok p → ∃ id, cid p = some id

theorem tags_of_tagged {log : List TraceRecord} (h : ∀ r ∈ log, r.Tagged id) : Tags 0 log :=
  ⟨nofun, id, h⟩

/-- A pipeline whose second stage draws the id: two records under a dash, all others under the
id. -/
theorem run_tags {first second : Stage M} {selector : Selector M}
    {routes : List (String × Pipeline M)} (hfirst : first.Keeps) (hsecond : second.Draws)
    (hselector : selector.Keeps) (hroutes : AllRoutes Stage.Keeps routes)
    (hid : cid payload = none) :
    ((Pipeline.mk [first, second] (some selector) routes).run payload).Notes (Tags 2)
      fun _ => Tags 2 := by
  rw [Pipeline.run, runStages, bind_assoc]
  have hdashed : (tracingStage first payload).Notes Dashed fun r log =>
      Dashed log ∧ ∀ p, r = .ok p → Dash log ∧ cid p = none := by
    refine (tracingStage_dashed (hfirst payload) hid).mono (fun _ => id) fun r log hlog =>
      ⟨hlog.1, fun p hp => ?_⟩
    exact ⟨(hlog.2 p hp).1, (hlog.2 p hp).2.trans hid⟩
  refine Notes.dash_bind hdashed fun p hp => ?_
  rw [runStages, bind_assoc]
  refine Notes.dash_bind (tracingStage_dashed (hsecond p) hp) fun q ⟨id, hq⟩ => ?_
  rw [runStages, pure_bind]
  refine (Notes.bind_forall (tracingSelector_tagged hselector hq) fun routed hrouted =>
    runRoute_tagged hroutes _ _ hrouted).mono (fun _ => tags_of_tagged) fun r log hlog =>
      tags_of_tagged hlog.1

end Modules

theorem timestampFilter_keeps :
    (Stage.of "TimestampFilter" Spork.Tier1.timestampFilter).Keeps :=
  Stage.of_keeps fun _ => ReturnsOnly.bind_right fun _ => returnsOnly_pure rfl

theorem tier2_timestampFilter_keeps :
    (Stage.of "TimestampFilter" Spork.Tier2.timestampFilter).Keeps :=
  Stage.of_keeps fun _ => ReturnsOnly.bind_right fun _ => returnsOnly_pure rfl

theorem correlationIdFilter_draws :
    (Stage.of "CorrelationIdFilter" Spork.Tier1.correlationIdFilter).Draws := fun _ =>
  notes_lift_alertsAs (ReturnsOnly.bind_right fun id => returnsOnly_pure ⟨id, rfl⟩)

theorem tier2_correlationIdFilter_draws :
    (Stage.of "CorrelationIdFilter" Spork.Tier2.correlationIdFilter).Draws := fun _ =>
  notes_lift_alertsAs (ReturnsOnly.bind_right fun id => returnsOnly_pure ⟨id, rfl⟩)

theorem process_tags (deps : Tier1Deps) {payload : Payload MessageMeta}
    (hid : cid payload = none) :
    ((Tier1.process deps).run payload).Notes (Tags 2) fun _ => Tags 2 :=
  run_tags timestampFilter_keeps correlationIdFilter_draws Tier1.ruleEvaluationSelector_keeps
    (Tier1.routes_keep deps) hid

/-- The gate writes a record of its own before the id is drawn. -/
theorem buildDefaultPipeline_tags (deps : Tier1Deps) (force : Bool) {payload : Payload MessageMeta}
    (hid : cid payload = none) :
    ((buildDefaultPipeline deps force).run payload).Notes (Tags (if force then 2 else 3))
      fun _ => Tags (if force then 2 else 3) := by
  cases force with
  | true => exact process_tags deps hid
  | false =>
    rw [buildDefaultPipeline, if_neg Bool.false_ne_true, if_neg Bool.false_ne_true, Pipeline.run,
      runStages, pure_bind]
    refine Notes.dash_bind (tracingSelector_dashed Tier1.idempotencyGateSelector_keeps hid)
      fun routed hrouted => ?_
    have hraise : ∀ e, (Prog.raise e : TProc (Payload MessageMeta)).Notes (Tags 2)
        fun _ => Tags 2 := fun e => ⟨tags_nil 2, tags_nil 2⟩
    simp only [runRoute]
    split
    · exact ⟨tags_nil 2, tags_nil 2⟩
    · split
      · exact process_tags deps hrouted
      · exact hraise _

theorem Notes.then_pure_tags {α β : Type} {p : TProc α} {f : α → β} {lead : Nat}
    (h : p.Notes (Tags lead) fun _ => Tags lead) :
    (p >>= fun a => pure (f a)).Notes (Tags lead) fun _ => Tags lead := by
  refine h.bind (fun _ => id) (fun _ _ => id) fun a log hlog _ => ?_
  have hend : Tags lead (log ++ []) := by rwa [List.append_nil]
  exact ⟨hend, hend⟩

variable {W : Type} {M : Machine sig W} {w w' : W} {log log' : List TraceRecord}

/-- **The log has one correlation id.**  Wherever a run stands, all records of the message carry
one and the same id, but for the two or three before there is one, which carry a dash. -/
theorem log_has_one_correlation_id :
    (∀ (deps : Tier1Deps) (force : Bool) (message : NormalizedMessage) (rules : List Rule)
      (p : TProc (Option RuleVerdict)),
      Reaches (M.noting TraceRecord) (processMessage deps force message rules) (w, log)
        p (w', log') →
      ∃ new, log' = log ++ new ∧ Tags (if force then 2 else 3) new) ∧
    ∀ (deps : Tier2Deps) (input : Tier2Input) (p : TProc (Option Verdict)),
      Reaches (M.noting TraceRecord) (processTier2Message deps input) (w, log) p (w', log') →
      ∃ new, log' = log ++ new ∧ Tags 2 new := by
  constructor
  · intro deps force message rules p hr
    have hid : cid (startPayload deps message rules) = none := rfl
    obtain ⟨new, hnew, htags, -⟩ :=
      notes_reaches (Notes.then_pure_tags (buildDefaultPipeline_tags deps force hid)) hr
    exact ⟨new, hnew, htags⟩
  · intro deps input p hr
    let payload : Payload Tier2Meta := { text := input.message.bodyText, metaData := input.toMeta }
    have hid : cid payload = none := rfl
    have hnotes := run_tags tier2_timestampFilter_keeps tier2_correlationIdFilter_draws
      (Tier2.budgetGateSelector_keeps deps.tiering.dailyCallBudget) (Tier2.routes_keep deps) hid
    obtain ⟨new, hnew, htags, -⟩ := notes_reaches (Notes.then_pure_tags hnotes) hr
    exact ⟨new, hnew, htags⟩

end Ids

/-! ## A quiet day -/

/-- On a quiet day `letter` goes all the way through Tier 1. -/
theorem exists_quiet_run : ∃ (log : List TraceRecord) (verdict : Option RuleVerdict),
    Reaches ((machine anything).noting TraceRecord) (processMessage oneCall.tier1 false letter [])
      (⟨.empty, []⟩, []) (.done (S := sig.noting TraceRecord) (.ok verdict))
      ((Env.quiet.eval (Spork.processMessage oneCall.tier1 false letter []) ⟨.empty, []⟩).2,
        log) := by
  have hok : (Env.quiet.eval (Spork.processMessage oneCall.tier1 false letter [])
      ⟨.empty, []⟩).1.isOk = true := by decide +kernel
  obtain ⟨verdict, hr⟩ := Env.quiet_returns hok
  have herases := processMessage_erases oneCall.tier1 false letter []
  obtain ⟨log, hreaches⟩ := (erases_finishes_iff herases []).2 hr
  exact ⟨log, verdict, hreaches⟩

/-- On a quiet day the log of `letter` leads to the end of the pipeline. -/
theorem log_shows_the_way_quiet : ∃ (log : List TraceRecord) (payload : Payload MessageMeta)
    (w : World), (buildDefaultPipeline oneCall.tier1 false).Stands (machine anything)
      (startPayload oneCall.tier1 letter []) ⟨.empty, []⟩ (steps log) (some (.ok payload)) w := by
  obtain ⟨log, verdict, hr⟩ := exists_quiet_run
  obtain ⟨new, ended, -, hstands, hend⟩ := log_shows_the_way.1 _ _ _ _ _ hr
  obtain ⟨r, rfl, hmap⟩ := hend _ rfl
  cases r with
  | error e => cases hmap
  | ok payload => exact ⟨new, payload, _, hstands⟩

/-- On a quiet day the log of `letter` has one correlation id behind its gate. -/
theorem log_has_one_correlation_id_quiet : ∃ (log : List TraceRecord) (p : TProc _)
    (w : World), Reaches ((machine anything).noting TraceRecord)
      (processMessage oneCall.tier1 false letter []) (⟨.empty, []⟩, []) p (w, log) ∧
      Tags 3 log := by
  obtain ⟨log, verdict, hr⟩ := exists_quiet_run
  obtain ⟨new, hlog, htags⟩ := log_has_one_correlation_id.1 _ _ _ _ _ hr
  rw [List.nil_append] at hlog
  subst hlog
  exact ⟨_, _, _, hr, htags⟩

end Traced

end Spork
