import Spork.World

/-!
# Evaluation

`machine A` says what may happen.  Here the collaborators are functions (`Env`): the store never
fails, and every other call is answered by `env`, which may look at everything that has happened so
far.  A program then has one outcome, `Env.eval`, and an evaluation is one of the runs of the
machine (`Env.reaches`).

`Env.Does` is how a table of effects is read off a program: from `w` it returns `a`, leaves `w'`,
and has made exactly the calls `es` in between.
-/

set_option autoImplicit false

namespace Spork

open Effects

/-- How the collaborators answer. -/
abbrev Env : Type := World → (op : Op) → Except Exn op.Ret

/-- One call in the world of `env`. -/
def Env.answer (env : Env) (w : World) (op : Op) : Except Exn op.Ret × World :=
  match op.onDb with
  | some g =>
    match g w.db with
    | .ok (a, db') => (.ok a, w.record op (.ok a) db')
    | .error e => (.error e, w.record op (.error e) w.db)
  | none => (env w op, w.record op (env w op) w.db)

/-- Run a program to its end in the world of `env`. -/
def Env.eval (env : Env) {α : Type} (p : Proc α) (w : World) : Except Exn α × World :=
  p.eval env.answer w

/-- An answered call is one more event. -/
theorem Env.trace_answer (env : Env) (w : World) (op : Op) :
    (env.answer w op).2.trace = w.trace ++ [⟨op, (env.answer w op).1⟩] := by
  rw [answer]
  cases op.onDb with
  | none => rfl
  | some g =>
    dsimp only
    cases g w.db <;> rfl

/-- Where `env` does not raise, only a count that the store rejects can make a call raise. -/
theorem Env.answer_isOk {env : Env} {w : World} {op : Op} (henv : (env w op).isOk = true)
    (hop : ∀ date i o, op = .recordLlmCall date i o → (⟨i, o⟩ : LLMCallUsage).Recordable) :
    (env.answer w op).1.isOk = true := by
  cases op with
  | recordLlmCall date i o =>
    obtain ⟨db', hdb'⟩ := StateDB.recordLlmCall_ok w.db date (hop date i o rfl)
    simp [answer, Op.onDb, hdb', Except.map, Except.isOk, Except.toBool]
  | getCursor | setCursor | hasProcessed | markProcessed | writeAuditEntry | getLlmUsage
  | getKnownSender | learnKnownSender => rfl
  | _ => exact henv

/-- `env` raises only what a call may raise. -/
def Env.Lawful (env : Env) : Prop := ∀ w op e, env w op = .error e → op.MayRaise w.db e

/-- What `env` answers is one of the ways in which a call may come back. -/
theorem Env.responds {env : Env} {A : Allowed} (hlaw : env.Lawful) {w : World} {op : Op}
    (h : A op (env.answer w op).1) :
    Responds A w op (env.answer w op).1 (env.answer w op).2 := by
  rw [answer] at h ⊢
  cases hop : op.onDb with
  | none =>
    simp only [hop] at h ⊢
    cases henv : env w op with
    | ok a => exact .answers (henv ▸ h) ((gives_external hop).2 rfl)
    | error e => exact .raises (henv ▸ h) (hlaw w op e henv)
  | some g =>
    simp only [hop] at h ⊢
    cases hg : g w.db with
    | ok p =>
      rw [hg] at h
      exact .answers h (by simp [Op.Gives, hop, hg])
    | error e =>
      rw [hg] at h
      refine .raises h ?_
      cases op <;> simp only [Op.onDb, Option.some_inj, reduceCtorEq] at hop <;> subst hop <;>
        try cases hg
      rename_i date i o
      refine .inr ?_
      cases hr : w.db.recordLlmCall date i o with
      | ok db' => simp [hr, Except.map] at hg
      | error e' => simpa [hr, Except.map] using hg

/-- Every call of an evaluation is answered in a way that `A` allows. -/
def Env.Fits (env : Env) (A : Allowed) {α : Type} : Proc α → World → Prop
  | .done _, _ => True
  | .call op k, w =>
    A op (env.answer w op).1 ∧ env.Fits A (k (env.answer w op).1) (env.answer w op).2

theorem Env.Fits.reaches {env : Env} {A : Allowed} (hlaw : env.Lawful) {α : Type} :
    ∀ {p : Proc α} {w : World}, env.Fits A p w →
      (machine A).Reaches p w (.done (env.eval p w).1) (env.eval p w).2
  | .done _, _, _ => .refl
  | .call _ _, _, h => .head (.call (env.responds hlaw h.1)) (h.2.reaches hlaw)

theorem Env.fits_of_only {env : Env} {A : Allowed} {C : Op → Prop}
    (hA : ∀ w op, C op → A op (env.answer w op).1) {α : Type} :
    ∀ {p : Proc α} {w : World}, p.Only C → env.Fits A p w
  | .done _, _, _ => trivial
  | .call op _, w, h => ⟨hA w op h.1, fits_of_only hA (h.2 _)⟩

/-- An evaluation is a complete run. -/
theorem Env.reaches {env : Env} {A : Allowed} (hlaw : env.Lawful)
    (hA : ∀ w op, A op (env.answer w op).1) {α : Type} (p : Proc α) (w : World) :
    (machine A).Reaches p w (.done (env.eval p w).1) (env.eval p w).2 :=
  Prog.eval_reaches (fun w op => env.responds hlaw (hA w op)) p w

/-! ## What a program does -/

/-- Whether a call is one of the HTML parser.  What comes of it is in the text. -/
def Op.parsesHtml : Op → Bool
  | .feedHtml _ => true
  | _ => false

/-- No collaborator raises. -/
def Env.NeverRaises (env : Env) : Prop :=
  ∀ w (op : Op), op.parsesHtml = false → ∃ a, env w op = .ok a

/-- From `w`, the program returns `a`, leaves `w'`, and has added the events `es`. -/
structure Env.Does (env : Env) {α : Type} (p : Proc α) (w : World) (a : α) (w' : World)
    (es : List Event) : Prop where
  eval : env.eval p w = (.ok a, w')
  trace : w'.trace = w.trace ++ es

section Does

variable {env : Env} {α β : Type} {w w₁ w₂ : World}

theorem Env.eval_andThen (p : Proc α) (f : Except Exn α → Proc β) (w : World) :
    env.eval (p.andThen f) w = env.eval (f (env.eval p w).1) (env.eval p w).2 :=
  Prog.eval_andThen p f w

theorem Env.eval_bind_ok {p : Proc α} {f : α → Proc β} {a : α}
    (h : env.eval p w = (.ok a, w₁)) : env.eval (p >>= f) w = env.eval (f a) w₁ :=
  Prog.eval_bind_ok h

theorem Env.eval_bind_error {p : Proc α} {f : α → Proc β} {e : Exn}
    (h : env.eval p w = (.error e, w₁)) : env.eval (p >>= f) w = (.error e, w₁) :=
  Prog.eval_bind_error h

/-- What nothing that follows returns, the whole does not return. -/
theorem Env.eval_bind_ne {p : Proc α} {f : α → Proc β} {b : β}
    (hf : ∀ a w, (env.eval (f a) w).1 ≠ .ok b) : (env.eval (p >>= f) w).1 ≠ .ok b := by
  cases h : env.eval p w with
  | mk r w₁ =>
    cases r with
    | ok a =>
      rw [eval_bind_ok h]
      exact hf a w₁
    | error e =>
      rw [eval_bind_error h]
      exact fun h => by cases h

theorem Env.does_pure (a : α) : env.Does (pure a) w a w [] := ⟨rfl, (List.append_nil _).symm⟩

theorem Env.Does.bind {p : Proc α} {f : α → Proc β} {a : α} {b : β} {es fs : List Event}
    (hp : env.Does p w a w₁ es) (hf : env.Does (f a) w₁ b w₂ fs) :
    env.Does (p >>= f) w b w₂ (es ++ fs) :=
  ⟨(eval_bind_ok hp.eval).trans hf.eval, by rw [hf.trace, hp.trace, List.append_assoc]⟩

/-- A program whose value is thrown away or repackaged. -/
theorem Env.Does.map {p : Proc α} {f : α → β} {a : α} {es : List Event}
    (hp : env.Does p w a w₁ es) : env.Does (p >>= fun a => pure (f a)) w (f a) w₁ es := by
  have h := hp.bind (f := fun a => pure (f a)) (does_pure (f a))
  rwa [List.append_nil] at h

/-- A program that returns is not caught. -/
theorem Env.Does.tryCatch {p : Proc α} {h : Exn → Proc α} {a : α} {es : List Event}
    (hp : env.Does p w a w₁ es) : env.Does (p.tryCatch h) w a w₁ es := by
  refine ⟨?_, hp.trace⟩
  rw [Prog.tryCatch, eval_andThen, hp.eval]
  rfl

/-- A call to a collaborator. -/
theorem Env.does_external {op : Op} (hop : op.onDb = none) {a : op.Ret} (h : env w op = .ok a) :
    env.Does (call op) w a (w.record op (.ok a) w.db) [⟨op, .ok a⟩] := by
  refine ⟨?_, rfl⟩
  show env.answer w op = _
  simp only [answer, hop, h]

/-- A call to the store. -/
theorem Env.does_store {op : Op} {g : StateDB → Except Exn (op.Ret × StateDB)}
    (hop : op.onDb = some g) {a : op.Ret} {db : StateDB} (h : g w.db = .ok (a, db)) :
    env.Does (call op) w a (w.record op (.ok a) db) [⟨op, .ok a⟩] := by
  refine ⟨?_, rfl⟩
  show env.answer w op = _
  simp only [answer, hop, h]

theorem Env.does_writeAuditEntry (ts id event : String) (detail : Option String) :
    env.Does (call (.writeAuditEntry ts id event detail)) w ()
      (w.record (.writeAuditEntry ts id event detail) (.ok ())
        (w.db.writeAuditEntry ts id event detail))
          [⟨.writeAuditEntry ts id event detail, .ok ()⟩] :=
  does_store rfl rfl

theorem Env.does_markProcessed (id : String) (row : ProcessedRow) :
    env.Does (call (.markProcessed id row)) w ()
      (w.record (.markProcessed id row) (.ok ()) (w.db.markProcessed id row))
      [⟨.markProcessed id row, .ok ()⟩] := does_store rfl rfl

theorem Env.does_getLlmUsage (date : String) :
    env.Does (call (.getLlmUsage date)) w (w.db.getLlmUsage date)
      (w.record (.getLlmUsage date) (.ok (w.db.getLlmUsage date)) w.db)
      [⟨.getLlmUsage date, .ok (w.db.getLlmUsage date)⟩] := does_store rfl rfl

theorem Env.does_hasProcessed (id : String) :
    env.Does (call (.hasProcessed id)) w (w.db.hasProcessed id)
      (w.record (.hasProcessed id) (.ok (w.db.hasProcessed id)) w.db)
      [⟨.hasProcessed id, .ok (w.db.hasProcessed id)⟩] := does_store rfl rfl

theorem Env.does_getKnownSender (fromDomain : String) :
    env.Does (call (.getKnownSender fromDomain)) w (w.db.getKnownSender fromDomain)
      (w.record (.getKnownSender fromDomain) (.ok (w.db.getKnownSender fromDomain)) w.db)
      [⟨.getKnownSender fromDomain, .ok (w.db.getKnownSender fromDomain)⟩] := does_store rfl rfl

theorem Env.does_learnKnownSender (sender : KnownSender) :
    env.Does (call (.learnKnownSender sender)) w ()
      (w.record (.learnKnownSender sender) (.ok ()) (w.db.learnKnownSender sender))
      [⟨.learnKnownSender sender, .ok ()⟩] := does_store rfl rfl

end Does

/-- An evaluation ends with an outcome and in a world that satisfy `Q`. -/
def Env.Ends (env : Env) {α : Type} (p : Proc α) (w : World) (Q : Except Exn α → World → Prop) :
    Prop := Q (env.eval p w).1 (env.eval p w).2

section Ends

variable {env : Env} {α β : Type} {p : Proc α} {w : World} {R : Except Exn α → World → Prop}

theorem Env.Ends.mono {Q : Except Exn α → World → Prop} (hp : env.Ends p w R)
    (h : ∀ r w', R r w' → Q r w') : env.Ends p w Q := h _ _ hp

theorem Env.Ends.bind {f : α → Proc β} {Q : Except Exn β → World → Prop} (hp : env.Ends p w R)
    (hok : ∀ a w', R (.ok a) w' → env.Ends (f a) w' Q)
    (herr : ∀ e w', R (.error e) w' → Q (.error e) w') : env.Ends (p >>= f) w Q := by
  cases h : env.eval p w with
  | mk r w' =>
    rw [Ends, h] at hp
    cases r with
    | ok a =>
      rw [Ends, eval_bind_ok h]
      exact hok a w' hp
    | error e =>
      rw [Ends, eval_bind_error h]
      exact herr e w' hp

theorem Env.Ends.tryCatch {h : Exn → Proc α} {Q : Except Exn α → World → Prop}
    (hp : env.Ends p w R) (hok : ∀ a w', R (.ok a) w' → Q (.ok a) w')
    (herr : ∀ e w', R (.error e) w' → env.Ends (h e) w' Q) : env.Ends (p.tryCatch h) w Q := by
  rw [Ends, Prog.tryCatch, eval_andThen]
  cases heval : env.eval p w with
  | mk r w' =>
    rw [Ends, heval] at hp
    cases r with
    | ok a => exact hok a w' hp
    | error e => exact herr e w' hp

/-- One call that comes back with a value, and the rest. -/
theorem Env.ends_call_bind {op : Op} {a : op.Ret} {f : op.Ret → Proc β}
    {Q : Except Exn β → World → Prop} (h : (env.answer w op).1 = .ok a)
    (hf : env.Ends (f a) (env.answer w op).2 Q) : env.Ends (call op >>= f) w Q := by
  have heval : env.eval (call op) w = (.ok a, (env.answer w op).2) := Prod.ext h rfl
  rwa [Ends, eval_bind_ok heval]

/-- One call that raises, and nothing after it. -/
theorem Env.ends_raise_bind {op : Op} {e : Exn} {f : op.Ret → Proc β}
    {Q : Except Exn β → World → Prop} (h : (env.answer w op).1 = .error e)
    (hq : Q (.error e) (env.answer w op).2) : env.Ends (call op >>= f) w Q := by
  have heval : env.eval (call op) w = (.error e, (env.answer w op).2) := Prod.ext h rfl
  rwa [Ends, eval_bind_error heval]

end Ends

/-! ### Effects

The calls that act on something outside: the mailbox, a model, the alerter, the file system. -/

/-- The call acts on something outside. -/
def Op.isEffect : Op → Bool
  | .apply _ _ | .createDraft _ _ | .applyKeywords _ _ | .getVerdict _ | .completion _
  | .extractReceipt _ | .notify _ _ _ | .writeBytes _ _ => true
  | _ => false

/-- The effects among some events, in order. -/
def effects (es : List Event) : List Op := (es.map Event.op).filter Op.isEffect

theorem effects_append (es fs : List Event) : effects (es ++ fs) = effects es ++ effects fs := by
  rw [effects, List.map_append, List.filter_append]
  rfl

/-- A program that only asks leaves the store alone and has no effects. -/
theorem Env.eval_asks {env : Env} {C : Op → Prop}
    (hC : ∀ op, C op → op.onDb = none ∧ op.isEffect = false) {α : Type} :
    ∀ {p : Proc α} (_ : p.Only C) (w : World), (env.eval p w).2.db = w.db ∧
      ∃ es, (env.eval p w).2.trace = w.trace ++ es ∧ effects es = []
  | .done r, _, w => ⟨rfl, [], (List.append_nil _).symm, rfl⟩
  | .call op k, h, w => by
    obtain ⟨hdb, heffect⟩ := hC op h.1
    have hanswer : env.answer w op = (env w op, w.record op (env w op) w.db) := by
      simp only [answer, hdb]
    obtain ⟨hrest, es, htrace, heffects⟩ := eval_asks hC (h.2 (env w op))
      (w.record op (env w op) w.db)
    have heval :
        env.eval (.call op k) w = env.eval (k (env w op)) (w.record op (env w op) w.db) := by
      show Prog.eval _ (k (env.answer w op).1) (env.answer w op).2 = _
      rw [hanswer]
      rfl
    rw [heval]
    refine ⟨hrest, ⟨op, env w op⟩ :: es, ?_, ?_⟩
    · rw [htrace, World.trace_record, List.append_assoc, List.singleton_append]
    rw [effects, List.map_cons, List.filter_cons_of_neg (by simp [heffect])]
    exact heffects

end Spork
