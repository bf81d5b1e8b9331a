import Spork.Collaborators
import Spork.Effects.Footprint

/-!
# The world the code runs in

A `World` is the store together with the trace of every call made so far and how each came back.
`machine A` is what the calls may do to it, with one free choice: `A` says which answers the
collaborators are allowed to give.  `anything` is no restriction; `noRaise` is the world in which
nothing ever fails.

* A store method either commits, and then its answer and the new store are the ones computed by
  `StateDB`, or it raises and the store is what it was.
* Every other call is answered by somebody else, so any value may come back, or any exception that
  `Op.MayRaise` does not exclude.

A crash is not an answer: it is a run that is looked at early (`Machine.Reaches`).
-/

set_option autoImplicit false

namespace Spork

open Effects

/-- One call and how it came back. -/
structure Event where
  op : Op
  reply : Except Exn op.Ret

/-- The store, and everything that has been called so far. -/
structure World where
  db : StateDB
  trace : List Event

/-- The world after `op` came back with `reply`, leaving the store `db`. -/
def World.record (w : World) (op : Op) (reply : Except Exn op.Ret) (db : StateDB) : World :=
  ⟨db, w.trace ++ [⟨op, reply⟩]⟩

@[simp] theorem World.db_record (w : World) (op : Op) (reply : Except Exn op.Ret)
    (db : StateDB) : (w.record op reply db).db = db := rfl

@[simp] theorem World.trace_record (w : World) (op : Op) (reply : Except Exn op.Ret)
    (db : StateDB) : (w.record op reply db).trace = w.trace ++ [⟨op, reply⟩] := rfl

/-- The events between two worlds of a run. -/
def eventsSince (w w' : World) : List Event := w'.trace.drop w.trace.length

/-! ## The store methods -/

/-- What a store method does to the store; `none` for a call that is not one. -/
def Op.onDb : (op : Op) → Option (StateDB → Except Exn (op.Ret × StateDB))
  | .getCursor a => some fun db => .ok (db.getCursor a, db)
  | .setCursor a s => some fun db => .ok ((), db.setCursor a s)
  | .hasProcessed id => some fun db => .ok (db.hasProcessed id, db)
  | .markProcessed id row => some fun db => .ok ((), db.markProcessed id row)
  | .writeAuditEntry ts id ev d => some fun db => .ok ((), db.writeAuditEntry ts id ev d)
  | .recordLlmCall date i o => some fun db => (db.recordLlmCall date i o).map fun db' => ((), db')
  | .getLlmUsage date => some fun db => .ok (db.getLlmUsage date, db)
  | .getKnownSender d => some fun db => .ok (db.getKnownSender d, db)
  | .learnKnownSender s => some fun db => .ok ((), db.learnKnownSender s)
  | _ => none

/-- From the store `db`, the call may return `a` and leave the store `db'`. -/
def Op.Gives (op : Op) (db : StateDB) (a : op.Ret) (db' : StateDB) : Prop :=
  match op.onDb with
  | some g => g db = .ok (a, db')
  | none => db' = db

/-- The exceptions a call may raise.  The store raises SQLite's errors, or rejects an argument;
serialising a verdict raises pydantic's; reading shared memory raises nothing. -/
def Op.MayRaise : Op → StateDB → Exn → Prop
  | .recordLlmCall date i o, db, e => e.cls = .sqliteError ∨ db.recordLlmCall date i o = .error e
  | .getCursor _, _, e | .setCursor _ _, _, e | .hasProcessed _, _, e | .markProcessed _ _, _, e
  | .writeAuditEntry _ _ _ _, _, e | .getLlmUsage _, _, e | .getKnownSender _, _, e
  | .learnKnownSender _, _, e => e.cls = .sqliteError
  | .modelDumpJson _, _, e => e.cls = .pydanticSerializationError
  | .stopIsSet, _, _ | .isPaused, _, _ | .takePendingEvents, _, _ | .currentRules, _, _
  | .budgetAlertDate, _, _ | .setBudgetAlertDate _, _, _ => False
  | _, _, _ => True

section Gives

variable {db db' : StateDB} {u : Unit}

/-- A store method gives what `StateDB` computes. -/
theorem gives_stored {op : Op} {g : StateDB → Except Exn (op.Ret × StateDB)}
    (h : op.onDb = some g) {a : op.Ret} : op.Gives db a db' ↔ g db = .ok (a, db') := by
  rw [Op.Gives, h]

@[simp] theorem gives_hasProcessed {id : String} {b : Bool} :
    (Op.hasProcessed id).Gives db b db' ↔ db.hasProcessed id = b ∧ db = db' :=
  (gives_stored rfl).trans (by simp)

@[simp] theorem gives_getCursor {a : String} {c : Option String} :
    (Op.getCursor a).Gives db c db' ↔ db.getCursor a = c ∧ db = db' :=
  (gives_stored rfl).trans (by simp)

@[simp] theorem gives_setCursor {a s : String} :
    (Op.setCursor a s).Gives db u db' ↔ db.setCursor a s = db' :=
  (gives_stored rfl).trans (by simp)

@[simp] theorem gives_markProcessed {id : String} {row : ProcessedRow} :
    (Op.markProcessed id row).Gives db u db' ↔ db.markProcessed id row = db' :=
  (gives_stored rfl).trans (by simp)

@[simp] theorem gives_writeAuditEntry {ts id ev : String} {d : Option String} :
    (Op.writeAuditEntry ts id ev d).Gives db u db' ↔ db.writeAuditEntry ts id ev d = db' :=
  (gives_stored rfl).trans (by simp)

@[simp] theorem gives_getLlmUsage {date : String} {usage : LLMUsage} :
    (Op.getLlmUsage date).Gives db usage db' ↔ db.getLlmUsage date = usage ∧ db = db' :=
  (gives_stored rfl).trans (by simp)

@[simp] theorem gives_getKnownSender {d : String} {s : Option KnownSender} :
    (Op.getKnownSender d).Gives db s db' ↔ db.getKnownSender d = s ∧ db = db' :=
  (gives_stored rfl).trans (by simp)

@[simp] theorem gives_learnKnownSender {s : KnownSender} :
    (Op.learnKnownSender s).Gives db u db' ↔ db.learnKnownSender s = db' :=
  (gives_stored rfl).trans (by simp)

@[simp] theorem gives_recordLlmCall {date : String} {i o : Int} :
    (Op.recordLlmCall date i o).Gives db u db' ↔ db.recordLlmCall date i o = .ok db' := by
  rw [gives_stored rfl]
  cases db.recordLlmCall date i o <;> simp [Except.map]

/-- A call that is not a store method leaves the store alone. -/
theorem gives_external {op : Op} (h : op.onDb = none) {a : op.Ret} :
    op.Gives db a db' ↔ db' = db := by
  rw [Op.Gives, h]

end Gives

/-! ## The machine -/

/-- Which answers the collaborators may give. -/
abbrev Allowed : Type := (op : Op) → Except Exn op.Ret → Prop

/-- No restriction on the answers. -/
def anything : Allowed := fun _ _ => True

/-- Nothing raises. -/
def noRaise : Allowed := fun _ r => ∃ a, r = .ok a

/-- How a call may come back. -/
inductive Responds (A : Allowed) (w : World) (op : Op) : Except Exn op.Ret → World → Prop where
  | answers {a : op.Ret} {db' : StateDB} (hA : A op (.ok a)) (h : op.Gives w.db a db') :
      Responds A w op (.ok a) (w.record op (.ok a) db')
  | raises {e : Exn} (hA : A op (.error e)) (h : op.MayRaise w.db e) :
      Responds A w op (.error e) (w.record op (.error e) w.db)

/-- The machine of the whole repository. -/
def machine (A : Allowed) : Machine sig World := fun w op r w' => Responds A w op r w'

/-! ### What one call can do

A call adds one event to the trace.  Each table is changed by one operation only, and nothing ever
deletes a row. -/

/-- Nothing recorded in `db` is lost in `db'`. -/
structure StateDB.Grows (db db' : StateDB) : Prop where
  hasProcessed : ∀ id, db.hasProcessed id = true → db'.hasProcessed id = true
  auditLog : db.auditLog.entries <+: db'.auditLog.entries

theorem StateDB.Grows.refl (db : StateDB) : db.Grows db := ⟨fun _ h => h, List.prefix_refl _⟩

theorem StateDB.Grows.trans {db₁ db₂ db₃ : StateDB} (h : db₁.Grows db₂) (h' : db₂.Grows db₃) :
    db₁.Grows db₃ :=
  ⟨fun id hid => h'.hasProcessed id (h.hasProcessed id hid), h.auditLog.trans h'.auditLog⟩

theorem StateDB.grows_markProcessed (db : StateDB) (id : String) (row : ProcessedRow) :
    db.Grows (db.markProcessed id row) := by
  refine ⟨fun id' h => ?_, List.prefix_refl _⟩
  rw [StateDB.hasProcessed, processedMessages_markProcessed]
  by_cases hid : id' = id
  · subst hid
    rw [Function.update_self]
    rfl
  · rw [Function.update_of_ne hid]
    exact h

section Responds

variable {A : Allowed} {w w' : World} {op : Op} {r : Except Exn op.Ret}

theorem Responds.trace (h : Responds A w op r w') : w'.trace = w.trace ++ [⟨op, r⟩] := by
  cases h <;> rfl

theorem Responds.allowed (h : Responds A w op r w') : A op r := by
  cases h <;> assumption

theorem Responds.allowing {A' : Allowed} (h : Responds A w op r w') (hA : A' op r) :
    Responds A' w op r w' := by
  cases h with
  | answers _ hg => exact .answers hA hg
  | raises _ he => exact .raises hA he

theorem Responds.inv (h : Responds A w op r w') :
    (∃ a db', r = .ok a ∧ op.Gives w.db a db' ∧ w' = w.record op (.ok a) db') ∨
      ∃ e, r = .error e ∧ op.MayRaise w.db e ∧ w' = w.record op (.error e) w.db := by
  cases h with
  | answers hA h => exact .inl ⟨_, _, rfl, h, rfl⟩
  | raises hA h => exact .inr ⟨_, rfl, h, rfl⟩

/-- What the store is after a call that returned. -/
def Op.commit : Op → StateDB → StateDB
  | .setCursor a s, db => db.setCursor a s
  | .markProcessed id row, db => db.markProcessed id row
  | .writeAuditEntry ts id ev d, db => db.writeAuditEntry ts id ev d
  | .recordLlmCall date i o, db => (db.recordLlmCall date i o).toOption.getD db
  | .learnKnownSender s, db => db.learnKnownSender s
  | _, db => db

theorem Op.Gives.commit {db db' : StateDB} {a : op.Ret} (h : op.Gives db a db') :
    db' = op.commit db := by
  cases op with
  | getCursor a => exact (gives_getCursor.1 h).2.symm
  | setCursor a s => exact (gives_setCursor.1 h).symm
  | hasProcessed id => exact (gives_hasProcessed.1 h).2.symm
  | markProcessed id row => exact (gives_markProcessed.1 h).symm
  | writeAuditEntry ts id ev d => exact (gives_writeAuditEntry.1 h).symm
  | recordLlmCall date i o =>
    rw [Op.commit, gives_recordLlmCall.1 h]
    rfl
  | getLlmUsage date => exact (gives_getLlmUsage.1 h).2.symm
  | getKnownSender d => exact (gives_getKnownSender.1 h).2.symm
  | learnKnownSender s => exact (gives_learnKnownSender.1 h).symm
  | _ => exact (gives_external rfl).1 h

/-- **Everything a call can do to the store**: commit, or leave it alone. -/
theorem Responds.db (h : Responds A w op r w') : w'.db = w.db ∨ w'.db = op.commit w.db := by
  cases h with
  | answers hA hg => exact .inr hg.commit
  | raises hA he => exact .inl rfl

theorem Op.commit_recordLlmCall (db : StateDB) (date : String) (i o : Int) :
    ∃ usage, (Op.recordLlmCall date i o).commit db = { db with llmUsage := usage } := by
  rcases StateDB.recordLlmCall_cases db date i o with ⟨e, he, _⟩ | ⟨hok, _⟩
  · rw [Op.commit, he]
    exact ⟨_, rfl⟩
  · rw [Op.commit, hok]
    exact ⟨_, rfl⟩

theorem Op.grows_commit (op : Op) (db : StateDB) : db.Grows (op.commit db) := by
  cases op with
  | markProcessed id row => exact StateDB.grows_markProcessed db id row
  | writeAuditEntry ts id ev d => exact ⟨fun _ h => h, List.prefix_append _ _⟩
  | recordLlmCall date i o =>
    obtain ⟨usage, h⟩ := Op.commit_recordLlmCall db date i o
    rw [h]
    exact ⟨fun _ h => h, List.prefix_refl _⟩
  | _ => exact ⟨fun _ h => h, List.prefix_refl _⟩

theorem Responds.grows (h : Responds A w op r w') : w.db.Grows w'.db := by
  rcases h.db with hdb | hdb <;> rw [hdb]
  · exact .refl _
  · exact op.grows_commit w.db

/-- The message a call marks, if that is what it does. -/
def Op.marks : Op → Option String
  | .markProcessed id _ => some id
  | _ => none

theorem Responds.processedMessages (h : Responds A w op r w') (hop : op.marks = none) :
    w'.db.processedMessages = w.db.processedMessages := by
  rcases h.db with hdb | hdb <;> rw [hdb]
  cases op with
  | markProcessed id row => cases hop
  | recordLlmCall date i o =>
    obtain ⟨usage, h⟩ := Op.commit_recordLlmCall w.db date i o
    rw [h]
  | _ => rfl

/-- Whether a call writes to the audit log. -/
def Op.audits : Op → Bool
  | .writeAuditEntry _ _ _ _ => true
  | _ => false

theorem Responds.auditLog (h : Responds A w op r w') (hop : op.audits = false) :
    w'.db.auditLog = w.db.auditLog := by
  rcases h.db with hdb | hdb <;> rw [hdb]
  cases op with
  | writeAuditEntry ts id ev d => cases hop
  | recordLlmCall date i o =>
    obtain ⟨usage, h⟩ := Op.commit_recordLlmCall w.db date i o
    rw [h]
  | _ => rfl

/-- Whether a call writes a cursor. -/
def Op.setsCursor : Op → Bool
  | .setCursor _ _ => true
  | _ => false

theorem Responds.pushCursor (h : Responds A w op r w') (hop : op.setsCursor = false) :
    w'.db.pushCursor = w.db.pushCursor := by
  rcases h.db with hdb | hdb <;> rw [hdb]
  cases op with
  | setCursor a s => cases hop
  | recordLlmCall date i o =>
    obtain ⟨usage, h⟩ := Op.commit_recordLlmCall w.db date i o
    rw [h]
  | _ => rfl

/-- Whether a call writes the usage table. -/
def Op.recordsUsage : Op → Bool
  | .recordLlmCall _ _ _ => true
  | _ => false

theorem Responds.llmUsage (h : Responds A w op r w') (hop : op.recordsUsage = false) :
    w'.db.llmUsage = w.db.llmUsage := by
  rcases h.db with hdb | hdb <;> rw [hdb]
  cases op with
  | recordLlmCall date i o => cases hop
  | _ => rfl

end Responds

/-! ### Rules for one call -/

section Rules

variable {A : Allowed} {I : World → Prop} {α : Type} {w : World}

/-- One call followed by the rest. -/
theorem wp_call_bind {op : Op} {f : op.Ret → Proc α} {Q : Except Exn α → World → Prop}
    (hI : I w)
    (hok : ∀ a db', A op (.ok a) → op.Gives w.db a db' →
      (machine A).wp I (f a) Q (w.record op (.ok a) db'))
    (herr : ∀ e, A op (.error e) → op.MayRaise w.db e →
      I (w.record op (.error e) w.db) ∧ Q (.error e) (w.record op (.error e) w.db)) :
    (machine A).wp I (call op >>= f) Q w := by
  refine Machine.wp_perform_bind hI (fun a w' h => ?_) (fun e w' h => ?_)
  · cases h with
    | answers hA h => exact hok a _ hA h
  · cases h with
    | raises hA h => exact herr e hA h

/-- One call at the very end. -/
theorem wp_call {op : Op} {Q : Except Exn op.Ret → World → Prop} (hI : I w)
    (hok : ∀ a db', A op (.ok a) → op.Gives w.db a db' →
      I (w.record op (.ok a) db') ∧ Q (.ok a) (w.record op (.ok a) db'))
    (herr : ∀ e, A op (.error e) → op.MayRaise w.db e →
      I (w.record op (.error e) w.db) ∧ Q (.error e) (w.record op (.error e) w.db)) :
    (machine A).wp I (call op) Q w := by
  refine Machine.wp_perform hI fun r w' h => ?_
  cases h with
  | answers hA h => exact hok _ _ hA h
  | raises hA h => exact herr _ hA h

/-- What a call may raise is what the machine allows it to. -/
theorem raisesOnly_call {E : Exn → Prop} (op : Op)
    (h : ∀ db e, A op (.error e) → op.MayRaise db e → E e) :
    (machine A).RaisesOnly E (call op) := fun w =>
  wp_call trivial (fun _ _ _ _ => ⟨trivial, fun _ h => by cases h⟩)
    fun _ hA hr => ⟨trivial, fun _ he => by cases he; exact h w.db _ hA hr⟩

end Rules

/-! ### Events since a world -/

/-- `F` holds of the events since `w₀`. -/
def Since (w₀ : World) (F : List Event → Prop) (w : World) : Prop :=
  ∃ es, w.trace = w₀.trace ++ es ∧ F es

section Since

variable {A : Allowed} {w₀ w w' : World} {op : Op} {r : Except Exn op.Ret} {F G : List Event → Prop}

theorem Since.mono (h : Since w₀ F w) (hFG : ∀ es, F es → G es) : Since w₀ G w := by
  obtain ⟨es, hes, hF⟩ := h
  exact ⟨es, hes, hFG es hF⟩

theorem Since.and (hF : Since w₀ F w) (hG : Since w₀ G w) : Since w₀ (fun es => F es ∧ G es) w := by
  obtain ⟨es, hes, hF⟩ := hF
  obtain ⟨es', hes', hG⟩ := hG
  obtain rfl := List.append_cancel_left (hes.symm.trans hes')
  exact ⟨es, hes, hF, hG⟩

theorem Since.step (h : Since w₀ F w) (hr : Responds A w op r w')
    (hF : ∀ es, F es → G (es ++ [⟨op, r⟩])) : Since w₀ G w' := by
  obtain ⟨es, hes, hes'⟩ := h
  exact ⟨es ++ [⟨op, r⟩], by rw [hr.trace, hes, List.append_assoc], hF es hes'⟩

/-- An assertion about events that an event of a call in `C` cannot break. -/
def Stable (C : Op → Prop) (F : List Event → Prop) : Prop :=
  ∀ es e, C e.op → F es → F (es ++ [e])

theorem keeps_since {C : Op → Prop} (hF : Stable C F) {α : Type} {p : Proc α} (hp : p.Only C) :
    (machine A).Keeps (Since w₀ F) p :=
  Machine.keeps_of_only (fun _ op r _ hop hw hr =>
    Since.step hw hr fun es h => hF es ⟨op, r⟩ hop h) hp

theorem Since.eventsSince (h : Since w₀ F w) : F (eventsSince w₀ w) := by
  obtain ⟨es, hes, hF⟩ := h
  rw [Spork.eventsSince, hes, List.drop_left]
  exact hF

end Since

end Spork
