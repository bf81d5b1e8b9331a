import Spork.Models

/-!
# The state store

`core/state/db.py`: one SQLite file with five tables.  A table with a primary key is a partial
function from the key; `audit_log`, whose key only ever grows, is a list with the counter that
`AUTOINCREMENT` keeps beside it.

Every method of `StateDB` is one committed transaction, so each is one function on the store here.
Only `record_llm_call` can reject its arguments: it refuses a negative token count itself, and
SQLite's driver refuses an integer that does not fit in 64 bits.
-/

set_option autoImplicit false

namespace Spork

/-- A row of `processed_messages`, without its key. -/
structure ProcessedRow where
  threadId : String
  receivedAt : Option String := none
  tierReached : Option String := none
  verdictJson : Option String := none
  actionTaken : Option String := none
  processedAt : String
  deriving DecidableEq, Repr

/-- A row of `audit_log`. -/
structure AuditEntry where
  id : Nat
  ts : String
  jmapId : String
  event : String
  detailJson : Option String
  deriving DecidableEq, Repr

/-- One day's Tier 2 call volume.  A sum of tokens that is no 64-bit integer is a `REAL`, and so far
from zero these are whole numbers. -/
structure LLMUsage where
  date : String
  calls : Nat
  tokensIn : Int
  tokensOut : Int
  deriving DecidableEq, Repr

/-- A row of `known_receipt_senders`. -/
structure KnownSender where
  fromDomain : String
  company : String
  learnedFrom : String
  learnedAt : String
  deriving DecidableEq, Repr

/-! ## The audit log -/

/-- `audit_log`, with the largest id ever handed out.  `AUTOINCREMENT` is what keeps the two
clauses true, so a log that breaks them cannot be built. -/
structure AuditLog where
  /-- The rows, oldest first. -/
  entries : List AuditEntry
  /-- The largest id handed out so far. -/
  seq : Nat
  /-- Ids strictly increase. -/
  increasing : entries.Pairwise fun a b => a.id < b.id
  /-- No row is ahead of the counter. -/
  bounded : ∀ e ∈ entries, e.id ≤ seq

/-- The log of a fresh store. -/
def AuditLog.empty : AuditLog := ⟨[], 0, .nil, by simp⟩

/-- `INSERT INTO audit_log`. -/
def AuditLog.insert (log : AuditLog) (ts jmapId event : String) (detailJson : Option String) :
    AuditLog where
  entries := log.entries ++ [⟨log.seq + 1, ts, jmapId, event, detailJson⟩]
  seq := log.seq + 1
  increasing := List.pairwise_append.2 ⟨log.increasing, List.pairwise_singleton _ _, by
    intro a ha b hb
    rw [List.mem_singleton] at hb
    subst hb
    exact Nat.lt_succ_of_le (log.bounded a ha)⟩
  bounded := by
    intro e he
    rcases List.mem_append.1 he with he | he
    · exact (log.bounded e he).trans (Nat.le_succ _)
    · rw [List.mem_singleton] at he
      subst he
      exact Nat.le_refl _

@[simp] theorem AuditLog.entries_insert (log : AuditLog) (ts jmapId event : String)
    (detailJson : Option String) :
    (log.insert ts jmapId event detailJson).entries
      = log.entries ++ [⟨log.seq + 1, ts, jmapId, event, detailJson⟩] := rfl

/-! ## The store -/

/-- The contents of the store. -/
structure StateDB where
  pushCursor : String → Option String
  processedMessages : String → Option ProcessedRow
  auditLog : AuditLog
  llmUsage : String → Option LLMUsage
  knownReceiptSenders : String → Option KnownSender

/-- A freshly created store. -/
def StateDB.empty : StateDB where
  pushCursor _ := none
  processedMessages _ := none
  auditLog := .empty
  llmUsage _ := none
  knownReceiptSenders _ := none

namespace StateDB

/-- The last state seen for an account, if it was ever polled. -/
def getCursor (db : StateDB) (accountId : String) : Option String := db.pushCursor accountId

/-- Upsert of `push_cursor`. -/
def setCursor (db : StateDB) (accountId state : String) : StateDB :=
  { db with pushCursor := Function.update db.pushCursor accountId (some state) }

/-- Whether `jmap_id` has a row. -/
def hasProcessed (db : StateDB) (jmapId : String) : Bool := (db.processedMessages jmapId).isSome

/-- Upsert of `processed_messages`. -/
def markProcessed (db : StateDB) (jmapId : String) (row : ProcessedRow) : StateDB :=
  { db with processedMessages := Function.update db.processedMessages jmapId (some row) }

/-- Append one audit entry. -/
def writeAuditEntry (db : StateDB) (ts jmapId event : String) (detailJson : Option String) :
    StateDB :=
  { db with auditLog := db.auditLog.insert ts jmapId event detailJson }

/-- The usage of a date; a date without a row counts as unused. -/
def getLlmUsage (db : StateDB) (date : String) : LLMUsage :=
  (db.llmUsage date).getD ⟨date, 0, 0, 0⟩

/-- An integer the SQLite driver can bind. -/
def fitsSqlite (n : Int) : Bool := decide (-2 ^ 63 ≤ n ∧ n < 2 ^ 63)

/-- The double nearest to an integer; of two of them, the even one. -/
def toDouble (n : Int) : Int :=
  let ulp := 2 ^ (n.natAbs.log2 - 52)
  let down := n.natAbs / ulp
  let rest := n.natAbs % ulp
  let mantissa := if ulp < 2 * rest ∨ 2 * rest = ulp ∧ down % 2 = 1 then down + 1 else down
  n.sign * (mantissa * ulp : Nat)

/-- SQLite's `+` in an `INTEGER` column: of integers while the sum is one, and else of doubles. -/
def sqlAdd (a b : Int) : Int :=
  if fitsSqlite a && fitsSqlite b && fitsSqlite (a + b) then a + b
  else toDouble (toDouble a + toDouble b)

/-- The row of a date after one more call. -/
def countCall (db : StateDB) (date : String) (tokensIn tokensOut : Int) : StateDB :=
  { db with llmUsage := Function.update db.llmUsage date (some
      ⟨date, (db.getLlmUsage date).calls + 1, tokensIn, tokensOut⟩) }

/-- `record_llm_call`: one more call on `date`, with its tokens. -/
def recordLlmCall (db : StateDB) (date : String) (tokensIn tokensOut : Int) :
    Except Exn StateDB :=
  if tokensIn < 0 then
    .error ⟨.valueError, "tokens_in must not be negative, got " ++ toString tokensIn⟩
  else if tokensOut < 0 then
    .error ⟨.valueError, "tokens_out must not be negative, got " ++ toString tokensOut⟩
  else if fitsSqlite tokensIn && fitsSqlite tokensOut then
    let usage := db.getLlmUsage date
    .ok (db.countCall date (sqlAdd usage.tokensIn tokensIn) (sqlAdd usage.tokensOut tokensOut))
  else
    .error ⟨.overflowError, "Python int too large to convert to SQLite INTEGER"⟩

/-- What is known about a sender domain. -/
def getKnownSender (db : StateDB) (fromDomain : String) : Option KnownSender :=
  db.knownReceiptSenders fromDomain

/-- Upsert of `known_receipt_senders`. -/
def learnKnownSender (db : StateDB) (sender : KnownSender) : StateDB :=
  { db with knownReceiptSenders :=
      Function.update db.knownReceiptSenders sender.fromDomain (some sender) }

theorem getKnownSender_learnKnownSender (db : StateDB) (sender : KnownSender)
    (fromDomain : String) :
    (db.learnKnownSender sender).getKnownSender fromDomain =
      if fromDomain = sender.fromDomain then some sender else db.getKnownSender fromDomain :=
  Function.update_apply _ _ _ _

@[simp] theorem processedMessages_markProcessed (db : StateDB) (jmapId : String)
    (row : ProcessedRow) :
    (db.markProcessed jmapId row).processedMessages
      = Function.update db.processedMessages jmapId (some row) := rfl

@[simp] theorem getCursor_setCursor (db : StateDB) (accountId state : String) :
    (db.setCursor accountId state).getCursor accountId = some state := by
  simp [getCursor, setCursor]

/-- One more call of its date, and none of any other. -/
theorem calls_countCall (db : StateDB) (date : String) (tokensIn tokensOut : Int)
    (date' : String) :
    ((db.countCall date tokensIn tokensOut).getLlmUsage date').calls
      = (db.getLlmUsage date').calls + if date' = date then 1 else 0 := by
  rw [getLlmUsage, countCall]
  by_cases hd : date' = date
  · subst hd
    simp
  · simp [hd, getLlmUsage]

/-- **Everything `record_llm_call` can do**: reject an argument, or count one call on its date. -/
theorem recordLlmCall_cases (db : StateDB) (date : String) (tokensIn tokensOut : Int) :
    (∃ e, db.recordLlmCall date tokensIn tokensOut = .error e ∧
        (e.cls = .valueError ∨ e.cls = .overflowError) ∧
        ¬(0 ≤ tokensIn ∧ tokensIn < 2 ^ 63 ∧ 0 ≤ tokensOut ∧ tokensOut < 2 ^ 63)) ∨
      (db.recordLlmCall date tokensIn tokensOut = .ok (db.countCall date
          (sqlAdd (db.getLlmUsage date).tokensIn tokensIn)
          (sqlAdd (db.getLlmUsage date).tokensOut tokensOut)) ∧
        0 ≤ tokensIn ∧ tokensIn < 2 ^ 63 ∧ 0 ≤ tokensOut ∧ tokensOut < 2 ^ 63) := by
  rw [recordLlmCall]
  split
  · exact .inl ⟨_, rfl, .inl rfl, by omega⟩
  · split
    · exact .inl ⟨_, rfl, .inl rfl, by omega⟩
    · split
      · rename_i hin hout hfits
        simp only [fitsSqlite, Bool.and_eq_true, decide_eq_true_eq] at hfits
        exact .inr ⟨rfl, by omega⟩
      · rename_i hin hout hfits
        simp only [fitsSqlite, Bool.and_eq_true, decide_eq_true_eq] at hfits
        exact .inl ⟨_, rfl, .inr rfl, by omega⟩

/-- A call whose token counts are in range is recorded. -/
theorem recordLlmCall_ok (db : StateDB) (date : String) {tokensIn tokensOut : Int}
    (h : 0 ≤ tokensIn ∧ tokensIn < 2 ^ 63 ∧ 0 ≤ tokensOut ∧ tokensOut < 2 ^ 63) :
    ∃ db', db.recordLlmCall date tokensIn tokensOut = .ok db' := by
  rcases recordLlmCall_cases db date tokensIn tokensOut with ⟨_, _, _, hn⟩ | ⟨he, _⟩
  · exact absurd h hn
  · exact ⟨_, he⟩

end StateDB

end Spork
