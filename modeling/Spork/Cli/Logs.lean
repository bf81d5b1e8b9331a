import Spork.State.Db
import Spork.Tails
import Mathlib.Data.String.Basic

/-!
# `spork logs`

`cli/commands/logs.py`: the audit log, oldest first, cut down by text comparison and by a slice.
-/

set_option autoImplicit false

namespace Spork

/-- `get_audit_entries`. -/
def StateDB.getAuditEntries (db : StateDB) (jmapId : Option String) : List AuditEntry :=
  match jmapId with
  | none => db.auditLog.entries
  | some jmapId => db.auditLog.entries.filter fun entry => entry.jmapId = jmapId

/-- What is echoed for an entry. -/
def AuditEntry.line (entry : AuditEntry) : String :=
  let detail := match entry.detailJson with
    | none => ""
    | some detailJson => if detailJson = "" then "" else " " ++ detailJson
  entry.ts ++ " " ++ entry.jmapId ++ " " ++ entry.event ++ detail

/-- `logs`: what it echoes. -/
def logs (db : StateDB) (tail : Option Int) (since messageId : Option String) : List String :=
  let entries := db.getAuditEntries messageId
  let entries := match since with
    | none => entries
    | some since => entries.filter fun entry => since ≤ entry.ts
  let entries := match tail with
    | none => entries
    | some tail => Tails.sliceFrom (-tail) entries
  entries.map AuditEntry.line

end Spork
