import Spork.Jmap.Client

/-!
# The JMAP source

`JmapProvider.build_checkpointed_source` of `core/providers/jmap/provider.py`, and
`CheckpointedFallbackSource` of `core/sources/fallback.py`: two sources over one client, one waiting
for a push event and the other for a timer, with one cursor between them.
-/

set_option autoImplicit false

namespace Spork

open Effects

/-- Decides when to fetch again. -/
structure Trigger where
  wait : JmapProc Unit

/-- `JmapPushTrigger`. -/
def Trigger.push : Trigger := ⟨JmapClient.call .pushWait⟩

/-- `IntervalTimer`. -/
def Trigger.timer : Trigger := ⟨JmapClient.call .timerWait⟩

/-- `JmapPushDisconnectedError`. -/
def pushDisconnectedError (reason : String) : Exn := ⟨.other "JmapPushDisconnectedError", reason⟩

/-- A checkpointed source, with `fuel` for the pages of one batch. -/
structure CheckpointedSource where
  pollBatch : (fuel : Nat) → JmapProc (Option MessageBatch)

/-- `_JmapCheckpointedSource`. -/
def jmapCheckpointedSource (client : JmapClient) (trigger : Trigger) : CheckpointedSource where
  pollBatch fuel := do
    trigger.wait
    let cursor ← JmapClient.call .cursorValue
    match ← client.fetchNewMessages fuel cursor with
    | none => pure none
    | some result => do
      JmapClient.call (.setCursorValue (some result.cursor))
      pure (some ⟨result.messages, some result.cursor⟩)

/-- `CheckpointedFallbackSource`. -/
def checkpointedFallbackSource (primary secondary : CheckpointedSource) (catches : Exn → Bool) :
    CheckpointedSource where
  pollBatch fuel := (primary.pollBatch fuel).tryCatch fun e =>
    if catches e then secondary.pollBatch fuel else Prog.raise (S := jmapSig) e

/-- `build_checkpointed_source`. -/
def buildCheckpointedSource (client : JmapClient) : CheckpointedSource :=
  checkpointedFallbackSource (jmapCheckpointedSource client .push)
    (jmapCheckpointedSource client .timer)
    fun e => decide (e.cls = .other "JmapPushDisconnectedError")

end Spork
