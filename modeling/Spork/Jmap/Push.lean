import Spork.Models

/-!
# The push listener

`core/providers/jmap/push.py` and `backoff.py`: `JmapPushTrigger.wait` reads one EventSource stream
until the account has mail, and a stream that fails first costs a delay from the schedule.

A stream is what the events factory makes for one call: the events it yields, and whether it is
exhausted after them or raises.  The client's `account_id`, which has to connect first, is looked up
while the stream is read; the lookup that fails ends the call, so it comes to one value for each
stream.  How to sleep is injected (`Sleep`).
-/

set_option autoImplicit false

namespace Spork

/-- `JmapPushDisconnectedError`. -/
def jmapPushDisconnectedError : ExnClass := .other "JmapPushDisconnectedError"

/-! ## The schedule -/

/-- `next_delay`. -/
def nextDelay (schedule : List PyFloat) (attempt : Int) : Except Exn PyFloat :=
  match schedule with
  | [] => .error ⟨.valueError, "reconnect backoff schedule must not be empty"⟩
  | first :: rest =>
    if attempt < 0 then
      .error ⟨.valueError, "attempt must be >= 0, got " ++ toString attempt⟩
    else
      let index := min attempt.toNat ((first :: rest).length - 1)
      .ok (((first :: rest)[index]?).getD first)

/-- `Callable[[float], None]`: how to sleep.  What it raises, it does not raise as a disconnect. -/
structure Sleep where
  run : PyFloat → Except Exn Unit
  foreign : ∀ delay e, run delay = .error e → e.cls ≠ jmapPushDisconnectedError

/-- `time.sleep`: the delay has to be a number that fits the clock, and not negative. -/
def timeSleep : Sleep where
  run delay :=
    match delay with
    | .nan => .error ⟨.valueError, "Invalid value NaN (not a number)"⟩
    | .negInf | .posInf =>
      .error ⟨.overflowError, "timestamp too large to convert to C PyTime_t"⟩
    | .fin q =>
      if q * 10 ^ 9 < -2 ^ 63 ∨ 2 ^ 63 ≤ q * 10 ^ 9 then
        .error ⟨.overflowError, "timestamp too large to convert to C PyTime_t"⟩
      else if q < 0 then .error ⟨.valueError, "sleep length must be non-negative"⟩
      else .ok ()
  foreign := by
    intro delay e h
    cases delay with
    | fin q =>
      dsimp only at h
      split at h
      · cases h
        decide
      · split at h
        · cases h
          decide
        · cases h
    | _ =>
      cases h
      decide

/-! ## Events -/

/-- The state of an account in an event, as far as it is read. -/
structure StateChange where
  email : Option String := none
  emailDelivery : Option String := none

/-- An event: `data.changed`, where it is a `dict`. -/
structure PushEvent where
  changed : Option (List (String × Option StateChange))

/-- One stream, and what `client.account_id` gives while it is read. -/
structure EventSource where
  clientAccountId : Except Exn String
  events : List PushEvent
  /-- The exception that the stream ends with; `none` where it is exhausted. -/
  ending : Option Exn := none

/-! ## The trigger -/

/-- `JmapPushTrigger`. -/
structure JmapPushTrigger where
  accountId : Option String := none
  reconnectBackoff : List PyFloat := [.fin 2, .fin 5, .fin 15, .fin 60, .fin 300]
  attempt : Nat := 0

/-- What a call of `wait` did: the exception it raised, if it did not return, and the delays it has
slept. -/
structure WaitOutcome where
  raised : Option Exn
  sleeps : List PyFloat

namespace JmapPushTrigger

/-- `_is_relevant`. -/
def isRelevant (trigger : JmapPushTrigger) (clientAccountId : Except Exn String)
    (event : PushEvent) : Except Exn Bool :=
  match event.changed with
  | none => .ok false
  | some changed => do
    let accountId ← match trigger.accountId with
      | some accountId => .ok accountId
      | none => clientAccountId
    match (changed.lookup accountId).join with
    | none => .ok false
    | some state => .ok (state.email.isSome || state.emailDelivery.isSome)

/-- The loop over the events: whether a relevant one has come. -/
def listen (trigger : JmapPushTrigger) (source : EventSource) : List PushEvent → Except Exn Bool
  | [] =>
    match source.ending with
    | none => .ok false
    | some e => .error e
  | event :: events => do
    if ← trigger.isRelevant source.clientAccountId event then .ok true
    else trigger.listen source events

variable (sleep : Sleep)

/-- `_disconnect`. -/
def disconnect (trigger : JmapPushTrigger) (reason : String) : JmapPushTrigger × WaitOutcome :=
  match nextDelay trigger.reconnectBackoff trigger.attempt with
  | .error e => (trigger, ⟨some ⟨jmapPushDisconnectedError, e.message⟩, []⟩)
  | .ok delay =>
    match sleep.run delay with
    | .error e => (trigger, ⟨some e, [delay]⟩)
    | .ok () => ({ trigger with attempt := trigger.attempt + 1 },
        ⟨some ⟨jmapPushDisconnectedError, reason⟩, [delay]⟩)

/-- `wait`. -/
def wait (trigger : JmapPushTrigger) (source : EventSource) : JmapPushTrigger × WaitOutcome :=
  match trigger.listen source source.events with
  | .ok true => ({ trigger with attempt := 0 }, ⟨none, []⟩)
  | .ok false => trigger.disconnect sleep "EventSource ended"
  | .error e => trigger.disconnect sleep e.message

/-- The trigger after one call for each of the streams. -/
def afterWaits (trigger : JmapPushTrigger) (sources : List EventSource) : JmapPushTrigger :=
  sources.foldl (fun trigger source => (trigger.wait sleep source).1) trigger

end JmapPushTrigger

end Spork
