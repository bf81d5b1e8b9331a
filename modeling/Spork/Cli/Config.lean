import Spork.Config.Schema

/-!
# `spork config show`

`cli/commands/config.py`: every value of the configuration on a line of its own, with a mark on the
ones that the enforced tier sets and without the ones whose key looks like a credential's.

How Python writes a float or a date is not spelled out (`Printer`).  An integer of more than 4300
digits is not written at all: `str` raises.
-/

set_option autoImplicit false

namespace Spork

open Toml (Value Table)

/-! ## Keys of credentials -/

/-- `_SECRET_KEY_MARKERS`. -/
def secretKeyMarkers : List String := ["token", "key", "secret", "password"]

/-- `c.lower()`, as far as the markers can tell: of the letters beyond ASCII only the Kelvin sign
becomes one of theirs. -/
def lowerChar (c : Char) : Char := if c.toNat = 0x212a then 'k' else c.toLower

/-- `_looks_like_secret`. -/
def looksLikeSecret (key : String) : Bool :=
  secretKeyMarkers.any fun marker =>
    (key.toList.map lowerChar).tails.any fun rest => marker.toList.isPrefixOf rest

/-! ## Writing values -/

/-- How Python writes the numbers and dates that a text stands for. -/
structure Printer where
  /-- `repr` of a TOML float. -/
  float : String → String
  /-- `str` of a TOML date or time. -/
  datetimeStr : String → String
  /-- `repr` of a TOML date or time. -/
  datetimeRepr : String → String
  /-- `repr` of a validated float. -/
  number : PyFloat → String

/-- More digits than `str` writes. -/
def Oversized (n : Int) : Prop := 4300 < (toString n.natAbs).length

instance (n : Int) : Decidable (Oversized n) := inferInstanceAs (Decidable (_ < _))

/-- `str(n)`. -/
def pyStrInt (n : Int) : Except Exn String :=
  if Oversized n then
    .error ⟨.valueError, "Exceeds the limit (4300 digits) for integer string conversion; " ++
      "use sys.set_int_max_str_digits() to increase the limit"⟩
  else .ok (toString n)

/-- `str(b)`. -/
def pyStrBool (b : Bool) : String := if b then "True" else "False"

/-- `repr(xs)` of a list of texts. -/
def pyReprStrs (xs : List String) : String := "[" ++ ", ".intercalate (xs.map pyRepr) ++ "]"

mutual

/-- `repr(value)`. -/
def Printer.repr (printer : Printer) : Value → Except Exn String
  | .string s => .ok (pyRepr s)
  | .boolean b => .ok (pyStrBool b)
  | .integer n => pyStrInt n
  | .float text => .ok (printer.float text)
  | .datetime text => .ok (printer.datetimeRepr text)
  | .array vs => do
    let parts ← printer.reprElements vs
    .ok ("[" ++ ", ".intercalate parts ++ "]")
  | .table t => do
    let parts ← printer.reprItems t
    .ok ("\x7b" ++ ", ".intercalate parts ++ "\x7d")

def Printer.reprElements (printer : Printer) : List Value → Except Exn (List String)
  | [] => .ok []
  | v :: vs => do
    let part ← printer.repr v
    let parts ← printer.reprElements vs
    .ok (part :: parts)

def Printer.reprItems (printer : Printer) : Table → Except Exn (List String)
  | [] => .ok []
  | item :: t => do
    let part ← printer.reprItem item
    let parts ← printer.reprItems t
    .ok (part :: parts)

def Printer.reprItem (printer : Printer) : String × Value → Except Exn String
  | (key, v) => do
    let text ← printer.repr v
    .ok (pyRepr key ++ ": " ++ text)

end

/-- `f"{value}"`. -/
def Printer.str (printer : Printer) : Value → Except Exn String
  | .string s => .ok s
  | .datetime text => .ok (printer.datetimeStr text)
  | v => printer.repr v

/-! ## The lines -/

/-- One line of the listing. -/
structure ShowLine where
  path : String
  display : String
  enforced : Bool

/-- `f"{path} = {value}{suffix}"`. -/
def ShowLine.text (line : ShowLine) : String :=
  line.path ++ " = " ++ line.display ++ if line.enforced then " (enforced)" else ""

/-- What stands on the line of a constructor argument. -/
def kwargDisplay (printer : Printer) (item : String × Value) : Except Exn String :=
  if looksLikeSecret item.1 then .ok "<redacted>" else printer.str item.2

/-- The lines of the constructor arguments. -/
def kwargsLines (printer : Printer) (name : String) : Table → Except Exn (List (String × String))
  | [] => .ok []
  | item :: kwargs => do
    let display ← kwargDisplay printer item
    let lines ← kwargsLines printer name kwargs
    .ok ((name ++ ".kwargs." ++ item.1, display) :: lines)

/-- The lines of a backend. -/
def backendLines (printer : Printer) (name : String) (spec : BackendSpec) :
    Except Exn (List (String × String)) := do
  let kwargs ← kwargsLines printer name spec.kwargs
  .ok ((name ++ ".spec", spec.spec) :: kwargs ++
    spec.secretKwargs.map fun item => (name ++ ".secret_kwargs." ++ item.1, item.2))

/-- The line of the recordings, if there are any. -/
def recordingLines : Option LLMRecordingConfig → List (String × String)
  | none => []
  | some recording => [("llm_recording.corpus_path", recording.corpusPath.str)]

/-- The lines of the table of thresholds and policies. -/
def tieringLines (printer : Printer) (tiering : TieringConfig) :
    Except Exn (List (String × String)) := do
  let dailyCallBudget ← pyStrInt tiering.dailyCallBudget
  let maxBodyChars ← pyStrInt tiering.maxBodyChars
  .ok [("tiering.default_unmatched_action", tiering.defaultUnmatchedAction.value),
    ("tiering.alert_threshold", printer.number tiering.alertThreshold),
    ("tiering.autoact_threshold", printer.number tiering.autoactThreshold),
    ("tiering.daily_call_budget", dailyCallBudget), ("tiering.max_body_chars", maxBodyChars),
    ("tiering.local_classifier", tiering.localClassifier.getD "None"),
    ("tiering.allowed_categories", pyReprStrs tiering.allowedCategories)]

/-- The backends that are listed. -/
def SporkConfig.backends (config : SporkConfig) : List (String × BackendSpec) :=
  [("provider", config.provider), ("llm", config.llm), ("alerts", config.alerts)]

/-- The paths and the values of `_format_show_lines`, in order. -/
def shownValues (printer : Printer) (config : SporkConfig) :
    Except Exn (List (String × String)) := do
  let provider ← backendLines printer "provider" config.provider
  let llm ← backendLines printer "llm" config.llm
  let alerts ← backendLines printer "alerts" config.alerts
  let tiering ← tieringLines printer config.tiering
  .ok ([("rules_path", config.rulesPath.str), ("db_path", config.dbPath.str),
    ("socket_path", (config.socketPath.map PyPath.str).getD "None")] ++
    (provider ++ (llm ++ (alerts ++ (recordingLines config.llmRecording ++ tiering)))))

/-- `_add`. -/
def addLine (enforcedPaths : List String) (shown : String × String) : ShowLine :=
  ⟨shown.1, shown.2, decide (shown.1 ∈ enforcedPaths)⟩

/-- The lines of `_format_show_lines`, before they are put together. -/
def showLines (printer : Printer) (config : SporkConfig) (enforcedPaths : List String) :
    Except Exn (List ShowLine) :=
  (shownValues printer config).map fun shown => shown.map (addLine enforcedPaths)

/-- `_format_show_lines`. -/
def formatShowLines (printer : Printer) (config : SporkConfig) (enforcedPaths : List String) :
    Except Exn (List String) :=
  (showLines printer config enforcedPaths).map fun lines => lines.map ShowLine.text

end Spork
