import Spork.Config.Loader
import Spork.Rules.Schema
import Spork.Pipeline.Tier2.Modules

/-!
# The configuration

`core/config/schema.py` as pydantic applies it to the merged table, and `load_config` on top of the
merge.  A key that is not a field is an error everywhere, so an accepted table has no other keys
than the ones that are listed here.

How pydantic reads a number is not part of this repository (`NumberFields`); all that matters is
that a table is none.
-/

set_option autoImplicit false

namespace Spork

open Toml (Value Table)

/-! ## Fields -/

/-- How pydantic reads a `float` and an `int`: from a number, a boolean or a text. -/
structure NumberFields where
  float : Value → Option PyFloat
  int : Value → Option Int
  float_table : ∀ t, float (.table t) = none
  int_table : ∀ t, int (.table t) = none

/-- `Path`. -/
def validatePath (v : Value) : Option PyPath := (validateStr v).map PyPath.parse

/-- `dict[str, Any]`. -/
def validateDict : Value → Option Table
  | .table t => some t
  | _ => none

/-- `dict[str, str]`. -/
def validateStrDict : Value → Option (List (String × String))
  | .table t => t.mapM fun item => (validateStr item.2).map (item.1, ·)
  | _ => none

/-- `Literal["escalate", "ignore"]`. -/
def validateUnmatchedAction (v : Value) : Option ActionType := do
  let s ← validateStr v
  [ActionType.escalate, .ignore].find? fun type => type.value = s

/-- `Literal["DEBUG", "INFO", "WARNING", "ERROR", "CRITICAL"]`. -/
def validateLogLevel (v : Value) : Option String := do
  let s ← validateStr v
  ["DEBUG", "INFO", "WARNING", "ERROR", "CRITICAL"].find? (· = s)

/-! ## Models -/

/-- A dynamically-loaded backend's spec and constructor arguments.  No argument comes from both
sources. -/
structure BackendSpec where
  spec : String
  kwargs : Table := []
  secretKwargs : List (String × String) := []
  disjoint : ∀ item ∈ kwargs, item.1 ∉ secretKwargs.map Prod.fst

/-- `BackendSpec.model_validate`, with `disallow_overlapping_kwargs` at the end. -/
def BackendSpec.validate : Value → Option BackendSpec
  | .table t =>
    if forbidExtra ["spec", "kwargs", "secret_kwargs"] t then do
      let spec ← required validateStr t "spec"
      let kwargs ← defaulted validateDict [] t "kwargs"
      let secretKwargs ← defaulted validateStrDict [] t "secret_kwargs"
      if h : ∀ item ∈ kwargs, item.1 ∉ secretKwargs.map Prod.fst then
        some ⟨spec, kwargs, secretKwargs, h⟩
      else none
    else none
  | _ => none

/-- The private corpus of recorded exchanges. -/
structure LLMRecordingConfig where
  corpusPath : PyPath

/-- `LLMRecordingConfig.model_validate`. -/
def LLMRecordingConfig.validate : Value → Option LLMRecordingConfig
  | .table t =>
    if forbidExtra ["corpus_path"] t then do
      let corpusPath ← required validatePath t "corpus_path"
      some ⟨corpusPath⟩
    else none
  | _ => none

/-- The `[receipt_archive]` table as it is written. -/
structure Schema.ReceiptArchiveConfig where
  outputDir : PyPath
  extraction : BackendSpec

/-- `ReceiptArchiveConfig.model_validate`. -/
def Schema.ReceiptArchiveConfig.validate : Value → Option Schema.ReceiptArchiveConfig
  | .table t =>
    if forbidExtra ["output_dir", "extraction"] t then do
      let outputDir ← required validatePath t "output_dir"
      let extraction ← required BackendSpec.validate t "extraction"
      some ⟨outputDir, extraction⟩
    else none
  | _ => none

/-- The fields of `[tiering]`, in the order of the model. -/
def TieringConfig.modelFields : List String :=
  ["default_unmatched_action", "alert_threshold", "autoact_threshold", "daily_call_budget",
    "max_body_chars", "local_classifier", "allowed_categories"]

/-- `TieringConfig.model_validate`. -/
def TieringConfig.validate (numbers : NumberFields) : Value → Option TieringConfig
  | .table t =>
    if forbidExtra modelFields t then do
      let defaultUnmatchedAction ←
        defaulted validateUnmatchedAction .escalate t "default_unmatched_action"
      let alertThreshold ← defaulted numbers.float (.fin (55 / 100)) t "alert_threshold"
      let autoactThreshold ← defaulted numbers.float (.fin (85 / 100)) t "autoact_threshold"
      let dailyCallBudget ← defaulted numbers.int 200 t "daily_call_budget"
      let maxBodyChars ← defaulted numbers.int 4000 t "max_body_chars"
      let localClassifier ← nullable validateStr t "local_classifier"
      let allowedCategories ← defaulted validateStrs [] t "allowed_categories"
      some ⟨defaultUnmatchedAction, alertThreshold, autoactThreshold, dailyCallBudget,
        maxBodyChars, localClassifier, allowedCategories⟩
    else none
  | _ => none

/-- The fully-merged, validated shape of `config.toml`. -/
structure SporkConfig where
  provider : BackendSpec
  llm : BackendSpec
  alerts : BackendSpec
  context : Option BackendSpec := none
  llmRecording : Option LLMRecordingConfig := none
  receiptArchive : Option Schema.ReceiptArchiveConfig := none
  rulesPath : PyPath
  dbPath : PyPath
  socketPath : Option PyPath := none
  tiering : TieringConfig := {}
  logLevel : String := "INFO"

/-- The keys of the whole table. -/
def SporkConfig.modelFields : List String :=
  ["provider", "llm", "alerts", "context", "llm_recording", "receipt_archive", "rules_path",
    "db_path", "socket_path", "tiering", "log_level"]

/-- `SporkConfig.model_validate`. -/
def SporkConfig.validate (numbers : NumberFields) (t : Table) : Option SporkConfig :=
  if forbidExtra modelFields t then do
    let provider ← required BackendSpec.validate t "provider"
    let llm ← required BackendSpec.validate t "llm"
    let alerts ← required BackendSpec.validate t "alerts"
    let context ← nullable BackendSpec.validate t "context"
    let llmRecording ← nullable LLMRecordingConfig.validate t "llm_recording"
    let receiptArchive ← nullable Schema.ReceiptArchiveConfig.validate t "receipt_archive"
    let rulesPath ← required validatePath t "rules_path"
    let dbPath ← required validatePath t "db_path"
    let socketPath ← nullable validatePath t "socket_path"
    let tiering ← defaulted (TieringConfig.validate numbers) {} t "tiering"
    let logLevel ← defaulted validateLogLevel "INFO" t "log_level"
    some ⟨provider, llm, alerts, context, llmRecording, receiptArchive, rulesPath, dbPath,
      socketPath, tiering, logLevel⟩
  else none

/-! ## Loading -/

/-- Why there is no configuration. -/
inductive LoadConfigFailure where
  | tier (e : ConfigLoadFailure)
  | invalidConfig
  deriving DecidableEq, Repr

/-- `load_config`, where `socketPath` is what `resolve_socket_path` finds. -/
def loadConfig (numbers : NumberFields) (socketPath : PyPath)
    (systemDefaults : List (Option String)) (user enforced : Option String) :
    Except LoadConfigFailure SporkConfig :=
  match mergeTiers systemDefaults user enforced with
  | .error e => .error (.tier e)
  | .ok merged =>
    match SporkConfig.validate numbers merged with
    | none => .error .invalidConfig
    | some config =>
      match config.socketPath with
      | none => .ok { config with socketPath := some socketPath }
      | some _ => .ok config

end Spork
