import Spork.TextFile
import Spork.Toml.Document

/-!
# Merging the configuration

`core/config/loader.py`: the three tiers of `config.toml`, each read as a TOML table, are merged
with the later ones winning key by key, and the leaves of the enforced tier are listed by their
dotted names.

A table is a `dict`, so no key of it is there twice (`RawConfig`).  What the merged table has to
look like to be a `SporkConfig` is not part of this file.
-/

set_option autoImplicit false

namespace Spork

open Toml (Value Table)

/-! ## Reading a tier -/

/-- Why a tier cannot be read. -/
inductive ConfigLoadFailure where
  | invalidToml (e : Toml.Error)
  /-- The `ValueError` of an integer with too many digits, which is not a `ConfigLoadError`. -/
  | valueError
  deriving DecidableEq, Repr

/-- `_read_toml`: a missing file overrides nothing. -/
def readToml (file : Option String) : Except ConfigLoadFailure Table :=
  match file with
  | none => .ok []
  | some content =>
    match Toml.loads (readText content) with
    | .error .tooManyDigits => .error .valueError
    | .error e => .error (.invalidToml e)
    | .ok raw => .ok raw

/-! ## Merging -/

/-- `merged[key] = value`: a new key goes to the end. -/
def setItem (key : String) (value : Value) (t : Table) : Table :=
  if (t.lookup key).isSome then Toml.setKey key value t else t ++ [(key, value)]

mutual

/-- `_deep_merge`, over the items of `override`. -/
def deepMerge (base : Table) : Table → Table
  | [] => base
  | item :: override =>
    deepMerge (setItem item.1 (mergeItem (base.lookup item.1) item) base) override

/-- The value an item of `override` leaves behind, given what was there. -/
def mergeItem (old : Option Value) : String × Value → Value
  | (_, value) => mergeValue old value

/-- Two tables are merged; in every other case the new value stays. -/
def mergeValue (old : Option Value) : Value → Value
  | .table override =>
    match old with
    | some (.table base) => .table (deepMerge base override)
    | _ => .table override
  | value => value

end

/-- The merge of `load_config`.  Of the system default files the first that exists counts. -/
def mergeTiers (systemDefaults : List (Option String)) (user enforced : Option String) :
    Except ConfigLoadFailure Table := do
  let systemDefault ← readToml (systemDefaults.find? Option.isSome).join
  let user ← readToml user
  let enforced ← readToml enforced
  .ok (deepMerge (deepMerge systemDefault user) enforced)

/-! ## Listing the leaves -/

mutual

/-- `_flatten_keys`. -/
def flattenKeys (pre : String) : Table → List String
  | [] => []
  | item :: raw =>
    flattenItem (if pre = "" then item.1 else pre ++ "." ++ item.1) item ++ flattenKeys pre raw

def flattenItem (path : String) : String × Value → List String
  | (_, value) => flattenValue path value

/-- The names below one key: its own, or those inside its table. -/
def flattenValue (path : String) : Value → List String
  | .table raw => flattenKeys path raw
  | _ => [path]

end

/-- `enforced_override_paths`. -/
def enforcedOverridePaths (enforced : Option String) : Except ConfigLoadFailure (List String) := do
  let raw ← readToml enforced
  .ok (flattenKeys "" raw)

end Spork
