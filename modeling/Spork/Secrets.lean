import Spork.Effects.Footprint
import Spork.Rules.Schema

/-!
# Secrets

`core/secrets.py` and `core/secret_store.py`: a manifest declares the names of secrets, the OS
keyring holds their values under a service name for each, and other providers are left to
SecretSpec's own resolver.
-/

set_option autoImplicit false

namespace Spork

open Effects
open Toml (Value Table)

/-! ## Calls -/

/-- What the code calls: `tomllib.load` of a manifest, `getuser`, the keyring and SecretSpec. -/
inductive SecretsOp where
  | loadManifest (path : String)
  | getUser
  | getPassword (service account : String)
  | setPassword (service account value : String)
  | resolveSdk (path : String) (provider profile : Option String) (reason : String)

/-- The calls and their answers. -/
def secretsSig : Sig where
  Op := SecretsOp
  Ret
    | .loadManifest _ => Table
    | .getUser => String
    | .getPassword _ _ => Option String
    | .setPassword _ _ _ => Unit
    | .resolveSdk _ _ _ _ => List (String × Option String)
  Err := Exn

/-- A program over these calls. -/
abbrev SecretsProg (α : Type) : Type := Prog secretsSig α

/-- `SecretsError`. -/
def secretsError (message : String) : Exn := ⟨.other "SecretsError", message⟩

/-- `SecretStoreError`. -/
def secretStoreError (message : String) : Exn := ⟨.other "SecretStoreError", message⟩

/-- Run `p`, with the errors of these classes turned into others. -/
def translating {α : Type} (classes : List ExnClass) (f : String → Exn) (p : SecretsProg α) :
    SecretsProg α :=
  p.tryCatch fun e => if e.cls ∈ classes then Prog.raise (f e.message) else Prog.raise e

/-- Run `p`, with every `Exception` turned into another. -/
def translatingAll {α : Type} (f : String → Exn) (p : SecretsProg α) : SecretsProg α :=
  p.tryCatch fun e => Prog.raise (f e.message)

/-- The value, or the error. -/
def SecretsProg.ofExcept {α : Type} : Except Exn α → SecretsProg α
  | .ok a => pure a
  | .error e => Prog.raise e

/-! ## Manifests -/

/-- The class of a date or time that is written so. -/
def datetimeClass (text : String) : String :=
  if (text.toList.drop 2).head? = some ':' then "datetime.time"
  else if text.toList.length = 10 then "datetime.date"
  else "datetime.datetime"

/-- `v[key]`. -/
def subscript (v : Value) (key : String) : Except Exn Value :=
  match v with
  | .table t =>
    match t.lookup key with
    | some w => .ok w
    | none => .error ⟨.other "KeyError", pyRepr key⟩
  | .string _ => .error ⟨.other "TypeError", "string indices must be integers, not 'str'"⟩
  | .array _ => .error ⟨.other "TypeError", "list indices must be integers or slices, not str"⟩
  | .boolean _ => .error ⟨.other "TypeError", "'bool' object is not subscriptable"⟩
  | .integer _ => .error ⟨.other "TypeError", "'int' object is not subscriptable"⟩
  | .float _ => .error ⟨.other "TypeError", "'float' object is not subscriptable"⟩
  | .datetime text =>
    .error ⟨.other "TypeError", "'" ++ datetimeClass text ++ "' object is not subscriptable"⟩

/-- `document["project"]["name"]`. -/
def projectName (document : Table) : Except Exn Value := do
  let project ← subscript (.table document) "project"
  subscript project "name"

/-- `document["profiles"][profile]`. -/
def profileOf (document : Table) (profile : String) : Except Exn Value := do
  let profiles ← subscript (.table document) "profiles"
  subscript profiles profile

/-- What the readers of a manifest catch. -/
def manifestErrors : List ExnClass :=
  [.other "KeyError", .other "OSError", .other "TypeError", .other "TOMLDecodeError"]

/-- The service name of a secret. -/
def serviceName (project profile name : String) : String :=
  "secretspec/" ++ project ++ "/" ++ profile ++ "/" ++ name

/-! ## Storing -/

/-- `keyring_service_name`. -/
def keyringServiceName (path name profile : String) : SecretsProg String := do
  let project : Value ← translating manifestErrors
    (fun message => secretStoreError ("invalid SecretSpec manifest: " ++ path ++ ": " ++ message))
    (do
      let document : Table ← .perform (S := secretsSig) (.loadManifest path)
      SecretsProg.ofExcept (projectName document))
  match project with
  | .string project =>
    if project = "" then
      Prog.raise (secretStoreError ("invalid SecretSpec project name in " ++ path))
    else pure (serviceName project profile name)
  | _ => Prog.raise (secretStoreError ("invalid SecretSpec project name in " ++ path))

/-- `store_secret`. -/
def storeSecret (path name value profile : String) : SecretsProg Unit :=
  if value = "" then Prog.raise (secretStoreError ("cannot store an empty value for " ++ name))
  else do
    let service ← keyringServiceName path name profile
    translatingAll
      (fun message =>
        secretStoreError ("could not store " ++ name ++ " in the OS keyring: " ++ message))
      (do
        let account : String ← .perform (S := secretsSig) .getUser
        .perform (S := secretsSig) (.setPassword service account value))

/-! ## Resolving -/

/-- `Secrets`: the resolved values by their names. -/
structure Secrets where
  values : List (String × String)

/-- `Secrets.__repr__`. -/
def Secrets.repr (secrets : Secrets) : String :=
  "Secrets(names=" ++ pyReprSorted (secrets.values.map Prod.fst) ++ ")"

/-- `Secrets.get`. -/
def Secrets.get (secrets : Secrets) (name : String) : Except Exn String :=
  match secrets.values.lookup name with
  | some value => .ok value
  | none => .error (secretsError ("secret " ++ pyRepr name ++ " was not resolved; available: " ++
      pyReprSorted (secrets.values.map Prod.fst)))

/-- `bool(v)` of a value of TOML.  A float is false if it rounds to zero. -/
def tomlTruthy : Value → Bool
  | .string s => s != ""
  | .boolean b => b
  | .integer n => n != 0
  | .float text =>
    match floatValue text with
    | none => true
    | some q => decide (1 / 2 ^ 1075 < |q|)
  | .datetime _ => true
  | .array vs => !vs.isEmpty
  | .table kvs => !kvs.isEmpty

/-- `declaration.get("required", True)`. -/
def isRequired (declaration : Table) : Bool :=
  match declaration.lookup "required" with
  | some v => tomlTruthy v
  | none => true

/-- The loop of `_resolve_keyring`. -/
def readSecrets (project profile account : String) :
    Table → List (String × String) → List String → SecretsProg Secrets
  | [], values, missing =>
    if missing = [] then pure ⟨values⟩
    else Prog.raise (secretsError ("missing required secret(s): " ++
      String.intercalate ", " (missing.insertionSort (· ≤ ·))))
  | (name, .table declaration) :: declarations, values, missing => do
    let value : Option String ← translatingAll
      (fun message =>
        secretsError ("could not read " ++ name ++ " from the OS keyring: " ++ message))
      (.perform (S := secretsSig) (.getPassword (serviceName project profile name) account))
    match value with
    | some value =>
      readSecrets project profile account declarations (values ++ [(name, value)]) missing
    | none =>
      if isRequired declaration then
        readSecrets project profile account declarations values (missing ++ [name])
      else readSecrets project profile account declarations values missing
  | _ :: _, _, _ => Prog.raise (secretsError "invalid SecretSpec secret declaration")

/-- `profile or "default"`. -/
def selectedProfile : Option String → String
  | none => "default"
  | some profile => if profile = "" then "default" else profile

/-- `_resolve_keyring`. -/
def resolveKeyring (path : String) (profile : Option String) : SecretsProg Secrets := do
  let (project, declarations) ← translating manifestErrors
    (fun message => secretsError ("could not read SecretSpec keyring manifest: " ++ message))
    (do
      let document : Table ← .perform (S := secretsSig) (.loadManifest path)
      let project ← SecretsProg.ofExcept (projectName document)
      let declarations ← SecretsProg.ofExcept (profileOf document (selectedProfile profile))
      pure (project, declarations))
  match project, declarations with
  | .string project, .table declarations => do
    let account : String ← .perform (S := secretsSig) .getUser
    readSecrets project (selectedProfile profile) account declarations [] []
  | _, _ => Prog.raise (secretsError "invalid SecretSpec keyring manifest")

/-- What the manifest says about the provider. -/
def providerOf (document : Table) : Except Exn (Option String) :=
  match document.lookup "providers" with
  | none => .ok none
  | some (.table providers) =>
    match providers.lookup "default" with
    | none => .ok none
    | some (.string provider) =>
      .ok (some (if provider = "keyring://" then "keyring" else provider))
    | some _ => .error (secretsError "SecretSpec providers.default must be a string")
  | some _ => .error (secretsError "SecretSpec [providers] must be a table")

/-- `_manifest_provider`. -/
def manifestProvider (path : String) : SecretsProg (Option String) := do
  let document : Table ← translating [.other "OSError", .other "TOMLDecodeError"]
    (fun message => secretsError ("could not read SecretSpec manifest: " ++ message))
    (.perform (S := secretsSig) (.loadManifest path))
  SecretsProg.ofExcept (providerOf document)

/-- `resolve_secrets`. -/
def resolveSecrets (path reason : String) (provider profile : Option String) :
    SecretsProg Secrets := do
  let provider ← match provider with
    | none => manifestProvider path
    | some provider => pure (some provider)
  if provider = some "keyring" then resolveKeyring path profile
  else
    let resolved : List (String × Option String) ← translating [.other "SecretSpecError"]
      secretsError (.perform (S := secretsSig) (.resolveSdk path provider profile reason))
    pure ⟨resolved.filterMap fun field => field.2.map (field.1, ·)⟩

end Spork
