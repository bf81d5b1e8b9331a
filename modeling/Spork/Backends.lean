import Spork.Config.Schema
import Spork.Secrets

/-!
# Secrets for the backends

`core/runtime.py`: the secrets are resolved once, if there is a backend that maps one, and each
backend is constructed with the values of its own.
-/

set_option autoImplicit false

namespace Spork

open Effects
open Toml (Value Table)

/-- The backends of a configuration. -/
def SporkConfig.backendSpecs (config : SporkConfig) : List BackendSpec :=
  [config.provider, config.llm, config.alerts] ++ config.context.toList ++
    (config.receiptArchive.map fun archive => archive.extraction).toList

/-- `resolve_runtime_secrets`. -/
def resolveRuntimeSecrets (secretspecPath reason : String) (config : SporkConfig) :
    SecretsProg Secrets :=
  if config.backendSpecs.any fun spec => !spec.secretKwargs.isEmpty then
    resolveSecrets secretspecPath reason none none
  else pure ⟨[]⟩

/-- The arguments that are mapped to secrets, with their values. -/
def secretArguments (secrets : Secrets) : List (String × String) → Except Exn Table
  | [] => .ok []
  | (argument, secretName) :: items => do
    let value ← secrets.get secretName
    let arguments ← secretArguments secrets items
    .ok ((argument, .string value) :: arguments)

/-- `kwargs.update(items)`. -/
def updateItems (kwargs : Table) (items : Table) : Table :=
  items.foldl (fun t item => setItem item.1 item.2 t) kwargs

/-- `materialize_backend_kwargs`. -/
def materializeBackendKwargs (spec : BackendSpec) (secrets : Secrets) : Except Exn Table := do
  let arguments ← secretArguments secrets spec.secretKwargs
  .ok (updateItems spec.kwargs arguments)

end Spork
