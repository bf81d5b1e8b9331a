import Spork.Backends
import Spork.Guarantees.EnforcedTier
import Spork.Guarantees.Secrets
import Spork.Toml.Keys

/-!
# What the backends are constructed with

* `backends_get_their_secrets`: from enrolling to the arguments of a constructor.
-/

set_option autoImplicit false

namespace Spork

open Effects Machine
open Toml (Value Table of_bind_ok)

/-! ## Arguments -/

variable {secrets : Secrets} {items : List (String × String)} {arguments : Table}

theorem mem_of_lookup_eq {argument secretName : String}
    (h : items.lookup argument = some secretName) : (argument, secretName) ∈ items := by
  obtain ⟨before, after, rfl, -⟩ := List.lookup_eq_some_iff.1 h
  exact List.mem_append_right _ List.mem_cons_self

theorem get_ok_iff {name value : String} :
    secrets.get name = .ok value ↔ secrets.values.lookup name = some value := by
  rw [Secrets.get]
  cases secrets.values.lookup name with
  | none => simp
  | some value' => simp

theorem secretArguments_ok (h : secretArguments secrets items = .ok arguments) :
    (∀ item ∈ items, (secrets.values.lookup item.2).isSome) ∧
      arguments.map Prod.fst = items.map Prod.fst ∧
      ∀ argument, arguments.lookup argument = (items.lookup argument).bind fun secretName =>
        (secrets.values.lookup secretName).map Value.string := by
  induction items generalizing arguments with
  | nil =>
    cases h
    exact ⟨(fun _ h => nomatch h), rfl, fun _ => rfl⟩
  | cons item items ih =>
    obtain ⟨argument, secretName⟩ := item
    obtain ⟨value, hget, h⟩ := of_bind_ok h
    obtain ⟨rest, hrest, h⟩ := of_bind_ok h
    cases h
    obtain ⟨hall, hkeys, hlookup⟩ := ih hrest
    have hvalue := get_ok_iff.1 hget
    refine ⟨List.forall_mem_cons.2 ⟨by rw [hvalue]; rfl, hall⟩, by simp [hkeys], fun other => ?_⟩
    by_cases hother : other = argument
    · subst hother
      simp [hvalue]
    · simp [List.lookup_cons, beq_eq_false_iff_ne.2 hother, hlookup]

theorem exists_secretArguments (h : ∀ item ∈ items, (secrets.values.lookup item.2).isSome) :
    ∃ arguments, secretArguments secrets items = .ok arguments := by
  induction items with
  | nil => exact ⟨[], rfl⟩
  | cons item items ih =>
    obtain ⟨argument, secretName⟩ := item
    rw [List.forall_mem_cons] at h
    obtain ⟨value, hvalue⟩ := Option.isSome_iff_exists.1 h.1
    obtain ⟨rest, hrest⟩ := ih h.2
    refine ⟨(argument, .string value) :: rest, ?_⟩
    rw [secretArguments, get_ok_iff.2 hvalue, hrest]
    rfl

theorem lookup_updateItems {kwargs : Table} {items : Table} (hd : (items.map Prod.fst).Nodup)
    (argument : String) : (updateItems kwargs items).lookup argument
      = (items.lookup argument).or (kwargs.lookup argument) := by
  induction items generalizing kwargs with
  | nil => rfl
  | cons item items ih =>
    obtain ⟨key, value⟩ := item
    rw [List.map_cons, List.nodup_cons] at hd
    have hrest : (updateItems kwargs ((key, value) :: items)).lookup argument
        = (items.lookup argument).or ((setItem key value kwargs).lookup argument) := ih hd.2
    rw [hrest, lookup_setItem]
    by_cases hargument : argument = key
    · have hnone : items.lookup argument = none := by
        refine List.lookup_eq_none_iff.2 fun other hother => bne_iff_ne.2 fun he => hd.1 ?_
        rw [← hargument, he]
        exact List.mem_map.2 ⟨other, hother, rfl⟩
      rw [hnone]
      simp [hargument]
    · simp [hargument, List.lookup_cons, beq_eq_false_iff_ne.2 hargument]

/-- What a constructor gets under an argument. -/
theorem lookup_materialize {spec : BackendSpec} {kwargs : Table}
    (hkeys : (spec.secretKwargs.map Prod.fst).Nodup)
    (h : materializeBackendKwargs spec secrets = .ok kwargs) (argument : String) :
    kwargs.lookup argument = match spec.secretKwargs.lookup argument with
      | some secretName => (secrets.values.lookup secretName).map Value.string
      | none => spec.kwargs.lookup argument := by
  obtain ⟨arguments, harguments, h⟩ := of_bind_ok h
  cases h
  obtain ⟨hall, hnames, hlookup⟩ := secretArguments_ok harguments
  rw [lookup_updateItems (hnames ▸ hkeys), hlookup]
  cases hsecret : spec.secretKwargs.lookup argument with
  | none => rfl
  | some secretName =>
    obtain ⟨value, hvalue⟩ := Option.isSome_iff_exists.1 (hall _ (mem_of_lookup_eq hsecret))
    dsimp only at hvalue
    simp [hvalue]

theorem materialize_ok_iff {spec : BackendSpec} :
    (∃ kwargs, materializeBackendKwargs spec secrets = .ok kwargs) ↔
      ∀ item ∈ spec.secretKwargs, (secrets.values.lookup item.2).isSome := by
  constructor
  · rintro ⟨kwargs, h⟩
    obtain ⟨arguments, harguments, -⟩ := of_bind_ok h
    exact (secretArguments_ok harguments).1
  · intro h
    obtain ⟨arguments, harguments⟩ := exists_secretArguments h
    exact ⟨_, by rw [materializeBackendKwargs, harguments]; rfl⟩

/-! ## Startup -/

variable {w : SecretsWorld} {q : Prop}

/-- At startup the secrets are resolved, unless there is none to be mapped. -/
theorem resolveRuntimeSecrets_spec {path project : String} {declarations : List (String × Table)}
    (hd : Declares w path project "default" declarations) (hp : UsesKeyring w path none)
    {value : String → Option String}
    (hvalue : ∀ name, value name = w.keyring (serviceName project "default" name, w.account))
    (reason : String) (config : SporkConfig) :
    wp (quietKeyring q) (· = w) (resolveRuntimeSecrets path reason config)
      (fun r _ => ∀ secrets, r = .ok secrets →
        resolvedSecrets declarations value = .ok secrets ∨
          ∀ spec ∈ config.backendSpecs, spec.secretKwargs = []) w := by
  rw [resolveRuntimeSecrets]
  split
  · exact wp_mono (fun _ => id) (fun r w' _ hr secrets hsecrets => .inl (hr.1 secrets hsecrets))
      (resolveSecrets_spec hd hp hvalue)
  · next hnone =>
    refine ⟨rfl, fun secrets _ => .inr fun spec hspec => ?_⟩
    rw [List.any_eq_true, not_exists] at hnone
    simpa [hspec] using hnone spec

/-- **From the keyring to the constructor.**  After any calls of `store_secret`, a backend can be
constructed exactly if each secret it maps is declared and has a value; and then it gets, for each
argument that is mapped, the value that was last stored for that secret, or what the keyring held
before, for the others what the configuration says, and nothing else. -/
theorem backends_get_their_secrets {stores : List (Store × Bool)} {w w' : SecretsWorld}
    (h : Stores stores w w') {path project reason : String} {declarations : List (String × Table)}
    (hd : Declares w path project "default" declarations) (hp : UsesKeyring w path none)
    {config : SporkConfig} {nothingFails : Prop} {secrets : Secrets} {w'' : SecretsWorld}
    (hr : Reaches (quietKeyring nothingFails) (resolveRuntimeSecrets path reason config) w'
      (.done (.ok secrets)) w'')
    {spec : BackendSpec} (hspec : spec ∈ config.backendSpecs)
    (hkeys : (spec.secretKwargs.map Prod.fst).Nodup) :
    ∃ value : String → Option String,
      (∀ name c, Dicts.LastWhere (StoredAt w (serviceName project "default" name)) stores c →
        value name = some c.1.value) ∧
      (∀ name, (∀ c ∈ stores, ¬StoredAt w (serviceName project "default" name) c) →
        value name = w.keyring (serviceName project "default" name, w.account)) ∧
      ((∃ kwargs, materializeBackendKwargs spec secrets = .ok kwargs) ↔
        ∀ item ∈ spec.secretKwargs,
          item.2 ∈ declarations.map Prod.fst ∧ (value item.2).isSome) ∧
      ∀ kwargs, materializeBackendKwargs spec secrets = .ok kwargs → ∀ argument,
        kwargs.lookup argument = match spec.secretKwargs.lookup argument with
          | some secretName => (value secretName).map Value.string
          | none => spec.kwargs.lookup argument := by
  have hleft := h.left
  have hd' : Declares w' path project "default" declarations := by
    rwa [Declares, hleft.manifest]
  have hp' : UsesKeyring w' path none := by
    rwa [UsesKeyring, hleft.manifest]
  obtain ⟨value, hvalue⟩ : ∃ value : String → Option String, ∀ name, value name
      = w'.keyring (serviceName project "default" name, w'.account) := ⟨_, fun _ => rfl⟩
  have hresolved := (wp_reaches
    (resolveRuntimeSecrets_spec (q := nothingFails) hd' hp' hvalue reason config) hr).2 secrets rfl
  have hfound : ∀ item ∈ spec.secretKwargs, secrets.values.lookup item.2
      = if item.2 ∈ declarations.map Prod.fst then value item.2 else none := by
    intro item hitem
    rcases hresolved with hresolved | hnone
    · rw [values_of_gathered hresolved, lookup_gathered]
    · rw [hnone spec hspec] at hitem
      cases hitem
  have hsome : ∀ item ∈ spec.secretKwargs, (secrets.values.lookup item.2).isSome ↔
      item.2 ∈ declarations.map Prod.fst ∧ (value item.2).isSome := by
    intro item hitem
    rw [hfound item hitem]
    split <;> simp_all
  refine ⟨value, fun name c hc => ?_, fun name hnone => ?_, ?_, fun kwargs hkwargs argument => ?_⟩
  · rw [hvalue, hleft.account]
    exact hleft.stored _ c hc
  · rw [hvalue, hleft.account]
    exact hleft.kept _ hnone
  · exact materialize_ok_iff.trans (forall₂_congr hsome)
  · rw [lookup_materialize hkeys hkwargs]
    cases hsecret : spec.secretKwargs.lookup argument with
    | none => rfl
    | some secretName =>
      have hmem := mem_of_lookup_eq hsecret
      have hdeclared := (hsome _ hmem).1 (materialize_ok_iff.1 ⟨kwargs, hkwargs⟩ _ hmem)
      have hlookup := hfound _ hmem
      rw [if_pos hdeclared.1] at hlookup
      exact congrArg (Option.map Value.string) hlookup

/-- A provider that is given the token. -/
def tokenSpec : BackendSpec where
  spec := "pkg:Provider"
  secretKwargs := [("api_token", "TOKEN")]
  disjoint _ h := absurd h List.not_mem_nil

/-- Its configuration. -/
def tokenConfig : SporkConfig where
  provider := tokenSpec
  llm := ⟨"pkg:Client", [], [], fun _ h => absurd h List.not_mem_nil⟩
  alerts := ⟨"pkg:Alerter", [], [], fun _ h => absurd h List.not_mem_nil⟩
  rulesPath := ⟨"/", ["etc", "rules.toml"]⟩
  dbPath := ⟨"/", ["var", "state.sqlite3"]⟩

theorem manifest_uses_keyring : UsesKeyring emptyKeyring "secretspec.toml" none :=
  ⟨oneSecret, oneSecretDocument, rfl, loads_oneSecret, rfl⟩

theorem resolves_token_at_startup :
    Reaches (quietKeyring True) (resolveRuntimeSecrets "secretspec.toml" "startup" tokenConfig)
      (emptyKeyring.put tokenService "abc") (.done (.ok ⟨[("TOKEN", "abc")]⟩))
      (emptyKeyring.put tokenService "abc") := by
  refine .head (.call ⟨reads_oneSecret rfl, fun _ => ⟨_, rfl⟩⟩) ?_
  refine .head (.call ⟨reads_oneSecret rfl, fun _ => ⟨_, rfl⟩⟩) ?_
  refine .head (.call ⟨reads_account _, fun _ => ⟨_, rfl⟩⟩) ?_
  refine .head (.call (r := .ok (some "abc" : Option String)) ⟨⟨rfl, rfl⟩, fun _ => ⟨_, rfl⟩⟩) ?_
  exact .refl

/-- The provider gets the token that was stored. -/
theorem backends_get_their_secrets_token :
    ∃ kwargs, materializeBackendKwargs tokenSpec ⟨[("TOKEN", "abc")]⟩ = .ok kwargs ∧
      kwargs.lookup "api_token" = some (.string "abc") := by
  obtain ⟨value, hstored, -, hiff, hkwargs⟩ :=
    backends_get_their_secrets stores_token declares_token manifest_uses_keyring
      resolves_token_at_startup (show tokenSpec ∈ tokenConfig.backendSpecs from List.mem_cons_self)
      (List.nodup_singleton _)
  have htoken : value "TOKEN" = some "abc" :=
    hstored "TOKEN" _ ⟨[], [], rfl, storedAt_token, fun _ h => nomatch h⟩
  obtain ⟨kwargs, hok⟩ := hiff.2 (by simp [tokenSpec, htoken])
  refine ⟨kwargs, hok, ?_⟩
  rw [hkwargs kwargs hok "api_token"]
  simp [tokenSpec, htoken]

end Spork
