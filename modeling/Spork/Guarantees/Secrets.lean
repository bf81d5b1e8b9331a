import Spork.Dicts
import Spork.Effects.LastCall
import Spork.Secrets

/-!
# Enrolling and resolving secrets

* `enrolled_secrets_resolve`: what has been stored is what is resolved.
-/

set_option autoImplicit false

namespace Spork

open Effects Machine
open Toml (Value Table)

/-! ## The keyring -/

/-- The manifests, the user and the keyring, by service and account. -/
structure SecretsWorld where
  manifest : String → Option String
  account : String
  keyring : String × String → Option String

/-- The value is stored. -/
def SecretsWorld.put (w : SecretsWorld) (service value : String) : SecretsWorld :=
  { w with keyring := Function.update w.keyring (service, w.account) (some value) }

/-- What the calls may do.  Each may fail, and then it has done nothing. -/
def keyringMachine : Machine secretsSig SecretsWorld := fun w op r w' =>
  match op, r with
  | .loadManifest path, .ok document =>
    (∃ content, w.manifest path = some content ∧ Toml.loads content = .ok document) ∧ w' = w
  | .getUser, .ok (account : String) => account = w.account ∧ w' = w
  | .getPassword service account, .ok (value : Option String) =>
    value = w.keyring (service, account) ∧ w' = w
  | .setPassword service account value, .ok _ =>
    w' = { w with keyring := Function.update w.keyring (service, account) (some value) }
  | _, _ => w' = w

/-! ## Storing -/

/-- The arguments of one `store_secret`. -/
structure Store where
  path : String
  name : String
  value : String
  profile : String

/-- The call. -/
def Store.run (s : Store) : SecretsProg Unit := storeSecret s.path s.name s.value s.profile

/-- The service name that a manifest gives a secret. -/
def serviceIn (w : SecretsWorld) (path name profile : String) : Option String :=
  match (w.manifest path).map Toml.loads with
  | some (.ok document) =>
    match projectName document with
    | .ok (.string project) => some (serviceName project profile name)
    | _ => none
  | _ => none

/-- It sets a password. -/
def SecretsOp.Sets : SecretsOp → Prop
  | .setPassword _ _ _ => True
  | _ => False

theorem keyringMachine_keeps {w w' : SecretsWorld} {op : secretsSig.Op}
    {r : secretsSig.Outcome (secretsSig.Ret op)} (hop : ¬SecretsOp.Sets op)
    (h : keyringMachine w op r w') : w' = w := by
  cases op with
  | setPassword service account value => exact absurd trivial hop
  | loadManifest path => cases r with
    | ok document => exact h.2
    | error e => exact h
  | getUser => cases r with
    | ok account => exact h.2
    | error e => exact h
  | getPassword service account => cases r with
    | ok value => exact h.2
    | error e => exact h
  | resolveSdk path provider profile reason => cases r <;> exact h

theorem only_keyringServiceName (path name profile : String) :
    (keyringServiceName path name profile).Only fun op => ¬SecretsOp.Sets op := by
  refine Prog.Only.bind (Prog.Only.tryCatch (Prog.Only.bind ?_ fun document => ?_) fun e => ?_)
    fun project => ?_
  · exact Prog.only_perform.2 id
  · cases projectName document <;> trivial
  · exact Prog.Only.ite trivial trivial
  · split
    · exact Prog.Only.ite trivial trivial
    · trivial

theorem endsAt_store (s : Store) : s.run.EndsAt SecretsOp.Sets := by
  rw [Store.run, storeSecret]
  split
  · trivial
  · refine Prog.EndsAt.andThen (fun r => ?_) (only_keyringServiceName _ _ _)
    cases r with
    | error e => trivial
    | ok service =>
      rintro r
      refine ⟨?_, fun h => h.elim⟩
      cases r with
      | error e => trivial
      | ok account =>
        exact fun r => ⟨by cases r <;> trivial, fun _ => by cases r <;> exact ⟨_, rfl⟩⟩

/-- A translated program reaches what the program reaches, and returns what it returns. -/
theorem wp_translating {α : Type} {M : Machine secretsSig SecretsWorld} {I : SecretsWorld → Prop}
    {classes : List ExnClass} {f : String → Exn} {p : SecretsProg α} {w : SecretsWorld}
    {Q : Except Exn α → SecretsWorld → Prop}
    (herror : ∀ e w', I w' → Q (.error e) w' → ∀ e', Q (.error e') w') (h : wp M I p Q w) :
    wp M I (translating classes f p) Q w := by
  refine wp_tryCatch.2 (wp_mono (fun _ => id) (fun r w' hI hQ => ?_) h)
  cases r with
  | ok a => exact ⟨hI, hQ⟩
  | error e =>
    show wp M I (if e.cls ∈ classes then Prog.raise (f e.message) else Prog.raise e) Q w'
    split <;> exact ⟨hI, herror e w' hI hQ _⟩

theorem wp_translatingAll {α : Type} {M : Machine secretsSig SecretsWorld}
    {I : SecretsWorld → Prop} {f : String → Exn} {p : SecretsProg α} {w : SecretsWorld}
    {Q : Except Exn α → SecretsWorld → Prop}
    (herror : ∀ e w', I w' → Q (.error e) w' → ∀ e', Q (.error e') w') (h : wp M I p Q w) :
    wp M I (translatingAll f p) Q w := by
  refine wp_tryCatch.2 (wp_mono (fun _ => id) (fun r w' hI hQ => ?_) h)
  cases r with
  | ok a => exact ⟨hI, hQ⟩
  | error e => exact ⟨hI, herror e w' hI hQ _⟩

theorem wp_ofExcept {α : Type} {M : Machine secretsSig SecretsWorld} {I : SecretsWorld → Prop}
    {x : Except Exn α} {w : SecretsWorld} {Q : Except Exn α → SecretsWorld → Prop} (hI : I w)
    (h : Q x w) : wp M I (SecretsProg.ofExcept x) Q w := by
  cases x <;> exact ⟨hI, h⟩

variable {w : SecretsWorld}

/-- A program that leaves the world alone, and what follows it. -/
theorem wp_same_bind {α β : Type} {M : Machine secretsSig SecretsWorld} {p : SecretsProg α}
    {f : α → SecretsProg β} {Q : Except Exn α → SecretsWorld → Prop}
    {R : Except Exn β → SecretsWorld → Prop} (hp : wp M (· = w) p Q w)
    (hok : ∀ a, Q (.ok a) w → wp M (· = w) (f a) R w)
    (herror : ∀ e, Q (.error e) w → R (.error e) w) : wp M (· = w) (p >>= f) R w := by
  refine wp_bind.2 (wp_mono (fun _ => id) (fun r w' hI hQ => ?_) hp)
  obtain rfl : w' = w := hI
  cases r with
  | ok a => exact hok a hQ
  | error e => exact ⟨rfl, herror e hQ⟩

theorem keyringServiceName_spec (path name profile : String) :
    wp keyringMachine (· = w) (keyringServiceName path name profile)
      (fun r _ => ∀ service, r = .ok service → serviceIn w path name profile = some service) w := by
  have hproject : wp keyringMachine (· = w)
      (do
        let document : Table ← .perform (S := secretsSig) (.loadManifest path)
        SecretsProg.ofExcept (projectName document))
      (fun r _ => ∀ project : String, r = .ok (.string project) →
        serviceIn w path name profile = some (serviceName project profile name)) w := by
    refine wp_perform_bind rfl ?_ fun e w₁ h => ?_
    · rintro (document : Table) w₁ ⟨⟨content, hcontent, hloads⟩, rfl⟩
      refine wp_ofExcept rfl fun project hproject => ?_
      simp [serviceIn, hcontent, hloads, hproject]
    · exact ⟨h, fun _ h => by cases h⟩
  refine wp_same_bind (wp_translating (fun e w' _ _ e' _ h => by cases h) hproject) ?_
    fun e _ _ h => by cases h
  intro project hQ
  cases project with
  | string project =>
    dsimp only
    split
    · exact ⟨rfl, fun _ h => by cases h⟩
    · refine ⟨rfl, fun service h => ?_⟩
      cases h
      exact hQ project rfl
  | _ => exact ⟨rfl, fun _ h => by cases h⟩

/-- **What storing does**: the value is put under the service name, or nothing happens. -/
theorem store_spec (s : Store) :
    wp keyringMachine (fun _ => True) s.run (fun r w' => match r with
      | .ok _ => ∃ service, serviceIn w s.path s.name s.profile = some service ∧
          w' = w.put service s.value
      | .error _ => w' = w) w := by
  rw [Store.run, storeSecret]
  split
  · exact ⟨trivial, rfl⟩
  · refine wp_bind.2 (wp_mono (fun _ _ => trivial) (fun r w' hI hQ => ?_)
      (keyringServiceName_spec s.path s.name s.profile))
    obtain rfl : w' = w := hI
    cases r with
    | error e => exact ⟨trivial, rfl⟩
    | ok service =>
      rw [Prog.onValue]
      refine wp_translatingAll ?_ ?_
      · exact fun e w₁ _ h e' => h
      · refine wp_perform_bind trivial ?_ fun e w₁ h => ⟨trivial, h⟩
        rintro account w₁ ⟨rfl, rfl⟩
        refine wp_perform trivial fun r w₂ h => ⟨trivial, ?_⟩
        cases r with
        | error e => exact h
        | ok u => exact ⟨service, hQ service rfl, h⟩

/-- It has returned. -/
def SecretsProg.returned {α : Type} : SecretsProg α → Bool
  | .done (.ok _) => true
  | _ => false

/-- Calls of `store_secret`, one after another, each with whether it has returned.  One that has not
has raised, or has been cut off. -/
inductive Stores : List (Store × Bool) → SecretsWorld → SecretsWorld → Prop where
  | nil {w : SecretsWorld} : Stores [] w w
  | cons {s : Store} {p : SecretsProg Unit} {stores : List (Store × Bool)}
      {w w₁ w₂ : SecretsWorld} (h : Reaches keyringMachine s.run w p w₁)
      (hs : Stores stores w₁ w₂) : Stores ((s, SecretsProg.returned p) :: stores) w w₂

/-- The store has returned, and it was under this service name. -/
def StoredAt (w : SecretsWorld) (service : String) (c : Store × Bool) : Prop :=
  c.2 = true ∧ serviceIn w c.1.path c.1.name c.1.profile = some service

/-- **One store.** -/
theorem store_reaches {s : Store} {p : SecretsProg Unit} {w₁ : SecretsWorld}
    (h : Reaches keyringMachine s.run w p w₁) :
    (SecretsProg.returned p = true ∧ ∃ service,
      serviceIn w s.path s.name s.profile = some service ∧ w₁ = w.put service s.value) ∨
    (SecretsProg.returned p = false ∧ w₁ = w) := by
  rcases (endsAt_store s).reaches (fun op r w₁ => keyringMachine_keeps) h with rfl | ⟨r, rfl⟩
  · cases p with
    | call op k => exact .inr ⟨rfl, rfl⟩
    | done r =>
      have hspec := (wp_reaches (store_spec s) h).2
      cases r with
      | ok u => exact .inl ⟨rfl, hspec⟩
      | error e => exact .inr ⟨rfl, rfl⟩
  · have hspec := (wp_reaches (store_spec s) h).2
    cases r with
    | ok u => exact .inl ⟨rfl, hspec⟩
    | error e => exact .inr ⟨rfl, hspec⟩

/-- What a sequence of stores leaves in the keyring. -/
structure Left (w w' : SecretsWorld) (stores : List (Store × Bool)) : Prop where
  manifest : w'.manifest = w.manifest
  account : w'.account = w.account
  stored : ∀ service c, Dicts.LastWhere (StoredAt w service) stores c →
    w'.keyring (service, w.account) = some c.1.value
  kept : ∀ service, (∀ c ∈ stores, ¬StoredAt w service c) →
    w'.keyring (service, w.account) = w.keyring (service, w.account)

theorem serviceIn_congr {w w' : SecretsWorld} (h : w'.manifest = w.manifest) :
    serviceIn w' = serviceIn w := by
  funext path name profile
  rw [serviceIn, serviceIn, h]

theorem storedAt_put (service value : String) :
    StoredAt (w.put service value) = StoredAt w := by
  funext service' c
  rw [StoredAt, StoredAt, @serviceIn_congr w (w.put service value) rfl]

/-- The keyring after a store. -/
theorem put_keyring (service value service' : String) :
    (w.put service value).keyring (service', w.account)
      = if service = service' then some value else w.keyring (service', w.account) := by
  by_cases h : service = service'
  · subst h
    simp [SecretsWorld.put]
  · have hne : (service', w.account) ≠ (service, w.account) := fun he =>
      h (congrArg Prod.fst he).symm
    simp [SecretsWorld.put, Function.update_of_ne hne, h]

/-- A store that returned, and others after it. -/
theorem Left.cons_put {s : Store} {service : String} {stores : List (Store × Bool)}
    {w' : SecretsWorld} (h : Left (w.put service s.value) w' stores)
    (hs : serviceIn w s.path s.name s.profile = some service) :
    Left w w' ((s, true) :: stores) := by
  have hhere : ∀ service', StoredAt w service' (s, true) ↔ service = service' := by
    intro service'
    rw [StoredAt, hs, Option.some.injEq, and_iff_right rfl]
  refine ⟨h.manifest, h.account, fun service' c hc => ?_, fun service' hnone => ?_⟩
  · rcases Dicts.lastWhere_cons.1 hc with hlater | ⟨rfl, hp, hlater⟩
    · exact h.stored service' c (by rwa [storedAt_put])
    · have hkept := h.kept service' (by rwa [storedAt_put])
      exact hkept.trans ((put_keyring _ _ _).trans (if_pos ((hhere service').1 hp)))
  · rw [List.forall_mem_cons] at hnone
    have hkept := h.kept service' (by rw [storedAt_put]; exact hnone.2)
    exact hkept.trans ((put_keyring _ _ _).trans (if_neg fun he => hnone.1 ((hhere service').2 he)))

/-- A store that did not return, and others after it. -/
theorem Left.cons_skip {s : Store} {stores : List (Store × Bool)} {w' : SecretsWorld}
    (h : Left w w' stores) : Left w w' ((s, false) :: stores) := by
  refine ⟨h.manifest, h.account, fun service c hc => ?_, fun service hnone => ?_⟩
  · rcases Dicts.lastWhere_cons.1 hc with hlater | ⟨rfl, hp, -⟩
    · exact h.stored service c hlater
    · cases hp.1
  · exact h.kept service fun c hc => hnone c (List.mem_cons_of_mem _ hc)

theorem Stores.left {stores : List (Store × Bool)} {w w' : SecretsWorld}
    (h : Stores stores w w') : Left w w' stores := by
  induction h with
  | nil => exact ⟨rfl, rfl, fun _ _ h => absurd h.mem List.not_mem_nil, fun _ _ => rfl⟩
  | cons hrun _ ih =>
    rcases store_reaches hrun with ⟨hreturned, service, hservice, rfl⟩ | ⟨hreturned, rfl⟩
    · rw [hreturned]
      exact ih.cons_put hservice
    · rw [hreturned]
      exact ih.cons_skip

/-! ## Resolving -/

/-- The same, where `q` says that nothing fails. -/
def quietKeyring (q : Prop) : Machine secretsSig SecretsWorld := fun w op r w' =>
  keyringMachine w op r w' ∧ (q → ∃ a, r = .ok a)

/-- The required names without a value. -/
def missingSecrets (declarations : List (String × Table)) (value : String → Option String) :
    List String :=
  (declarations.filter fun d => isRequired d.2 && (value d.1).isNone).map Prod.fst

/-- How the loop of `_resolve_keyring` ends. -/
def gathered (values : List (String × String)) (missing : List String) : Except Exn Secrets :=
  if missing = [] then .ok ⟨values⟩
  else .error (secretsError ("missing required secret(s): " ++
    String.intercalate ", " (missing.insertionSort (· ≤ ·))))

/-- What a profile's declarations resolve to, by the values of the names. -/
def resolvedSecrets (declarations : List (String × Table)) (value : String → Option String) :
    Except Exn Secrets :=
  gathered (declarations.filterMap fun d => (value d.1).map (d.1, ·))
    (missingSecrets declarations value)

theorem values_of_gathered {values : List (String × String)} {missing : List String}
    {secrets : Secrets} (h : gathered values missing = .ok secrets) : secrets.values = values := by
  rw [gathered] at h
  split at h <;> cases h
  rfl

/-- What has been found for a declared name is found under it. -/
theorem lookup_gathered (value : String → Option String) (name : String)
    (declarations : List (String × Table)) :
    (declarations.filterMap fun d => (value d.1).map (d.1, ·)).lookup name
      = if name ∈ declarations.map Prod.fst then value name else none := by
  induction declarations with
  | nil => rfl
  | cons d declarations ih =>
    by_cases hd : name = d.1
    · subst hd
      cases hfound : value d.1 with
      | none => simp [hfound, ih]
      | some found => simp [hfound]
    · have hmem : name ∈ (d :: declarations).map Prod.fst ↔ name ∈ declarations.map Prod.fst := by
        simp [hd]
      rw [if_congr hmem rfl rfl, ← ih]
      cases hfound : value d.1 with
      | none => simp [hfound]
      | some found => simp [hfound, List.lookup_cons, beq_eq_false_iff_ne.2 hd]

/-- What has been found is what `get` returns. -/
theorem get_resolved {value : String → Option String} {declarations : List (String × Table)}
    {secrets : Secrets} (h : resolvedSecrets declarations value = .ok secrets)
    {d : String × Table} (hd : d ∈ declarations) {v : String} (hv : value d.1 = some v) :
    secrets.get d.1 = .ok v := by
  have hname : d.1 ∈ declarations.map Prod.fst := List.mem_map_of_mem hd
  rw [Secrets.get, values_of_gathered h, lookup_gathered, if_pos hname, hv]

/-- The declarations of a profile, as they stand in a manifest. -/
def declared (declarations : List (String × Table)) : Table :=
  declarations.map fun d => (d.1, .table d.2)

/-- The manifest can be read, and declares these names for the profile. -/
def Declares (w : SecretsWorld) (path project profile : String)
    (declarations : List (String × Table)) : Prop :=
  ∃ content document, w.manifest path = some content ∧ Toml.loads content = .ok document ∧
    projectName document = .ok (.string project) ∧
    profileOf document profile = .ok (.table (declared declarations))

/-- The secrets are in the keyring. -/
def UsesKeyring (w : SecretsWorld) (path : String) : Option String → Prop
  | some provider => provider = "keyring"
  | none => ∃ content document, w.manifest path = some content ∧
      Toml.loads content = .ok document ∧ providerOf document = .ok (some "keyring")

/-- An outcome is the one that is expected if nothing fails, and a value only if it is. -/
def Meets {α : Type} (q : Prop) (expected r : Except Exn α) : Prop :=
  (∀ a, r = .ok a → expected = .ok a) ∧ (q → r = expected)

theorem meets_self {α : Type} (q : Prop) (r : Except Exn α) : Meets q r r :=
  ⟨fun _ h => h, fun _ => rfl⟩

theorem meets_error {α : Type} {q : Prop} {expected : Except Exn α} {e : Exn} (h : ¬q) :
    Meets q expected (.error e) := ⟨(fun _ he => nomatch he), fun hq => absurd hq h⟩

variable {q : Prop}

/-- A call that failed, failed although something may fail. -/
theorem not_quiet {α : Type} {e : Exn} (h : q → ∃ a : α, (.error e : Except Exn α) = .ok a) :
    ¬q := fun hq => by
  obtain ⟨a, ha⟩ := h hq
  cases ha

/-- One password is read. -/
theorem getPassword_spec (service : String) (f : String → Exn) :
    wp (quietKeyring q) (· = w)
      (translatingAll f (.perform (S := secretsSig) (.getPassword service w.account)))
      (fun r _ => match r with
        | .ok value => value = w.keyring (service, w.account)
        | .error _ => ¬q) w := by
  refine wp_translatingAll (fun e w' _ h _ => h) (wp_perform rfl fun r w' h => ?_)
  cases r with
  | ok value => exact ⟨h.1.2, h.1.1⟩
  | error e => exact ⟨h.1, not_quiet h.2⟩

theorem readSecrets_spec (project profile : String) {value : String → Option String}
    (hvalue : ∀ name, value name = w.keyring (serviceName project profile name, w.account))
    (declarations : List (String × Table)) :
    ∀ (values : List (String × String)) (missing : List String),
      wp (quietKeyring q) (· = w)
        (readSecrets project profile w.account (declared declarations) values missing)
        (fun r _ => Meets q
          (gathered (values ++ declarations.filterMap fun d => (value d.1).map (d.1, ·))
            (missing ++ missingSecrets declarations value)) r) w := by
  induction declarations with
  | nil =>
    intro values missing
    rw [declared, List.map_nil, readSecrets, missingSecrets, List.filter_nil, List.map_nil,
      List.append_nil, List.filterMap_nil, List.append_nil, gathered]
    split <;> exact ⟨rfl, meets_self _ _⟩
  | cons d declarations ih =>
    intro values missing
    rw [declared, List.map_cons, readSecrets]
    refine wp_same_bind (getPassword_spec (serviceName project profile d.1) _) ?_
      fun e h => meets_error h
    intro found hfound
    obtain rfl : found = value d.1 := hfound.trans (hvalue d.1).symm
    cases hfound : value d.1 with
    | some found =>
      have hnone : missingSecrets (d :: declarations) value
          = missingSecrets declarations value := by
        simp [missingSecrets, hfound]
      have hsome : (d :: declarations).filterMap (fun d => (value d.1).map (d.1, ·))
          = (d.1, found) :: declarations.filterMap fun d => (value d.1).map (d.1, ·) := by
        simp [hfound]
      have hrest := ih (values ++ [(d.1, found)]) missing
      rw [List.append_assoc, List.singleton_append] at hrest
      rw [hnone, hsome]
      exact hrest
    | none =>
      have hsome : (d :: declarations).filterMap (fun d => (value d.1).map (d.1, ·))
          = declarations.filterMap fun d => (value d.1).map (d.1, ·) := by
        simp [hfound]
      rw [hsome]
      dsimp only
      split
      · next hrequired =>
        have hmissing : missingSecrets (d :: declarations) value
            = d.1 :: missingSecrets declarations value := by
          simp [missingSecrets, hfound, hrequired]
        have hrest := ih values (missing ++ [d.1])
        rw [List.append_assoc missing, List.singleton_append] at hrest
        rw [hmissing]
        exact hrest
      · next hrequired =>
        have hnone : missingSecrets (d :: declarations) value
            = missingSecrets declarations value := by
          simp [missingSecrets, hfound, hrequired]
        rw [hnone]
        exact ih values missing

/-- A manifest is read. -/
theorem loadManifest_spec {path content : String} {document : Table}
    (hcontent : w.manifest path = some content) (hloads : Toml.loads content = .ok document) :
    wp (quietKeyring q) (· = w) (.perform (S := secretsSig) (.loadManifest path))
      (fun r _ => match r with
        | .ok (loaded : Table) => loaded = document
        | .error _ => ¬q) w := by
  refine wp_perform rfl fun r w' h => ?_
  cases r with
  | ok loaded =>
    obtain ⟨⟨⟨content', hcontent', hloads'⟩, rfl⟩, -⟩ := h
    rw [hcontent] at hcontent'
    cases hcontent'
    exact ⟨rfl, Except.ok.inj (hloads'.symm.trans hloads)⟩
  | error e => exact ⟨h.1, not_quiet h.2⟩

theorem resolveKeyring_spec {path project : String} {profile : Option String}
    {declarations : List (String × Table)}
    (hd : Declares w path project (selectedProfile profile) declarations)
    {value : String → Option String}
    (hvalue : ∀ name, value name
      = w.keyring (serviceName project (selectedProfile profile) name, w.account)) :
    wp (quietKeyring q) (· = w) (resolveKeyring path profile)
      (fun r _ => Meets q (resolvedSecrets declarations value) r) w := by
  obtain ⟨content, document, hcontent, hloads, hproject, hprofile⟩ := hd
  have hmanifest : wp (quietKeyring q) (· = w)
      (do
        let document : Table ← .perform (S := secretsSig) (.loadManifest path)
        let project ← SecretsProg.ofExcept (projectName document)
        let declarations ← SecretsProg.ofExcept (profileOf document (selectedProfile profile))
        pure (project, declarations))
      (fun r _ => match r with
        | .ok found => found = (Value.string project, .table (declared declarations))
        | .error _ => ¬q) w := by
    refine wp_same_bind (loadManifest_spec hcontent hloads) ?_ fun e h => h
    rintro document rfl
    rw [hproject, hprofile]
    exact ⟨rfl, rfl⟩
  refine wp_same_bind (wp_translating (fun e w' _ h _ => h) hmanifest) ?_ fun e h => meets_error h
  rintro _ rfl
  refine wp_perform_bind rfl ?_ fun e w₁ h => ⟨h.1, meets_error (not_quiet h.2)⟩
  rintro account w₁ ⟨⟨rfl, rfl⟩, -⟩
  exact readSecrets_spec project _ hvalue declarations [] []

theorem resolveSecrets_spec {path project reason : String} {provider profile : Option String}
    {declarations : List (String × Table)}
    (hd : Declares w path project (selectedProfile profile) declarations)
    (hp : UsesKeyring w path provider) {value : String → Option String}
    (hvalue : ∀ name, value name
      = w.keyring (serviceName project (selectedProfile profile) name, w.account)) :
    wp (quietKeyring q) (· = w) (resolveSecrets path reason provider profile)
      (fun r _ => Meets q (resolvedSecrets declarations value) r) w := by
  cases provider with
  | some provider =>
    obtain rfl : provider = "keyring" := hp
    exact resolveKeyring_spec hd hvalue
  | none =>
    obtain ⟨content, document, hcontent, hloads, hprovider⟩ := hp
    have hmanifest : wp (quietKeyring q) (· = w) (manifestProvider path)
        (fun r _ => match r with
          | .ok provider => provider = some "keyring"
          | .error _ => ¬q) w := by
      refine wp_same_bind
        (wp_translating (fun e w' _ h _ => h) (loadManifest_spec hcontent hloads)) ?_ fun e h => h
      rintro document rfl
      rw [hprovider]
      exact ⟨rfl, rfl⟩
    refine wp_same_bind hmanifest ?_ fun e h => meets_error h
    rintro _ rfl
    exact resolveKeyring_spec hd hvalue

/-- **What has been stored is what is resolved.**  After any calls of `store_secret`, on whatever
manifests and however they ended, resolving a profile gives each name the value that was last stored
under its service name, or what the keyring held before; it is an error exactly if a required name
has none, and then says which. -/
theorem enrolled_secrets_resolve {stores : List (Store × Bool)} {w w' : SecretsWorld}
    (h : Stores stores w w') {path project reason : String} {provider profile : Option String}
    {declarations : List (String × Table)}
    (hd : Declares w path project (selectedProfile profile) declarations)
    (hp : UsesKeyring w path provider) {nothingFails : Prop} {r : Except Exn Secrets}
    {w'' : SecretsWorld}
    (hr : Reaches (quietKeyring nothingFails) (resolveSecrets path reason provider profile) w'
      (.done r) w'') :
    ∃ value : String → Option String,
      (∀ name c, Dicts.LastWhere
        (StoredAt w (serviceName project (selectedProfile profile) name)) stores c →
          value name = some c.1.value) ∧
      (∀ name, (∀ c ∈ stores,
        ¬StoredAt w (serviceName project (selectedProfile profile) name) c) →
          value name
            = w.keyring (serviceName project (selectedProfile profile) name, w.account)) ∧
      w'' = w' ∧
      (∀ secrets, r = .ok secrets → resolvedSecrets declarations value = .ok secrets ∧
        ∀ d ∈ declarations, ∀ v, value d.1 = some v → secrets.get d.1 = .ok v) ∧
      (nothingFails → r = resolvedSecrets declarations value) := by
  have hleft := h.left
  have hd' : Declares w' path project (selectedProfile profile) declarations := by
    rwa [Declares, hleft.manifest]
  have hp' : UsesKeyring w' path provider := by
    cases provider with
    | some provider => exact hp
    | none => rwa [UsesKeyring, hleft.manifest]
  obtain ⟨hw, hmeets⟩ := wp_reaches (resolveSecrets_spec hd' hp' fun _ => rfl) hr
  refine ⟨_, fun name c hc => ?_, fun name hnone => ?_, hw, fun secrets hsecrets => ?_, hmeets.2⟩
  · rw [hleft.account]
    exact hleft.stored _ c hc
  · rw [hleft.account]
    exact hleft.kept _ hnone
  · have hresolved := hmeets.1 secrets hsecrets
    exact ⟨hresolved, fun d hd v hv => get_resolved hresolved hd hv⟩

/-- A manifest with one secret. -/
def oneSecret : String :=
  "[project]\nname = \"spork\"\n[providers]\ndefault = \"keyring\"\n" ++
    "[profiles.default]\nTOKEN = {}\n"

/-- What it says. -/
def oneSecretDocument : Table :=
  [("project", .table [("name", .string "spork")]),
    ("providers", .table [("default", .string "keyring")]),
    ("profiles", .table [("default", .table (declared [("TOKEN", [])]))])]

/-- It says just that. -/
def isOneSecret : Toml.Result Table → Bool
  | .ok [("project", .table [("name", .string "spork")]),
      ("providers", .table [("default", .string "keyring")]),
      ("profiles", .table [("default", .table [("TOKEN", .table [])])])] => true
  | _ => false

theorem eq_of_isOneSecret {r : Toml.Result Table} (h : isOneSecret r = true) :
    r = .ok oneSecretDocument := by
  unfold isOneSecret at h
  split at h
  · rfl
  · cases h

theorem loads_oneSecret : Toml.loads oneSecret = .ok oneSecretDocument :=
  eq_of_isOneSecret (by decide +kernel)

/-- Nothing is in the keyring yet. -/
def emptyKeyring : SecretsWorld := ⟨fun _ => some oneSecret, "user", fun _ => none⟩

/-- The secret is stored. -/
def storeToken : Store := ⟨"secretspec.toml", "TOKEN", "abc", "default"⟩

/-- Where it is stored. -/
def tokenService : String := serviceName "spork" "default" "TOKEN"

theorem reads_oneSecret {w : SecretsWorld} (h : w.manifest = emptyKeyring.manifest) :
    keyringMachine w (.loadManifest "secretspec.toml") (.ok oneSecretDocument) w :=
  ⟨⟨oneSecret, congrFun h _, loads_oneSecret⟩, rfl⟩

theorem reads_account (w : SecretsWorld) :
    keyringMachine w .getUser (.ok (w.account : String)) w := ⟨rfl, rfl⟩

theorem stores_token :
    Stores [(storeToken, true)] emptyKeyring (emptyKeyring.put tokenService "abc") := by
  refine .cons (p := .done (.ok ())) ?_ .nil
  refine .head (.call (reads_oneSecret rfl)) ?_
  refine .head (.call (reads_account emptyKeyring)) ?_
  exact .head (.call (r := .ok ()) rfl) .refl

theorem declares_token :
    Declares emptyKeyring "secretspec.toml" "spork" (selectedProfile none) [("TOKEN", [])] :=
  ⟨oneSecret, oneSecretDocument, rfl, loads_oneSecret, rfl, rfl⟩

theorem usesKeyring_token : UsesKeyring emptyKeyring "secretspec.toml" (some "keyring") := rfl

theorem storedAt_token : StoredAt emptyKeyring tokenService (storeToken, true) := by
  refine ⟨rfl, ?_⟩
  show serviceIn emptyKeyring "secretspec.toml" "TOKEN" "default" = _
  rw [serviceIn, emptyKeyring, Option.map_some, loads_oneSecret]
  rfl

theorem resolves_token :
    Reaches (quietKeyring True) (resolveSecrets "secretspec.toml" "startup" (some "keyring") none)
      (emptyKeyring.put tokenService "abc") (.done (.ok ⟨[("TOKEN", "abc")]⟩))
      (emptyKeyring.put tokenService "abc") := by
  refine .head (.call ⟨reads_oneSecret rfl, fun _ => ⟨_, rfl⟩⟩) ?_
  refine .head (.call ⟨reads_account _, fun _ => ⟨_, rfl⟩⟩) ?_
  refine .head (.call (r := .ok (some "abc" : Option String)) ⟨⟨rfl, rfl⟩, fun _ => ⟨_, rfl⟩⟩) ?_
  exact .refl

/-- The token that was stored is resolved. -/
theorem enrolled_secrets_resolve_token :
    ∃ secrets : Secrets,
      Reaches (quietKeyring True) (resolveSecrets "secretspec.toml" "startup" (some "keyring") none)
        (emptyKeyring.put tokenService "abc") (.done (.ok secrets))
        (emptyKeyring.put tokenService "abc") ∧ secrets.get "TOKEN" = .ok "abc" := by
  obtain ⟨value, hstored, -, -, hresolved, -⟩ :=
    enrolled_secrets_resolve stores_token declares_token usesKeyring_token resolves_token
  have htoken : value "TOKEN" = some "abc" :=
    hstored "TOKEN" _ ⟨[], [], rfl, storedAt_token, fun _ h => nomatch h⟩
  exact ⟨_, resolves_token, (hresolved _ rfl).2 ("TOKEN", []) List.mem_cons_self _ htoken⟩

end Spork
