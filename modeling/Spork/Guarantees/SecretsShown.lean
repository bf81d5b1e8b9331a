import Spork.Effects.Alike
import Spork.Guarantees.Secrets

/-!
# What is shown of secrets

A value that is stored may be told from another one by what `get` returns, and by nothing else:
commands that differ in the values they store, run side by side on keyrings that differ in the
values they hold, show just the same (`secrets_never_shown`).
-/

set_option autoImplicit false

namespace Spork

open Effects Machine Prog
open Toml (Value Table)

/-! ## What looks alike -/

/-- Calls that differ in a password at most. -/
inductive LikeOp : SecretsOp → SecretsOp → Prop where
  | same (op : SecretsOp) : LikeOp op op
  | set (service account value value' : String) :
    LikeOp (.setPassword service account value) (.setPassword service account value')

/-- The same names, with a value or without one. -/
def SameFields (xs ys : List (String × Option String)) : Prop :=
  xs.map (fun x => (x.1, x.2.isSome)) = ys.map fun y => (y.1, y.2.isSome)

/-- Answers that differ in passwords at most. -/
def LikeRet : (o o' : SecretsOp) → secretsSig.Outcome (secretsSig.Ret o) →
    secretsSig.Outcome (secretsSig.Ret o') → Prop
  | .loadManifest _, .loadManifest _, r, r' => secretsSig.Same (@Eq Table) r r'
  | .getUser, .getUser, r, r' => secretsSig.Same (@Eq String) r r'
  | .getPassword _ _, .getPassword _ _, r, r' =>
    secretsSig.Same (fun a b : Option String => a.isSome = b.isSome) r r'
  | .setPassword _ _ _, .setPassword _ _ _, r, r' => secretsSig.Same (@Eq Unit) r r'
  | .resolveSdk _ _ _ _, .resolveSdk _ _ _ _, r, r' => secretsSig.Same SameFields r r'
  | _, _, _, _ => False

/-- Calls and answers without their passwords. -/
def secretsLike : Likeness secretsSig := ⟨LikeOp, LikeRet⟩

/-- Keyrings with the same entries, and whatever values. -/
structure SameEntries (w w' : SecretsWorld) : Prop where
  manifest : w.manifest = w'.manifest
  account : w.account = w'.account
  keyring : ∀ key, (w.keyring key).isSome = (w'.keyring key).isSome

/-- The same secrets have been resolved. -/
def SameNames (a b : Secrets) : Prop := a.values.map Prod.fst = b.values.map Prod.fst

theorem same_refl {α : Type} (r : secretsSig.Outcome α) : secretsSig.Same Eq r r := by
  cases r with
  | ok a => exact .ok rfl
  | error e => exact .error e

/-- **One call** can be answered alike. -/
theorem keyringMachine_alike {o o' : SecretsOp} {w w' w₁ : SecretsWorld}
    {r : secretsSig.Outcome (secretsSig.Ret o)} (ho : LikeOp o o') (hw : SameEntries w w')
    (h : keyringMachine w o r w₁) :
    ∃ r' w₁', keyringMachine w' o' r' w₁' ∧ LikeRet o o' r r' ∧ SameEntries w₁ w₁' := by
  have hset : ∀ (service account value value' : String) (r : secretsSig.Outcome Unit) w₁,
      keyringMachine w (.setPassword service account value) r w₁ →
      ∃ r' w₁', keyringMachine w' (.setPassword service account value') r' w₁' ∧
        secretsSig.Same Eq r r' ∧ SameEntries w₁ w₁' := by
    intro service account value value' r w₁ h
    cases r with
    | error e =>
      obtain rfl : w₁ = w := h
      exact ⟨.error e, w', rfl, .error e, hw⟩
    | ok u =>
      obtain rfl : w₁ = _ := h
      refine ⟨.ok u, _, rfl, .ok rfl, hw.manifest, hw.account, fun key => ?_⟩
      by_cases hkey : key = (service, account)
      · subst hkey
        simp
      · simpa [Function.update_of_ne hkey] using hw.keyring key
  cases ho with
  | set service account value value' => exact hset service account value value' r w₁ h
  | same =>
    cases o with
    | setPassword service account value => exact hset service account value value r w₁ h
    | loadManifest path =>
      cases r with
      | error e =>
        obtain rfl : w₁ = w := h
        exact ⟨.error e, w', rfl, .error e, hw⟩
      | ok document =>
        obtain ⟨⟨content, hcontent, hloads⟩, rfl⟩ := h
        exact ⟨.ok document, w', ⟨⟨content, hw.manifest ▸ hcontent, hloads⟩, rfl⟩, .ok rfl, hw⟩
    | getUser =>
      cases r with
      | error e =>
        obtain rfl : w₁ = w := h
        exact ⟨.error e, w', rfl, .error e, hw⟩
      | ok account =>
        obtain ⟨rfl, rfl⟩ := h
        exact ⟨.ok w₁.account, w', ⟨hw.account, rfl⟩, .ok rfl, hw⟩
    | getPassword service account =>
      cases r with
      | error e =>
        obtain rfl : w₁ = w := h
        exact ⟨.error e, w', rfl, .error e, hw⟩
      | ok value =>
        obtain ⟨rfl, rfl⟩ := h
        exact ⟨.ok (w'.keyring (service, account)), w', ⟨rfl, rfl⟩, .ok (hw.keyring _), hw⟩
    | resolveSdk path provider profile reason =>
      have hsame : w₁ = w := by cases r <;> exact h
      subst hsame
      refine ⟨r, w', by cases r <;> rfl, ?_, hw⟩
      cases r with
      | ok fields => exact .ok rfl
      | error e => exact .error e

/-! ## The programs -/

/-- The programs look alike, and their values are related by `V`. -/
abbrev LooksAlike {α : Type} (V : α → α → Prop) (p p' : SecretsProg α) : Prop :=
  Alike secretsLike (secretsSig.Same V) p p'

/-- The program looks like itself, whatever passwords it is answered with. -/
abbrev HidesPasswords {α : Type} (V : α → α → Prop) (p : SecretsProg α) : Prop := LooksAlike V p p

/-- A call that says nothing of passwords. -/
def SecretsOp.Plain : SecretsOp → Prop
  | .loadManifest _ => True
  | .getUser => True
  | _ => False

theorem hidesPasswords_of_plain {α : Type} {p : SecretsProg α} (h : p.Only SecretsOp.Plain) :
    HidesPasswords Eq p := by
  induction p with
  | done r => exact same_refl r
  | call op k ih =>
    refine ⟨.same op, fun r r' hr => ?_⟩
    have heq : r = r' := by
      cases op with
      | loadManifest path => cases hr with
        | ok h => exact congrArg _ h
        | error e => rfl
      | getUser => cases hr with
        | ok h => exact congrArg _ h
        | error e => rfl
      | _ => exact h.1.elim
    subst heq
    exact ih r (h.2 r)

variable {α : Type} {V : α → α → Prop} {p p' : SecretsProg α}

theorem LooksAlike.translating (h : LooksAlike V p p') (classes : List ExnClass)
    (f : String → Exn) : LooksAlike V (translating classes f p) (translating classes f p') := by
  refine h.tryCatch fun e => ?_
  split <;> exact alike_raise _

theorem LooksAlike.translatingAll (h : LooksAlike V p p') (f : String → Exn) :
    LooksAlike V (translatingAll f p) (translatingAll f p') := h.tryCatch fun _ => alike_raise _

theorem plain_ofExcept {α : Type} (x : Except Exn α) :
    (SecretsProg.ofExcept x).Only SecretsOp.Plain := by
  cases x <;> trivial

theorem plain_translating {α : Type} {p : SecretsProg α} (h : p.Only SecretsOp.Plain)
    (classes : List ExnClass) (f : String → Exn) :
    (translating classes f p).Only SecretsOp.Plain :=
  h.tryCatch fun _ => Only.ite trivial trivial

theorem plain_loadManifest (path : String) :
    (Prog.perform (S := secretsSig) (.loadManifest path)).Only SecretsOp.Plain :=
  only_perform.2 trivial

theorem plain_getUser : (Prog.perform (S := secretsSig) .getUser).Only SecretsOp.Plain :=
  only_perform.2 trivial

theorem plain_keyringServiceName (path name profile : String) :
    (keyringServiceName path name profile).Only SecretsOp.Plain := by
  refine Only.bind (plain_translating (Only.bind (plain_loadManifest path) fun document =>
    plain_ofExcept _) _ _) fun project => ?_
  split
  · exact Only.ite trivial trivial
  · trivial

theorem plain_manifestProvider (path : String) :
    (manifestProvider path).Only SecretsOp.Plain :=
  Only.bind (plain_translating (plain_loadManifest path) _ _) fun _ => plain_ofExcept _

/-- Stores of different values. -/
theorem looksAlike_storeSecret (path name profile : String) {value value' : String}
    (h : value = "" ↔ value' = "") :
    LooksAlike Eq (storeSecret path name value profile) (storeSecret path name value' profile) := by
  rw [storeSecret, storeSecret]
  by_cases hempty : value = ""
  · rw [if_pos hempty, if_pos (h.1 hempty)]
    exact alike_raise _
  · rw [if_neg hempty, if_neg fun he => hempty (h.2 he)]
    refine (hidesPasswords_of_plain (plain_keyringServiceName path name profile)).bind ?_
    rintro service _ rfl
    refine LooksAlike.translatingAll ?_ _
    refine (hidesPasswords_of_plain plain_getUser).bind ?_
    rintro account _ rfl
    exact alike_perform (.set service account value value') fun r r' hr => hr

/-- One password is read. -/
theorem hidesPasswords_getPassword (service account : String) :
    HidesPasswords (fun a b : Option String => a.isSome = b.isSome)
      (.perform (S := secretsSig) (.getPassword service account)) :=
  alike_perform (.same (.getPassword service account)) fun _ _ h => h

theorem looksAlike_readSecrets (project profile account : String) (declarations : Table) :
    ∀ (values values' : List (String × String)) (missing : List String),
      values.map Prod.fst = values'.map Prod.fst →
      LooksAlike SameNames (readSecrets project profile account declarations values missing)
        (readSecrets project profile account declarations values' missing) := by
  induction declarations with
  | nil =>
    intro values values' missing h
    rw [readSecrets, readSecrets]
    split
    · exact alike_pure h
    · exact alike_raise _
  | cons d declarations ih =>
    intro values values' missing h
    obtain ⟨name, v⟩ := d
    cases v with
    | table declaration =>
      rw [readSecrets, readSecrets]
      refine ((hidesPasswords_getPassword _ _).translatingAll _).bind ?_
      intro a b hab
      cases a with
      | some a =>
        obtain ⟨b, rfl⟩ := Option.isSome_iff_exists.1 (hab.symm.trans rfl)
        exact ih _ _ missing (by simp [h])
      | none =>
        obtain rfl := Option.not_isSome_iff_eq_none.1 fun hb => by cases hab.trans hb
        dsimp only
        split
        · exact ih _ _ _ h
        · exact ih _ _ _ h
    | _ => exact alike_raise _

theorem hidesPasswords_resolveKeyring (path : String) (profile : Option String) :
    HidesPasswords SameNames (resolveKeyring path profile) := by
  have hmanifest : (do
      let document : Table ← .perform (S := secretsSig) (.loadManifest path)
      let project ← SecretsProg.ofExcept (projectName document)
      let declarations ← SecretsProg.ofExcept (profileOf document (selectedProfile profile))
      pure (project, declarations) : SecretsProg (Value × Value)).Only SecretsOp.Plain := by
    refine Only.bind (plain_loadManifest path) fun document => ?_
    refine Only.bind (plain_ofExcept _) fun project => ?_
    exact Only.bind (plain_ofExcept _) fun declarations => trivial
  refine (hidesPasswords_of_plain (plain_translating hmanifest _ _)).bind ?_
  rintro ⟨project, declarations⟩ _ rfl
  dsimp only
  split
  · refine (hidesPasswords_of_plain plain_getUser).bind ?_
    rintro account _ rfl
    exact looksAlike_readSecrets _ _ _ _ [] [] [] rfl
  · exact alike_raise _

/-- SecretSpec resolves. -/
theorem hidesPasswords_resolveSdk (path reason : String) (provider profile : Option String) :
    HidesPasswords SameFields
      (.perform (S := secretsSig) (.resolveSdk path provider profile reason)) :=
  alike_perform (.same (.resolveSdk path provider profile reason)) fun _ _ h => h

theorem SameFields.names {xs ys : List (String × Option String)} (h : SameFields xs ys) :
    (xs.filterMap fun x => x.2.map (x.1, ·)).map Prod.fst
      = (ys.filterMap fun y => y.2.map (y.1, ·)).map Prod.fst := by
  have key : ∀ zs : List (String × Option String),
      (zs.filterMap fun z => z.2.map (z.1, ·)).map Prod.fst
        = (zs.map fun z => (z.1, z.2.isSome)).filterMap fun z =>
          if z.2 then some z.1 else none := by
    intro zs
    induction zs with
    | nil => rfl
    | cons z zs ih =>
      obtain ⟨name, value⟩ := z
      cases value with
      | none => simpa using ih
      | some value => simpa using ih
  rw [key, key, h]

theorem hidesPasswords_resolveSecrets (path reason : String) (provider profile : Option String) :
    HidesPasswords SameNames (resolveSecrets path reason provider profile) := by
  have hselected : ∀ selected : Option String, HidesPasswords SameNames
      (if selected = some "keyring" then resolveKeyring path profile
      else do
        let resolved : List (String × Option String) ← translating [.other "SecretSpecError"]
          secretsError (.perform (S := secretsSig) (.resolveSdk path selected profile reason))
        pure ⟨resolved.filterMap fun field => field.2.map (field.1, ·)⟩) := by
    intro selected
    split
    · exact hidesPasswords_resolveKeyring path profile
    · refine ((hidesPasswords_resolveSdk path reason selected profile).translating _ _).bind ?_
      exact fun fields fields' h => alike_pure h.names
  cases provider with
  | none =>
    refine (hidesPasswords_of_plain (plain_manifestProvider path)).bind ?_
    rintro selected _ rfl
    exact hselected selected
  | some provider => exact hselected (some provider)

/-! ## Commands -/

/-- A command that stores a secret, or that resolves them. -/
inductive SecretsCommand where
  | store (s : Store)
  | resolve (path reason : String) (provider profile : Option String)

/-- The command, with the secrets it returns. -/
def SecretsCommand.run : SecretsCommand → SecretsProg (Option Secrets)
  | .store s => do
    s.run
    pure none
  | .resolve path reason provider profile => do
    let secrets ← resolveSecrets path reason provider profile
    pure (some secrets)

/-- The same command, but for a value that is stored. -/
inductive SameButValue : SecretsCommand → SecretsCommand → Prop where
  | store (path name profile : String) {value value' : String} (h : value = "" ↔ value' = "") :
    SameButValue (.store ⟨path, name, value, profile⟩) (.store ⟨path, name, value', profile⟩)
  | resolve (path reason : String) (provider profile : Option String) :
    SameButValue (.resolve path reason provider profile) (.resolve path reason provider profile)

/-- What secrets show: their `repr`, and what `get` raises for each name. -/
structure SecretsView where
  repr : String
  raised : String → Option Exn

/-- What these secrets show. -/
def Secrets.view (secrets : Secrets) : SecretsView where
  repr := secrets.repr
  raised name :=
    match secrets.get name with
    | .ok _ => none
    | .error e => some e

/-- What a command has shown, once it is over: the exception it raised, or what its secrets show. -/
def viewOf : SecretsProg (Option Secrets) → Option (Except Exn (Option SecretsView))
  | .done r => some (r.map (Option.map Secrets.view))
  | .call _ _ => none

theorem lookup_eq_none_iff_names {values : List (String × String)} {name : String} :
    values.lookup name = none ↔ name ∉ values.map Prod.fst := by
  induction values with
  | nil => simp
  | cons v values ih =>
    rw [List.map_cons, List.mem_cons, not_or, ← ih, List.lookup_cons]
    by_cases hv : name = v.1
    · simp [hv]
    · rw [beq_eq_false_iff_ne.2 hv]
      exact ⟨fun h => ⟨hv, h⟩, And.right⟩

theorem SameNames.view_eq {a b : Secrets} (h : SameNames a b) : a.view = b.view := by
  have hrepr : a.repr = b.repr := by rw [Secrets.repr, Secrets.repr, h]
  have hraised : ∀ name, a.view.raised name = b.view.raised name := by
    intro name
    have hnone : a.values.lookup name = none ↔ b.values.lookup name = none := by
      rw [lookup_eq_none_iff_names, lookup_eq_none_iff_names, h]
    simp only [Secrets.view, Secrets.get]
    cases ha : a.values.lookup name with
    | none => rw [hnone.1 ha, h]
    | some value =>
      cases hb : b.values.lookup name with
      | none => cases ha.symm.trans (hnone.2 hb)
      | some value' => rfl
  rw [Secrets.view, Secrets.view, hrepr]
  exact congrArg _ (funext hraised)

theorem looksAlike_run {c c' : SecretsCommand} (h : SameButValue c c') :
    LooksAlike (fun a b => a.map Secrets.view = b.map Secrets.view) c.run c'.run := by
  cases h with
  | store path name profile h =>
    exact (looksAlike_storeSecret path name profile h).bind fun _ _ _ => alike_pure rfl
  | resolve path reason provider profile =>
    exact (hidesPasswords_resolveSecrets path reason provider profile).bind fun _ _ h =>
      alike_pure (congrArg some h.view_eq)

theorem viewOf_eq {p p' : SecretsProg (Option Secrets)}
    (h : LooksAlike (fun a b => a.map Secrets.view = b.map Secrets.view) p p') :
    viewOf p = viewOf p' := by
  cases p with
  | done r =>
    obtain ⟨r', rfl, hr⟩ := h.of_done
    cases hr with
    | ok hview =>
      exact congrArg (fun view => (some (.ok view) : Option (Except Exn _))) hview
    | error e => rfl
  | call op k =>
    cases p' with
    | done r' => exact h.elim
    | call op' k' => rfl

/-- What each of some commands has shown. -/
abbrev SecretsViews : Type := List (Option (Except Exn (Option SecretsView)))

/-- Commands, one after another, and what each has shown.  One that has shown nothing has been cut
off. -/
inductive SecretsSession : List SecretsCommand → SecretsViews → SecretsWorld → Prop where
  | nil {w : SecretsWorld} : SecretsSession [] [] w
  | cons {c : SecretsCommand} {p : SecretsProg (Option Secrets)} {cs : List SecretsCommand}
      {views : SecretsViews} {w w₁ : SecretsWorld} (h : Reaches keyringMachine c.run w p w₁)
      (hs : SecretsSession cs views w₁) : SecretsSession (c :: cs) (viewOf p :: views) w

/-- Two such sessions side by side: call by call, what comes back is the same but for the values of
passwords. -/
inductive SideBySide : List SecretsCommand → List SecretsCommand → SecretsViews → SecretsViews →
    SecretsWorld → SecretsWorld → Prop where
  | nil {w w' : SecretsWorld} : SideBySide [] [] [] [] w w'
  | cons {c c' : SecretsCommand} {p p' : SecretsProg (Option Secrets)}
      {cs cs' : List SecretsCommand} {views views' : SecretsViews} {w w' w₁ w₁' : SecretsWorld}
      (h : InStep secretsLike keyringMachine keyringMachine ((c.run, w), c'.run, w')
        ((p, w₁), p', w₁'))
      (hs : SideBySide cs cs' views views' w₁ w₁') :
    SideBySide (c :: cs) (c' :: cs') (viewOf p :: views) (viewOf p' :: views') w w'

/-- Side by side, the same is shown. -/
theorem SideBySide.views_eq {cs cs' : List SecretsCommand} {views views' : SecretsViews}
    {w w' : SecretsWorld} (h : SideBySide cs cs' views views' w w')
    (hcs : List.Forall₂ SameButValue cs cs') : views = views' := by
  induction h with
  | nil => rfl
  | cons hrun _ ih =>
    cases hcs with
    | cons hc hcs =>
      have halike := Alike.inStep (looksAlike_run hc) hrun
      rw [viewOf_eq halike, ih hcs]

/-- Each session has another one by its side. -/
theorem SecretsSession.accompany {cs : List SecretsCommand} {views : SecretsViews}
    {w : SecretsWorld} (h : SecretsSession cs views w) {cs' : List SecretsCommand}
    (hcs : List.Forall₂ SameButValue cs cs') {w' : SecretsWorld} (hw : SameEntries w w') :
    ∃ views', SideBySide cs cs' views views' w w' := by
  induction h generalizing cs' w' with
  | nil =>
    cases hcs
    exact ⟨[], .nil⟩
  | cons hrun _ ih =>
    cases hcs with
    | cons hc hcs =>
      obtain ⟨p', w₁', hinStep, hw₁⟩ :=
        (looksAlike_run hc).accompany (fun _ _ _ _ _ _ => keyringMachine_alike) hw hrun
      obtain ⟨views', hside⟩ := ih hcs hw₁
      exact ⟨_, .cons hinStep hside⟩

/-- **Secrets are never shown.**  Commands that differ in the values they store show the same, on
keyrings that differ in the values they hold, as long as what comes back from the keyring is the
same but for these values: no exception and no `repr` tells one value from another.  And whatever
commands can come back on the one, there is such a session on the other. -/
theorem secrets_never_shown {cs cs' : List SecretsCommand}
    (hcs : List.Forall₂ SameButValue cs cs') {w w' : SecretsWorld} (hw : SameEntries w w') :
    (∀ views views', SideBySide cs cs' views views' w w' → views = views') ∧
      ∀ views, SecretsSession cs views w → SideBySide cs cs' views views w w' := by
  refine ⟨fun views views' h => h.views_eq hcs, fun views h => ?_⟩
  obtain ⟨views', hside⟩ := h.accompany hcs hw
  obtain rfl := hside.views_eq hcs
  exact hside

/-- Another token shows the same. -/
theorem secrets_never_shown_token :
    SideBySide
      [.store storeToken, .resolve "secretspec.toml" "startup" (some "keyring") none]
      [.store { storeToken with value := "xyz" },
        .resolve "secretspec.toml" "startup" (some "keyring") none]
      [some (.ok none), some (.ok (some (Secrets.view ⟨[("TOKEN", "abc")]⟩)))]
      [some (.ok none), some (.ok (some (Secrets.view ⟨[("TOKEN", "abc")]⟩)))]
      emptyKeyring emptyKeyring := by
  have hstore : Reaches keyringMachine (SecretsCommand.store storeToken).run emptyKeyring
      (.done (.ok none)) (emptyKeyring.put tokenService "abc") := by
    refine .head (.call (reads_oneSecret rfl)) ?_
    refine .head (.call (reads_account emptyKeyring)) ?_
    exact .head (.call (r := .ok ()) rfl) .refl
  have hresolve : Reaches keyringMachine
      (SecretsCommand.resolve "secretspec.toml" "startup" (some "keyring") none).run
      (emptyKeyring.put tokenService "abc") (.done (.ok (some ⟨[("TOKEN", "abc")]⟩)))
      (emptyKeyring.put tokenService "abc") := by
    refine .head (.call (reads_oneSecret rfl)) ?_
    refine .head (.call (reads_account _)) ?_
    exact .head (.call (r := .ok (some "abc" : Option String)) ⟨rfl, rfl⟩) .refl
  have hsame : List.Forall₂ SameButValue
      [.store storeToken, .resolve "secretspec.toml" "startup" (some "keyring") none]
      [.store { storeToken with value := "xyz" },
        .resolve "secretspec.toml" "startup" (some "keyring") none] :=
    .cons (.store _ _ _ (by decide)) (.cons (.resolve _ _ _ _) .nil)
  exact (secrets_never_shown hsame ⟨rfl, rfl, fun _ => rfl⟩).2 _
    (.cons hstore (.cons hresolve .nil))

end Spork
