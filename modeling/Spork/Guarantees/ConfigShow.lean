import Spork.Guarantees.EnforcedTier
import Spork.Guarantees.Redaction

/-!
# What `config show` marks as enforced

The listing is a walk over the fields of the schema that somebody wrote down, and the enforced paths
are what a recursion over the raw file finds.

* `LeafOf`: where an accepted configuration has values at all (`leafOf_of_isLeaf`).
* `SporkConfig.shownKeys`: where the walk has lines (`shownValues_paths`).
* `formatShowLines_flags_iff`: the two agree on the enforced tier exactly if it sets nothing that
  the walk leaves out: no log level, nothing in `[context]` or `[receipt_archive]`, and no value
  inside of a constructor argument.
-/

set_option autoImplicit false

namespace Spork

open Toml (Value Table)

/-! ## Reading a tier -/

/-- No key is there twice in a table that has been parsed. -/
theorem distinct_of_keyed {v : Value} (h : v.Keyed) : ∀ {t : Table}, v = .table t → Distinct t := by
  induction h with
  | array => intro t he; cases he
  | table keys _ ih =>
    intro t he
    cases he
    exact .mk keys fun key sub hm => ih (key, .table sub) hm rfl
  | leaf h =>
    intro t he
    subst he
    cases h

theorem readToml_distinct {file : Option String} {t : Table} (h : readToml file = .ok t) :
    Distinct t := by
  unfold readToml at h
  split at h
  · cases h
    exact distinct_of_keyed Toml.keyed_nil rfl
  · split at h
    · cases h
    · cases h
    · next hloads =>
      cases h
      exact distinct_of_keyed (Toml.loads_keyed hloads) rfl

/-- `enforced_override_paths` reads the tier that the merge ends with. -/
theorem mergeTiers_enforced {systemDefaults : List (Option String)} {user enforced : Option String}
    {merged : Table} (h : mergeTiers systemDefaults user enforced = .ok merged) :
    ∃ base e, readToml enforced = .ok e ∧ merged = deepMerge base e := by
  obtain ⟨systemDefault, -, h⟩ := Toml.of_bind_ok h
  obtain ⟨user, -, h⟩ := Toml.of_bind_ok h
  obtain ⟨e, he, h⟩ := Toml.of_bind_ok h
  cases h
  exact ⟨_, e, he, rfl⟩

/-! ## Where the values are -/

/-- What is a value of its own, rather than a table of them. -/
def RejectsTables {α : Type} (validate : Value → Option α) : Prop :=
  ∀ t, validate (.table t) = none

section Fields

variable {α : Type} {validate : Value → Option α} {t : Table} {key : String} {w : Value}

theorem required_of_lookup (hw : t.lookup key = some w) : required validate t key = validate w := by
  rw [required, hw, Option.bind_some]

theorem defaulted_of_lookup {default : α} (hw : t.lookup key = some w) :
    defaulted validate default t key = validate w := by
  rw [defaulted, hw]

theorem nullable_of_lookup (hw : t.lookup key = some w) :
    nullable validate t key = (validate w).map some := by
  rw [nullable, defaulted_of_lookup hw]

theorem RejectsTables.not_isTable (h : RejectsTables validate) {a : α}
    (hw : validate w = some a) : w.isTable = false := by
  cases w with
  | table t =>
    rw [h t] at hw
    cases hw
  | _ => rfl

theorem RejectsTables.of_required (h : RejectsTables validate) {a : α} (hw : t.lookup key = some w)
    (hvalid : required validate t key = some a) : w.isTable = false :=
  h.not_isTable ((required_of_lookup hw).symm.trans hvalid)

theorem RejectsTables.of_defaulted (h : RejectsTables validate) {default a : α}
    (hw : t.lookup key = some w) (hvalid : defaulted validate default t key = some a) :
    w.isTable = false :=
  h.not_isTable ((defaulted_of_lookup hw).symm.trans hvalid)

theorem RejectsTables.of_nullable (h : RejectsTables validate) {a : Option α}
    (hw : t.lookup key = some w) (hvalid : nullable validate t key = some a) :
    w.isTable = false := by
  rw [nullable_of_lookup hw] at hvalid
  obtain ⟨b, hb, -⟩ := Option.map_eq_some_iff.1 hvalid
  exact h.not_isTable hb

theorem rejectsTables_path : RejectsTables validatePath := fun _ => rfl

theorem rejectsTables_str : RejectsTables validateStr := fun _ => rfl

theorem mem_fields {fields : List String} (h : forbidExtra fields t = true)
    (hw : t.lookup key = some w) : key ∈ fields :=
  of_decide_eq_true (List.all_eq_true.1 h _ (mem_of_lookup hw))

/-- A value of its own is below some key of the table. -/
theorem at_table {v : Value} {keys : List String} (hat : (Value.table t).at keys = some v)
    (hv : v.isTable = false) :
    ∃ key rest w, keys = key :: rest ∧ t.lookup key = some w ∧ w.at rest = some v := by
  cases keys with
  | nil =>
    cases hat
    cases hv
  | cons key rest =>
    obtain ⟨w, hw, hbelow⟩ := at_cons hat
    exact ⟨key, rest, w, rfl, hw, hbelow⟩

/-- The texts of a `dict[str, str]`. -/
theorem mem_validateStrDict : ∀ {t : Table} {s : List (String × String)},
    (t.mapM fun item => (validateStr item.2).map (item.1, ·)) = some s → (key, w) ∈ t →
      w.isTable = false ∧ key ∈ s.map Prod.fst
  | item :: t, s, h, hm => by
    rw [List.mapM_cons] at h
    obtain ⟨pair, hpair, h⟩ := Option.bind_eq_some_iff.1 h
    obtain ⟨rest, hrest, h⟩ := Option.bind_eq_some_iff.1 h
    cases h
    obtain ⟨text, htext, rfl⟩ := Option.map_eq_some_iff.1 hpair
    rcases List.mem_cons.1 hm with rfl | hm
    · exact ⟨rejectsTables_str.not_isTable htext, List.mem_cons_self⟩
    · exact (mem_validateStrDict hrest hm).imp_right (List.mem_cons_of_mem _)

end Fields

/-- Where the values of a backend's table are. -/
inductive BackendLeaf (backend : BackendSpec) : List String → Prop where
  | spec : BackendLeaf backend ["spec"]
  | kwargs {key : String} {keys : List String} (hkey : key ∈ backend.kwargs.map Prod.fst) :
      BackendLeaf backend ("kwargs" :: key :: keys)
  | secretKwargs {key : String} (hkey : key ∈ backend.secretKwargs.map Prod.fst) :
      BackendLeaf backend ["secret_kwargs", key]

/-- The fields of an accepted backend. -/
theorem BackendSpec.validate_fields {v : Value} {backend : BackendSpec}
    (h : BackendSpec.validate v = some backend) : ∃ t, v = .table t ∧
      forbidExtra ["spec", "kwargs", "secret_kwargs"] t = true ∧
      required validateStr t "spec" = some backend.spec ∧
      defaulted validateDict [] t "kwargs" = some backend.kwargs ∧
      defaulted validateStrDict [] t "secret_kwargs" = some backend.secretKwargs := by
  cases v with
  | table t =>
    rw [validate] at h
    split at h
    · next hfields =>
      obtain ⟨spec, hspec, h⟩ := Option.bind_eq_some_iff.1 h
      obtain ⟨kwargs, hkwargs, h⟩ := Option.bind_eq_some_iff.1 h
      obtain ⟨secretKwargs, hsecret, h⟩ := Option.bind_eq_some_iff.1 h
      split at h
      · cases h
        exact ⟨t, rfl, hfields, hspec, hkwargs, hsecret⟩
      · cases h
    · cases h
  | _ => cases h

theorem BackendSpec.leaf {w v : Value} {backend : BackendSpec} {keys : List String}
    (h : BackendSpec.validate w = some backend) (hat : w.at keys = some v)
    (hv : v.isTable = false) : BackendLeaf backend keys := by
  obtain ⟨t, rfl, hfields, hspec, hkwargs, hsecret⟩ := validate_fields h
  obtain ⟨key, keys, x, rfl, hx, hbelow⟩ := at_table hat hv
  have hkey := mem_fields hfields hx
  simp only [List.mem_cons, List.not_mem_nil, or_false] at hkey
  rcases hkey with rfl | rfl | rfl
  · cases at_of_not_isTable (rejectsTables_str.of_required hx hspec) hbelow
    exact .spec
  · rw [defaulted_of_lookup hx] at hkwargs
    cases x with
    | table kwargs =>
      cases hkwargs
      obtain ⟨key, keys, y, rfl, hy, -⟩ := at_table hbelow hv
      exact .kwargs (List.mem_map_of_mem (mem_of_lookup hy))
    | _ => cases hkwargs
  · rw [defaulted_of_lookup hx] at hsecret
    cases x with
    | table secrets =>
      obtain ⟨key, keys, y, rfl, hy, hend⟩ := at_table hbelow hv
      obtain ⟨hnot, hmem⟩ := mem_validateStrDict hsecret (mem_of_lookup hy)
      cases at_of_not_isTable hnot hend
      exact .secretKwargs hmem
    | _ => cases hsecret

/-- `[llm_recording]` has one value. -/
theorem LLMRecordingConfig.leaf {w v : Value} {recording : LLMRecordingConfig} {keys : List String}
    (h : LLMRecordingConfig.validate w = some recording) (hat : w.at keys = some v)
    (hv : v.isTable = false) : keys = ["corpus_path"] := by
  cases w with
  | table t =>
    rw [validate] at h
    split at h
    · next hfields =>
      obtain ⟨path, hpath, -⟩ := Option.bind_eq_some_iff.1 h
      obtain ⟨key, keys, x, rfl, hx, hbelow⟩ := at_table hat hv
      obtain rfl := List.mem_singleton.1 (mem_fields hfields hx)
      cases at_of_not_isTable (rejectsTables_path.of_required hx hpath) hbelow
      rfl
    · cases h
  | _ => cases h

/-- `[tiering]` has one value for each of its fields. -/
theorem TieringConfig.leaf {numbers : NumberFields} {w v : Value} {tiering : TieringConfig}
    {keys : List String} (h : TieringConfig.validate numbers w = some tiering)
    (hat : w.at keys = some v) (hv : v.isTable = false) :
    ∃ field ∈ modelFields, keys = [field] := by
  cases w with
  | table t =>
    rw [validate] at h
    split at h
    · next hfields =>
      obtain ⟨action, haction, h⟩ := Option.bind_eq_some_iff.1 h
      obtain ⟨alert, halert, h⟩ := Option.bind_eq_some_iff.1 h
      obtain ⟨autoact, hautoact, h⟩ := Option.bind_eq_some_iff.1 h
      obtain ⟨budget, hbudget, h⟩ := Option.bind_eq_some_iff.1 h
      obtain ⟨chars, hchars, h⟩ := Option.bind_eq_some_iff.1 h
      obtain ⟨classifier, hclassifier, h⟩ := Option.bind_eq_some_iff.1 h
      obtain ⟨categories, hcategories, -⟩ := Option.bind_eq_some_iff.1 h
      obtain ⟨key, keys, x, rfl, hx, hbelow⟩ := at_table hat hv
      have hkey := mem_fields hfields hx
      have hscalar : x.isTable = false → ∃ field ∈ modelFields, key :: keys = [field] := by
        intro hnot
        cases at_of_not_isTable hnot hbelow
        exact ⟨key, hkey, rfl⟩
      simp only [modelFields, List.mem_cons, List.not_mem_nil, or_false] at hkey
      rcases hkey with rfl | rfl | rfl | rfl | rfl | rfl | rfl
      · exact hscalar (RejectsTables.of_defaulted (fun _ => rfl) hx haction)
      · exact hscalar (RejectsTables.of_defaulted numbers.float_table hx halert)
      · exact hscalar (RejectsTables.of_defaulted numbers.float_table hx hautoact)
      · exact hscalar (RejectsTables.of_defaulted numbers.int_table hx hbudget)
      · exact hscalar (RejectsTables.of_defaulted numbers.int_table hx hchars)
      · exact hscalar (rejectsTables_str.of_nullable hx hclassifier)
      · exact hscalar (RejectsTables.of_defaulted (fun _ => rfl) hx hcategories)
    · cases h
  | _ => cases h

/-- Where the values of an accepted configuration are. -/
inductive LeafOf (config : SporkConfig) : List String → Prop where
  | top {key : String} (hm : key ∈ ["rules_path", "db_path", "socket_path", "log_level"]) :
      LeafOf config [key]
  | backend {name : String} {backend : BackendSpec} {keys : List String}
      (hm : (name, backend) ∈ config.backends) (h : BackendLeaf backend keys) :
      LeafOf config (name :: keys)
  | recording (h : config.llmRecording.isSome = true) :
      LeafOf config ["llm_recording", "corpus_path"]
  | tiering {field : String} (hm : field ∈ TieringConfig.modelFields) :
      LeafOf config ["tiering", field]
  | context {keys : List String} : LeafOf config ("context" :: keys)
  | receiptArchive {keys : List String} : LeafOf config ("receipt_archive" :: keys)

/-- The fields of an accepted configuration. -/
structure SporkConfig.ReadFrom (numbers : NumberFields) (t : Table) (config : SporkConfig) :
    Prop where
  fields : forbidExtra modelFields t = true
  provider : required BackendSpec.validate t "provider" = some config.provider
  llm : required BackendSpec.validate t "llm" = some config.llm
  alerts : required BackendSpec.validate t "alerts" = some config.alerts
  llmRecording :
    nullable LLMRecordingConfig.validate t "llm_recording" = some config.llmRecording
  rulesPath : required validatePath t "rules_path" = some config.rulesPath
  dbPath : required validatePath t "db_path" = some config.dbPath
  socketPath : ∃ path, nullable validatePath t "socket_path" = some path
  tiering : defaulted (TieringConfig.validate numbers) {} t "tiering" = some config.tiering
  logLevel : defaulted validateLogLevel "INFO" t "log_level" = some config.logLevel

theorem SporkConfig.readFrom_of_validate {numbers : NumberFields} {t : Table}
    {config : SporkConfig} (h : SporkConfig.validate numbers t = some config) :
    config.ReadFrom numbers t := by
  rw [validate] at h
  split at h
  · next hfields =>
    obtain ⟨provider, hprovider, h⟩ := Option.bind_eq_some_iff.1 h
    obtain ⟨llm, hllm, h⟩ := Option.bind_eq_some_iff.1 h
    obtain ⟨alerts, halerts, h⟩ := Option.bind_eq_some_iff.1 h
    obtain ⟨context, -, h⟩ := Option.bind_eq_some_iff.1 h
    obtain ⟨recording, hrecording, h⟩ := Option.bind_eq_some_iff.1 h
    obtain ⟨receiptArchive, -, h⟩ := Option.bind_eq_some_iff.1 h
    obtain ⟨rulesPath, hrules, h⟩ := Option.bind_eq_some_iff.1 h
    obtain ⟨dbPath, hdb, h⟩ := Option.bind_eq_some_iff.1 h
    obtain ⟨socketPath, hsocket, h⟩ := Option.bind_eq_some_iff.1 h
    obtain ⟨tiering, htiering, h⟩ := Option.bind_eq_some_iff.1 h
    obtain ⟨logLevel, hlevel, h⟩ := Option.bind_eq_some_iff.1 h
    cases h
    exact ⟨hfields, hprovider, hllm, halerts, hrecording, hrules, hdb, ⟨_, hsocket⟩, htiering,
      hlevel⟩
  · cases h

/-- What `load_config` returns is read from the merged table; only the socket's path may be from
elsewhere. -/
theorem loadConfig_readFrom {numbers : NumberFields} {socketPath : PyPath}
    {systemDefaults : List (Option String)} {user enforced : Option String} {config : SporkConfig}
    (h : loadConfig numbers socketPath systemDefaults user enforced = .ok config) :
    ∃ merged, mergeTiers systemDefaults user enforced = .ok merged ∧
      config.ReadFrom numbers merged := by
  rw [loadConfig] at h
  cases hmerge : mergeTiers systemDefaults user enforced with
  | error e =>
    rw [hmerge] at h
    cases h
  | ok merged =>
    rw [hmerge] at h
    dsimp only at h
    split at h
    · cases h
    · next hvalid =>
      have hread := SporkConfig.readFrom_of_validate hvalid
      split at h
      · cases h
        exact ⟨merged, rfl, hread.fields, hread.provider, hread.llm, hread.alerts,
          hread.llmRecording, hread.rulesPath, hread.dbPath, hread.socketPath, hread.tiering,
          hread.logLevel⟩
      · cases h
        exact ⟨merged, rfl, hread⟩

/-- **Every value of an accepted configuration is in one of a few places.** -/
theorem leafOf_of_isLeaf {numbers : NumberFields} {t : Table} {config : SporkConfig}
    (h : config.ReadFrom numbers t) {path : List String} {v : Value} (hleaf : IsLeaf t path v) :
    LeafOf config path := by
  obtain ⟨hat, hv⟩ := hleaf
  obtain ⟨key, keys, w, rfl, hw, hbelow⟩ := at_table hat hv
  have hscalar : key ∈ ["rules_path", "db_path", "socket_path", "log_level"] →
      w.isTable = false → LeafOf config (key :: keys) := by
    intro hkey hnot
    cases at_of_not_isTable hnot hbelow
    exact .top hkey
  have hbackend : ∀ backend, (key, backend) ∈ config.backends →
      required BackendSpec.validate t key = some backend → LeafOf config (key :: keys) := by
    intro backend hm hvalid
    rw [required_of_lookup hw] at hvalid
    exact .backend hm (BackendSpec.leaf hvalid hbelow hv)
  have hkey := mem_fields h.fields hw
  simp only [SporkConfig.modelFields, List.mem_cons, List.not_mem_nil, or_false] at hkey
  rcases hkey with rfl | rfl | rfl | rfl | rfl | rfl | rfl | rfl | rfl | rfl | rfl
  · exact hbackend _ List.mem_cons_self h.provider
  · exact hbackend _ (List.mem_cons_of_mem _ List.mem_cons_self) h.llm
  · exact hbackend _ (List.mem_cons_of_mem _ (List.mem_cons_of_mem _ List.mem_cons_self)) h.alerts
  · exact .context
  · have hrecording := h.llmRecording
    rw [nullable_of_lookup hw] at hrecording
    obtain ⟨recording, hvalid, hsome⟩ := Option.map_eq_some_iff.1 hrecording
    cases LLMRecordingConfig.leaf hvalid hbelow hv
    exact .recording (hsome ▸ rfl)
  · exact .receiptArchive
  · exact hscalar (by decide) (rejectsTables_path.of_required hw h.rulesPath)
  · exact hscalar (by decide) (rejectsTables_path.of_required hw h.dbPath)
  · obtain ⟨path, hpath⟩ := h.socketPath
    exact hscalar (by decide) (rejectsTables_path.of_nullable hw hpath)
  · have htiering := h.tiering
    rw [defaulted_of_lookup hw] at htiering
    obtain ⟨field, hm, rfl⟩ := TieringConfig.leaf htiering hbelow hv
    exact .tiering hm
  · exact hscalar (by decide) (RejectsTables.of_defaulted (fun _ => rfl) hw h.logLevel)

/-! ## Where the lines are -/

/-- The keys that the lines of a backend are about. -/
def backendKeys (name : String) (backend : BackendSpec) : List (List String) :=
  [name, "spec"] :: backend.kwargs.map (fun item => [name, "kwargs", item.1]) ++
    backend.secretKwargs.map fun item => [name, "secret_kwargs", item.1]

/-- The keys that the lines of the listing are about. -/
def SporkConfig.shownKeys (config : SporkConfig) : List (List String) :=
  [["rules_path"], ["db_path"], ["socket_path"]] ++ (backendKeys "provider" config.provider ++
    (backendKeys "llm" config.llm ++ (backendKeys "alerts" config.alerts ++
      ((if config.llmRecording.isSome then [["llm_recording", "corpus_path"]] else []) ++
        TieringConfig.modelFields.map fun field => ["tiering", field]))))

theorem dotted_pair (a b : String) : dotted [a, b] = a ++ "." ++ b := by
  rw [dotted, String.intercalate_cons_cons, String.intercalate_singleton]

theorem dotted_triple (a b c : String) : dotted [a, b, c] = a ++ "." ++ b ++ "." ++ c := by
  rw [← dotted_cons_cons, dotted_pair]

section Lines

variable {printer : Printer} {config : SporkConfig}

theorem kwargsLines_paths {name : String} : ∀ {kwargs : Table} {lines : List (String × String)},
    kwargsLines printer name kwargs = .ok lines →
      lines.map Prod.fst = kwargs.map fun item => name ++ ".kwargs." ++ item.1
  | [], _, h => by
    cases h
    rfl
  | item :: kwargs, lines, h => by
    obtain ⟨display, -, h⟩ := Toml.of_bind_ok h
    obtain ⟨rest, hrest, h⟩ := Toml.of_bind_ok h
    cases h
    rw [List.map_cons, List.map_cons, kwargsLines_paths hrest]

theorem backendLines_paths {name : String} {backend : BackendSpec}
    {lines : List (String × String)} (h : backendLines printer name backend = .ok lines) :
    lines.map Prod.fst = (backendKeys name backend).map dotted := by
  obtain ⟨kwargs, hkwargs, h⟩ := Toml.of_bind_ok h
  cases h
  have hkwarg : ∀ key, dotted [name, "kwargs", key] = name ++ ".kwargs." ++ key := fun key => by
    rw [dotted_triple, String.append_assoc, String.append_assoc, String.append_assoc,
      String.append_assoc]
    rfl
  have hsecret : ∀ key, dotted [name, "secret_kwargs", key] = name ++ ".secret_kwargs." ++ key :=
    fun key => by
      rw [dotted_triple, String.append_assoc, String.append_assoc, String.append_assoc,
        String.append_assoc]
      rfl
  have hspec : dotted [name, "spec"] = name ++ ".spec" := by
    rw [dotted_pair, String.append_assoc]
    rfl
  have hkwargs' : (backend.kwargs.map fun item => [name, "kwargs", item.1]).map dotted
      = backend.kwargs.map fun item => name ++ ".kwargs." ++ item.1 := by
    rw [List.map_map]
    exact List.map_congr_left fun item _ => hkwarg item.1
  have hsecret' : (backend.secretKwargs.map fun item => [name, "secret_kwargs", item.1]).map dotted
      = (backend.secretKwargs.map fun item => (name ++ ".secret_kwargs." ++ item.1, item.2)).map
          Prod.fst := by
    rw [List.map_map, List.map_map]
    exact List.map_congr_left fun item _ => hsecret item.1
  rw [backendKeys, List.map_append, List.map_append, List.map_cons, List.map_cons, hkwargs',
    hsecret', kwargsLines_paths hkwargs, hspec]

/-- The lines are about these keys, in this order. -/
theorem shownValues_paths {shown : List (String × String)}
    (h : shownValues printer config = .ok shown) :
    shown.map Prod.fst = config.shownKeys.map dotted := by
  obtain ⟨provider, hprovider, h⟩ := Toml.of_bind_ok h
  obtain ⟨llm, hllm, h⟩ := Toml.of_bind_ok h
  obtain ⟨alerts, halerts, h⟩ := Toml.of_bind_ok h
  obtain ⟨tiering, htiering, h⟩ := Toml.of_bind_ok h
  obtain ⟨budget, -, htiering⟩ := Toml.of_bind_ok htiering
  obtain ⟨chars, -, htiering⟩ := Toml.of_bind_ok htiering
  cases h
  cases htiering
  have hrecording : (recordingLines config.llmRecording).map Prod.fst
      = (if config.llmRecording.isSome then [["llm_recording", "corpus_path"]] else []).map
          dotted := by
    cases config.llmRecording <;> rfl
  simp only [SporkConfig.shownKeys, List.map_append, backendLines_paths hprovider,
    backendLines_paths hllm, backendLines_paths halerts, hrecording]
  rfl

end Lines

/-! ### Dotted names -/

theorem dotted_singleton (a : String) : dotted [a] = a := String.intercalate_singleton

theorem dotted_cons {a : String} {path : List String} (h : path ≠ []) :
    dotted (a :: path) = a ++ "." ++ dotted path := by
  cases path with
  | nil => exact absurd rfl h
  | cons b path => rw [dotted, dotted, String.intercalate_cons_cons]

/-- A name up to its first dot, and what comes after it. -/
theorem dotted_split {a : String} (ha : '.' ∉ a.toList) (path : List String) :
    (dotted (a :: path)).toList.takeWhile (· != '.') = a.toList ∧
      (dotted (a :: path)).toList.dropWhile (· != '.')
        = if path = [] then [] else '.' :: (dotted path).toList := by
  have hpos : ∀ c ∈ a.toList, (c != '.') = true := fun c hc =>
    bne_iff_ne.2 fun he => ha (he ▸ hc)
  by_cases hpath : path = []
  · subst hpath
    rw [dotted_singleton, if_pos rfl, ← List.append_nil a.toList,
      List.takeWhile_append_of_pos hpos, List.dropWhile_append_of_pos hpos]
    exact ⟨rfl, rfl⟩
  · have htext : (dotted (a :: path)).toList = a.toList ++ '.' :: (dotted path).toList := by
      rw [dotted_cons hpath, String.toList_append, String.toList_append, List.append_assoc]
      rfl
    rw [htext, if_neg hpath, List.takeWhile_append_of_pos hpos, List.dropWhile_append_of_pos hpos]
    exact ⟨by simp, by simp⟩

/-- Two names with the same text have the same first key, if there are no dots in their first
keys. -/
theorem dotted_cons_inj {a b : String} {path path' : List String} (ha : '.' ∉ a.toList)
    (hb : '.' ∉ b.toList) (h : dotted (a :: path) = dotted (b :: path')) :
    a = b ∧ (path = [] ↔ path' = []) ∧ (path ≠ [] → dotted path = dotted path') := by
  obtain ⟨hfirst, hrest⟩ := dotted_split ha path
  obtain ⟨hfirst', hrest'⟩ := dotted_split hb path'
  rw [h] at hfirst hrest
  have hab : a = b := String.toList_inj.1 (hfirst.symm.trans hfirst')
  have htail := hrest.symm.trans hrest'
  by_cases hpath : path = []
  · by_cases hpath' : path' = []
    · exact ⟨hab, iff_of_true hpath hpath', fun hne => absurd hpath hne⟩
    · rw [if_pos hpath, if_neg hpath'] at htail
      cases htail
  · by_cases hpath' : path' = []
    · rw [if_neg hpath, if_pos hpath'] at htail
      cases htail
    · rw [if_neg hpath, if_neg hpath'] at htail
      exact ⟨hab, iff_of_false hpath hpath', fun _ =>
        String.toList_inj.1 (List.cons.inj htail).2⟩

/-! ### The keys of the lines -/

section Keys

variable {config : SporkConfig} {name : String} {backend : BackendSpec} {ks : List String}

theorem mem_shownKeys : ks ∈ config.shownKeys ↔
    ks ∈ [["rules_path"], ["db_path"], ["socket_path"]] ∨
      (∃ name backend, (name, backend) ∈ config.backends ∧ ks ∈ backendKeys name backend) ∨
        config.llmRecording.isSome = true ∧ ks = ["llm_recording", "corpus_path"] ∨
          ∃ field ∈ TieringConfig.modelFields, ks = ["tiering", field] := by
  have hbackends : (∃ name backend, (name, backend) ∈ config.backends ∧
      ks ∈ backendKeys name backend) ↔ ks ∈ backendKeys "provider" config.provider ∨
        ks ∈ backendKeys "llm" config.llm ∨ ks ∈ backendKeys "alerts" config.alerts := by
    simp only [SporkConfig.backends, List.mem_cons, List.not_mem_nil, or_false, Prod.mk.injEq]
    constructor
    · rintro ⟨name, backend, ⟨rfl, rfl⟩ | ⟨rfl, rfl⟩ | ⟨rfl, rfl⟩, hm⟩
      · exact .inl hm
      · exact .inr (.inl hm)
      · exact .inr (.inr hm)
    · rintro (hm | hm | hm)
      · exact ⟨_, _, .inl ⟨rfl, rfl⟩, hm⟩
      · exact ⟨_, _, .inr (.inl ⟨rfl, rfl⟩), hm⟩
      · exact ⟨_, _, .inr (.inr ⟨rfl, rfl⟩), hm⟩
  have hrecording : ks ∈ (if config.llmRecording.isSome then [["llm_recording", "corpus_path"]]
      else []) ↔ config.llmRecording.isSome = true ∧ ks = ["llm_recording", "corpus_path"] := by
    split
    · next h => rw [List.mem_singleton, and_iff_right h]
    · next h => exact iff_of_false List.not_mem_nil fun hk => h hk.1
  rw [SporkConfig.shownKeys, List.mem_append, List.mem_append, List.mem_append, List.mem_append,
    List.mem_append, hbackends, hrecording, List.mem_map]
  simp only [or_assoc, eq_comm]

/-- What the lines begin with. -/
def shownHeads : List String :=
  ["rules_path", "db_path", "socket_path", "provider", "llm", "alerts", "llm_recording", "tiering"]

theorem no_dot_shownHeads : ∀ head ∈ shownHeads, '.' ∉ head.toList := by decide

theorem backend_head (hm : (name, backend) ∈ config.backends) : name ∈ shownHeads := by
  simp only [SporkConfig.backends, List.mem_cons, List.not_mem_nil, or_false, Prod.mk.injEq] at hm
  rcases hm with ⟨rfl, -⟩ | ⟨rfl, -⟩ | ⟨rfl, -⟩ <;> decide

theorem backendKeys_cons (hk : ks ∈ backendKeys name backend) : ∃ rest, ks = name :: rest ∧
    (rest = ["spec"] ∨ (∃ key ∈ backend.kwargs.map Prod.fst, rest = ["kwargs", key]) ∨
      ∃ key ∈ backend.secretKwargs.map Prod.fst, rest = ["secret_kwargs", key]) := by
  rcases List.mem_append.1 hk with hk | hk
  · rcases List.mem_cons.1 hk with rfl | hk
    · exact ⟨_, rfl, .inl rfl⟩
    · obtain ⟨item, hitem, rfl⟩ := List.mem_map.1 hk
      exact ⟨_, rfl, .inr (.inl ⟨item.1, List.mem_map_of_mem hitem, rfl⟩)⟩
  · obtain ⟨item, hitem, rfl⟩ := List.mem_map.1 hk
    exact ⟨_, rfl, .inr (.inr ⟨item.1, List.mem_map_of_mem hitem, rfl⟩)⟩

theorem shownKeys_cons (hk : ks ∈ config.shownKeys) : ∃ head ∈ shownHeads, ∃ rest,
    ks = head :: rest := by
  rcases mem_shownKeys.1 hk with hk | ⟨name, backend, hm, hk⟩ | ⟨-, rfl⟩ | ⟨field, -, rfl⟩
  · simp only [List.mem_cons, List.not_mem_nil, or_false] at hk
    rcases hk with rfl | rfl | rfl
    · exact ⟨_, by decide, _, rfl⟩
    · exact ⟨_, by decide, _, rfl⟩
    · exact ⟨_, by decide, _, rfl⟩
  · obtain ⟨rest, rfl, -⟩ := backendKeys_cons hk
    exact ⟨name, backend_head hm, rest, rfl⟩
  · exact ⟨_, by decide, _, rfl⟩
  · exact ⟨_, by decide, _, rfl⟩

/-- The three backends have three names. -/
theorem backend_unique {backend' : BackendSpec} (hm : (name, backend) ∈ config.backends)
    (hm' : (name, backend') ∈ config.backends) : backend = backend' := by
  have hnames : (config.backends.map Prod.fst).Nodup :=
    show (["provider", "llm", "alerts"] : List String).Nodup by decide
  exact congrArg Prod.snd (List.inj_on_of_nodup_map hnames hm hm' rfl)

/-- The lines of a backend are the ones that begin with its name. -/
theorem backendKeys_of_shownKeys {rest : List String} (hm : (name, backend) ∈ config.backends)
    (hk : name :: rest ∈ config.shownKeys) : name :: rest ∈ backendKeys name backend := by
  have hname : name ∉ ["rules_path", "db_path", "socket_path", "llm_recording", "tiering"] := by
    simp only [SporkConfig.backends, List.mem_cons, List.not_mem_nil, or_false, Prod.mk.injEq]
      at hm
    rcases hm with ⟨rfl, -⟩ | ⟨rfl, -⟩ | ⟨rfl, -⟩ <;> decide
  rcases mem_shownKeys.1 hk with hk | ⟨name', backend', hm', hk⟩ | ⟨-, he⟩ | ⟨field, -, he⟩
  · simp only [List.mem_cons, List.not_mem_nil, or_false, List.cons.injEq] at hk
    rcases hk with ⟨rfl, -⟩ | ⟨rfl, -⟩ | ⟨rfl, -⟩ <;> exact absurd (by decide) hname
  · obtain ⟨rest', he, -⟩ := backendKeys_cons hk
    obtain ⟨rfl, rfl⟩ := List.cons.inj he
    rwa [backend_unique hm hm']
  · obtain ⟨rfl, -⟩ := List.cons.inj he
    exact absurd (by decide) hname
  · obtain ⟨rfl, -⟩ := List.cons.inj he
    exact absurd (by decide) hname

end Keys

/-! ## The marks -/

/-- What the walk does not leave out, of the paths that a configuration has values at. -/
structure Listed (config : SporkConfig) (path : List String) : Prop where
  logLevel : path ≠ ["log_level"]
  context : ∀ keys, path ≠ "context" :: keys
  receiptArchive : ∀ keys, path ≠ "receipt_archive" :: keys
  kwargs : ∀ name backend keys, (name, backend) ∈ config.backends →
    path = name :: "kwargs" :: keys → dotted keys ∈ backend.kwargs.map Prod.fst

section Marks

variable {config : SporkConfig} {path : List String}

/-- A value that is listed has a line. -/
theorem Listed.shown (h : Listed config path) (hleaf : LeafOf config path) :
    ∃ ks ∈ config.shownKeys, dotted ks = dotted path := by
  cases hleaf with
  | @top key hm =>
    refine ⟨[key], mem_shownKeys.2 (.inl ?_), rfl⟩
    simp only [List.mem_cons, List.not_mem_nil, or_false] at hm
    rcases hm with rfl | rfl | rfl | rfl
    · decide
    · decide
    · decide
    · exact absurd rfl h.logLevel
  | @backend name backend keys hm hbelow =>
    have hmem : ∀ {ks}, ks ∈ backendKeys name backend → ks ∈ config.shownKeys := fun hk =>
      mem_shownKeys.2 (.inr (.inl ⟨name, backend, hm, hk⟩))
    cases hbelow with
    | spec => exact ⟨_, hmem List.mem_cons_self, rfl⟩
    | @kwargs key keys hkey =>
      obtain ⟨item, hitem, he⟩ := List.mem_map.1 (h.kwargs name backend (key :: keys) hm rfl)
      refine ⟨[name, "kwargs", item.1], hmem (List.mem_append_left _ (List.mem_cons_of_mem _
        (List.mem_map.2 ⟨item, hitem, rfl⟩))), ?_⟩
      rw [dotted_cons (List.cons_ne_nil _ _), dotted_cons (List.cons_ne_nil _ _), dotted_singleton,
        he, dotted_cons (List.cons_ne_nil _ _), dotted_cons (List.cons_ne_nil _ _)]
    | @secretKwargs key hkey =>
      obtain ⟨item, hitem, rfl⟩ := List.mem_map.1 hkey
      exact ⟨[name, "secret_kwargs", item.1],
        hmem (List.mem_append_right _ (List.mem_map.2 ⟨item, hitem, rfl⟩)), rfl⟩
  | recording hsome => exact ⟨_, mem_shownKeys.2 (.inr (.inr (.inl ⟨hsome, rfl⟩))), rfl⟩
  | tiering hm => exact ⟨_, mem_shownKeys.2 (.inr (.inr (.inr ⟨_, hm, rfl⟩))), rfl⟩
  | context => exact absurd rfl (h.context _)
  | receiptArchive => exact absurd rfl (h.receiptArchive _)

/-- A line is about nothing that begins with another key. -/
theorem head_of_shown {ks keys : List String} {key : String} (hk : ks ∈ config.shownKeys)
    (hkey : '.' ∉ key.toList) (h : dotted ks = dotted (key :: keys)) : key ∈ shownHeads := by
  obtain ⟨head, hhead, rest, rfl⟩ := shownKeys_cons hk
  obtain ⟨rfl, -⟩ := dotted_cons_inj (no_dot_shownHeads head hhead) hkey h
  exact hhead

/-- A line about something inside of the constructor arguments is the line of an argument. -/
theorem kwargs_of_shown {ks keys : List String} {name : String} {backend : BackendSpec}
    (hm : (name, backend) ∈ config.backends) (hk : ks ∈ config.shownKeys)
    (h : dotted ks = dotted (name :: "kwargs" :: keys)) :
    dotted keys ∈ backend.kwargs.map Prod.fst := by
  obtain ⟨head, hhead, rest, rfl⟩ := shownKeys_cons hk
  obtain ⟨rfl, hnil, hrest⟩ := dotted_cons_inj (no_dot_shownHeads head hhead)
    (no_dot_shownHeads name (backend_head hm)) h
  have hne : rest ≠ [] := fun he => List.cons_ne_nil _ _ (hnil.1 he)
  obtain ⟨rest', he, hcases⟩ := backendKeys_cons (backendKeys_of_shownKeys hm hk)
  obtain ⟨-, rfl⟩ := List.cons.inj he
  rcases hcases with rfl | ⟨key, hkey, rfl⟩ | ⟨key, -, rfl⟩
  · exact absurd (dotted_cons_inj (by decide) (by decide) (hrest hne)).1 (by decide)
  · obtain ⟨-, -, hbelow⟩ := dotted_cons_inj (by decide) (by decide) (hrest hne)
    rw [← hbelow (List.cons_ne_nil _ _), dotted_singleton]
    exact hkey
  · exact absurd (dotted_cons_inj (by decide) (by decide) (hrest hne)).1 (by decide)

/-- A value that has a line is listed. -/
theorem listed_of_shown {ks : List String} (hk : ks ∈ config.shownKeys)
    (h : dotted ks = dotted path) : Listed config path where
  logLevel := by
    rintro rfl
    exact absurd (head_of_shown hk (by decide) h) (by decide)
  context := by
    rintro keys rfl
    exact absurd (head_of_shown hk (by decide) h) (by decide)
  receiptArchive := by
    rintro keys rfl
    exact absurd (head_of_shown hk (by decide) h) (by decide)
  kwargs := by
    rintro name backend keys hm rfl
    exact kwargs_of_shown hm hk h

/-- The name of a value says where it is: no table at the top is below an empty key. -/
theorem LeafOf.dropEmptyKeys (h : LeafOf config path) : dropEmptyKeys path = path := by
  refine dropEmptyKeys_self fun keys hne he => ?_
  cases h with
  | top hm => exact hne (List.cons.inj he).2.symm
  | backend hm _ => exact absurd ((List.cons.inj he).1 ▸ backend_head hm) (by decide)
  | recording _ => exact absurd (List.cons.inj he).1 (by decide)
  | tiering _ => exact absurd (List.cons.inj he).1 (by decide)
  | context => exact absurd (List.cons.inj he).1 (by decide)
  | receiptArchive => exact absurd (List.cons.inj he).1 (by decide)

end Marks

/-- What the listing promises about the paths of the enforced tier: each of them has a line that is
marked, and no other line is. -/
def FlagsEnforced (printer : Printer) (config : SporkConfig) (enforcedPaths : List String) : Prop :=
  ∃ lines, showLines printer config enforcedPaths = .ok lines ∧
    (∀ path ∈ enforcedPaths, ∃ line ∈ lines, line.path = path ∧ line.enforced = true) ∧
      ∀ line ∈ lines, line.enforced = true → line.path ∈ enforcedPaths

/-- A mark is never wrong; what can go wrong is that there is no line for it. -/
theorem flagsEnforced_iff {printer : Printer} {config : SporkConfig}
    {enforcedPaths : List String} : FlagsEnforced printer config enforcedPaths ↔
      ¬config.Unwritable ∧ ∀ path ∈ enforcedPaths, ∃ ks ∈ config.shownKeys, dotted ks = path := by
  constructor
  · rintro ⟨lines, hlines, hmarked, -⟩
    cases hshown : shownValues printer config with
    | error e =>
      rw [showLines, hshown] at hlines
      cases hlines
    | ok shown =>
      rw [showLines, hshown] at hlines
      cases hlines
      refine ⟨(shownValues_ok_iff printer).1 ⟨shown, hshown⟩, fun path hp => ?_⟩
      obtain ⟨line, hline, rfl, -⟩ := hmarked path hp
      obtain ⟨pair, hpair, rfl⟩ := List.mem_map.1 hline
      have hm : pair.1 ∈ shown.map Prod.fst := List.mem_map_of_mem hpair
      rw [shownValues_paths hshown] at hm
      exact List.mem_map.1 hm
  · rintro ⟨hwritable, hall⟩
    obtain ⟨shown, hshown⟩ := (shownValues_ok_iff printer).2 hwritable
    refine ⟨shown.map (addLine enforcedPaths), by rw [showLines, hshown]; rfl, fun path hp => ?_,
      fun line hline hmark => ?_⟩
    · obtain ⟨ks, hks, hdotted⟩ := hall path hp
      have hm : path ∈ shown.map Prod.fst := by
        rw [shownValues_paths hshown, ← hdotted]
        exact List.mem_map_of_mem hks
      obtain ⟨pair, hpair, rfl⟩ := List.mem_map.1 hm
      exact ⟨_, List.mem_map_of_mem hpair, rfl, decide_eq_true hp⟩
    · obtain ⟨pair, -, rfl⟩ := List.mem_map.1 hline
      exact of_decide_eq_true hmark

section Accepted

variable {numbers : NumberFields} {socketPath : PyPath} {systemDefaults : List (Option String)}
  {user enforced : Option String} {config : SporkConfig} {tier : Table}

/-- A value of the enforced tier is one of the configuration's. -/
theorem leafOf_of_enforced
    (hload : loadConfig numbers socketPath systemDefaults user enforced = .ok config)
    (htier : readToml enforced = .ok tier) {path : List String} {v : Value}
    (hleaf : IsLeaf tier path v) : LeafOf config path := by
  obtain ⟨merged, hmerge, hread⟩ := loadConfig_readFrom hload
  obtain ⟨base, tier', htier', rfl⟩ := mergeTiers_enforced hmerge
  rw [htier] at htier'
  cases htier'
  exact leafOf_of_isLeaf hread (isLeaf_merge_right (readToml_distinct htier) hleaf)

/-- The enforced paths are the dotted names of the enforced values. -/
theorem mem_enforcedPaths
    (hload : loadConfig numbers socketPath systemDefaults user enforced = .ok config)
    (htier : readToml enforced = .ok tier) {name : String} :
    name ∈ flattenKeys "" tier ↔ ∃ path v, IsLeaf tier path v ∧ dotted path = name := by
  rw [mem_flattenKeys (readToml_distinct htier)]
  refine exists_congr fun path => exists_congr fun v => and_congr_right fun hleaf => ?_
  rw [(leafOf_of_enforced hload htier hleaf).dropEmptyKeys]

end Accepted

/-- **The listing flags what the enforced tier sets exactly if the tier sets nothing that the walk
leaves out**, as long as the listing can be written at all. -/
theorem formatShowLines_flags_iff (numbers : NumberFields) (socketPath : PyPath)
    (printer : Printer) {systemDefaults : List (Option String)} {user enforced : Option String}
    {config : SporkConfig}
    (hload : loadConfig numbers socketPath systemDefaults user enforced = .ok config) :
    ∃ tier paths, readToml enforced = .ok tier ∧ enforcedOverridePaths enforced = .ok paths ∧
      (FlagsEnforced printer config paths ↔
        ¬config.Unwritable ∧ ∀ path v, IsLeaf tier path v → Listed config path) := by
  obtain ⟨merged, hmerge, -⟩ := loadConfig_readFrom hload
  obtain ⟨base, tier, htier, -⟩ := mergeTiers_enforced hmerge
  refine ⟨tier, flattenKeys "" tier, htier, by rw [enforcedOverridePaths, htier]; rfl, ?_⟩
  rw [flagsEnforced_iff]
  refine and_congr_right fun _ => ⟨fun h path v hleaf => ?_, fun h path hp => ?_⟩
  · obtain ⟨ks, hks, hdotted⟩ := h _ ((mem_enforcedPaths hload htier).2 ⟨path, v, hleaf, rfl⟩)
    exact listed_of_shown hks hdotted
  · obtain ⟨keys, v, hleaf, rfl⟩ := (mem_enforcedPaths hload htier).1 hp
    exact (h keys v hleaf).shown (leafOf_of_enforced hload htier hleaf)

/-- Numbers are read where numbers are written. -/
def writtenNumbers : NumberFields where
  float
    | .integer n => some (.fin n)
    | _ => none
  int
    | .integer n => some n
    | _ => none
  float_table := fun _ => rfl
  int_table := fun _ => rfl

/-- A user's file with nothing in it that is not required. -/
def plainUser : String :=
  "rules_path = \"/rules.toml\"\ndb_path = \"/state.db\"\n" ++
    "[provider]\nspec = \"m:P\"\n[llm]\nspec = \"m:C\"\n[alerts]\nspec = \"m:A\"\n"

/-- What two enforced tiers make of it. -/
theorem plainUser_loads :
    (loadConfig writtenNumbers (.parse "/run/spork.sock") [] (some plainUser)
        (some "[tiering]\ndaily_call_budget = 10\n")).toOption.map (fun config =>
          (config.backends.map fun item => item.2.kwargs.length, config.tiering.dailyCallBudget,
            config.tiering.maxBodyChars)) = some ([0, 0, 0], 10, 4000) ∧
      (loadConfig writtenNumbers (.parse "/run/spork.sock") [] (some plainUser)
        (some "log_level = \"DEBUG\"\n")).isOk = true := by
  decide +kernel

/-- An enforced budget is flagged. -/
theorem enforced_budget_flagged :
    ∃ config, loadConfig writtenNumbers (.parse "/run/spork.sock") [] (some plainUser)
        (some "[tiering]\ndaily_call_budget = 10\n") = .ok config ∧
      FlagsEnforced asSpelled config ["tiering.daily_call_budget"] := by
  have hconfig := plainUser_loads.1
  have hflat : (enforcedOverridePaths (some "[tiering]\ndaily_call_budget = 10\n")).toOption =
      some ["tiering.daily_call_budget"] := by decide +kernel
  cases hload : loadConfig writtenNumbers (.parse "/run/spork.sock") [] (some plainUser)
      (some "[tiering]\ndaily_call_budget = 10\n") with
  | error e =>
    rw [hload] at hconfig
    cases hconfig
  | ok config =>
    rw [hload] at hconfig
    obtain ⟨hkwargs, hnumbers⟩ := Prod.mk.inj (Option.some.inj hconfig)
    obtain ⟨hbudget, hchars⟩ := Prod.mk.inj hnumbers
    obtain ⟨tier, paths, htier, hpaths, hiff⟩ := formatShowLines_flags_iff writtenNumbers _
      asSpelled hload
    rw [hpaths] at hflat
    cases hflat
    refine ⟨config, rfl, hiff.2 ⟨?_, fun path v hleaf => ?_⟩⟩
    · rintro (⟨name, spec, hm, item, hitem, -⟩ | hbig | hbig)
      · have hlength : spec.kwargs.length ∈ [0, 0, 0] := hkwargs ▸ List.mem_map_of_mem hm
        have hnone : spec.kwargs = [] := List.length_eq_zero_iff.1 (by simpa using hlength)
        rw [hnone] at hitem
        cases hitem
      · rw [hbudget] at hbig
        exact absurd hbig (by decide)
      · rw [hchars] at hbig
        exact absurd hbig (by decide)
    · have hname := (mem_enforcedPaths hload htier).2 ⟨path, v, hleaf, rfl⟩
      rw [enforcedOverridePaths, htier] at hpaths
      rw [show flattenKeys "" tier = ["tiering.daily_call_budget"] from Except.ok.inj hpaths,
        List.mem_singleton] at hname
      have hshown : ["tiering", "daily_call_budget"] ∈ config.shownKeys :=
        mem_shownKeys.2 (.inr (.inr (.inr ⟨_, by decide, rfl⟩)))
      exact listed_of_shown hshown (by rw [hname]; decide)

/-- An enforced log level has no line at all. -/
theorem enforced_log_level_unlisted :
    ∃ config, loadConfig writtenNumbers (.parse "/run/spork.sock") [] (some plainUser)
        (some "log_level = \"DEBUG\"\n") = .ok config ∧
      enforcedOverridePaths (some "log_level = \"DEBUG\"\n") = .ok ["log_level"] ∧
      ¬FlagsEnforced asSpelled config ["log_level"] := by
  have hpaths : enforcedOverridePaths (some "log_level = \"DEBUG\"\n") = .ok ["log_level"] := by
    decide +kernel
  have hok := plainUser_loads.2
  cases hload : loadConfig writtenNumbers (.parse "/run/spork.sock") [] (some plainUser)
      (some "log_level = \"DEBUG\"\n") with
  | error e =>
    rw [hload] at hok
    cases hok
  | ok config =>
    refine ⟨config, rfl, hpaths, fun h => ?_⟩
    obtain ⟨-, hall⟩ := flagsEnforced_iff.1 h
    obtain ⟨ks, hks, hdotted⟩ := hall "log_level" List.mem_cons_self
    exact (listed_of_shown hks (hdotted.trans (dotted_singleton _).symm)).logLevel rfl

end Spork
