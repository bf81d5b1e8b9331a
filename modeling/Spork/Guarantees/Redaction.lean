import Spork.Cli.Config
import Spork.Toml.Keys
import Mathlib.Algebra.Order.BigOperators.Group.List
import Mathlib.Algebra.Order.Group.Nat

/-!
# What `config show` keeps to itself

A value is shown as `str` writes it, tables and lists in it included, and the keys that look like
credentials' are only looked for at the top of the constructor arguments.

* `SecretBelow`: a table somewhere inside a value has such a key.  `SecretBelow.leaks`: then what
  stands under it shows, since a longer value makes a longer text.
* `formatShowLines_redacts_iff`: so the listing is the same for any two configurations that only
  differ in credentials exactly if no credential is further down.  The listing of a configuration
  with an integer that `str` does not write is an error.
-/

set_option autoImplicit false

namespace Spork

open Toml (Value Table)

/-! ## Two values that differ in credentials -/

/-- A table in the value has a key that looks like a credential's. -/
inductive SecretBelow : Value → Prop where
  | here {t : Table} {key : String} {v : Value} (hm : (key, v) ∈ t)
      (hkey : looksLikeSecret key = true) : SecretBelow (.table t)
  | table {t : Table} {key : String} {v : Value} (hm : (key, v) ∈ t) (h : SecretBelow v) :
      SecretBelow (.table t)
  | array {vs : List Value} {v : Value} (hm : v ∈ vs) (h : SecretBelow v) : SecretBelow (.array vs)

mutual

/-- The values only differ below keys that look like credentials'. -/
inductive SameButSecrets : Value → Value → Prop where
  | same (v : Value) : SameButSecrets v v
  | array {vs vs' : List Value} (h : SameElements vs vs') :
      SameButSecrets (.array vs) (.array vs')
  | table {t t' : Table} (h : SameItems t t') : SameButSecrets (.table t) (.table t')

inductive SameElements : List Value → List Value → Prop where
  | nil : SameElements [] []
  | cons {v w : Value} {vs ws : List Value} (h : SameButSecrets v w) (hs : SameElements vs ws) :
      SameElements (v :: vs) (w :: ws)

inductive SameItems : Table → Table → Prop where
  | nil : SameItems [] []
  | secret {key : String} {v w : Value} {t t' : Table} (hkey : looksLikeSecret key = true)
      (hs : SameItems t t') : SameItems ((key, v) :: t) ((key, w) :: t')
  | cons {key : String} {v w : Value} {t t' : Table} (h : SameButSecrets v w)
      (hs : SameItems t t') : SameItems ((key, v) :: t) ((key, w) :: t')

end

theorem sameElements_refl : ∀ vs : List Value, SameElements vs vs
  | [] => .nil
  | v :: vs => .cons (.same v) (sameElements_refl vs)

theorem sameItems_refl : ∀ t : Table, SameItems t t
  | [] => .nil
  | (_, v) :: t => .cons (.same v) (sameItems_refl t)

mutual

/-- Without credentials there is no difference. -/
theorem SameButSecrets.eq : ∀ {v w : Value}, SameButSecrets v w → ¬SecretBelow v → w = v
  | _, _, .same _, _ => rfl
  | _, _, .array hs, h => congrArg Value.array (hs.eq fun _ hm hv => h (.array hm hv))
  | _, _, .table hs, h =>
    congrArg Value.table (hs.eq fun _ _ hm => ⟨fun hk => h (.here hm hk), fun hv =>
      h (.table hm hv)⟩)

theorem SameElements.eq : ∀ {vs ws : List Value}, SameElements vs ws →
    (∀ v ∈ vs, ¬SecretBelow v) → ws = vs
  | _, _, .nil, _ => rfl
  | _, _, .cons hv hs, h => by
    rw [hv.eq (h _ List.mem_cons_self), hs.eq fun w hm => h w (List.mem_cons_of_mem _ hm)]

theorem SameItems.eq : ∀ {t t' : Table}, SameItems t t' →
    (∀ key v, (key, v) ∈ t → ¬looksLikeSecret key = true ∧ ¬SecretBelow v) → t' = t
  | _, _, .nil, _ => rfl
  | _, _, .secret hkey _, h => absurd hkey (h _ _ List.mem_cons_self).1
  | _, _, .cons hv hs, h => by
    rw [hv.eq (h _ _ List.mem_cons_self).2, hs.eq fun k w hm => h k w (List.mem_cons_of_mem _ hm)]

end

theorem SameItems.keys : ∀ {t t' : Table}, SameItems t t' → t'.map Prod.fst = t.map Prod.fst
  | _, _, .nil => rfl
  | _, _, .secret _ hs => congrArg (_ :: ·) hs.keys
  | _, _, .cons _ hs => congrArg (_ :: ·) hs.keys

/-- Another value in one place. -/
theorem sameItems_replace {key : String} {v w : Value}
    (h : looksLikeSecret key = true ∨ SameButSecrets v w) :
    ∀ {t : Table}, (key, v) ∈ t → ∃ t', SameItems t t' ∧ (key, w) ∈ t' ∧
      ∀ item ∈ t', item ∈ t ∨ item = (key, w)
  | item :: t, hm => by
    rcases List.mem_cons.1 hm with rfl | hm
    · have hsame : SameItems ((key, v) :: t) ((key, w) :: t) :=
        h.elim (fun hkey => .secret hkey (sameItems_refl t)) fun hv => .cons hv (sameItems_refl t)
      refine ⟨(key, w) :: t, hsame, List.mem_cons_self, fun item hm => ?_⟩
      rcases List.mem_cons.1 hm with rfl | hm
      · exact .inr rfl
      · exact .inl (List.mem_cons_of_mem _ hm)
    · obtain ⟨t', hsame, hw, hrest⟩ := sameItems_replace h hm
      refine ⟨item :: t', .cons (.same item.2) hsame, List.mem_cons_of_mem item hw,
        fun item' hm => ?_⟩
      rcases List.mem_cons.1 hm with rfl | hm
      · exact .inl List.mem_cons_self
      · exact (hrest item' hm).imp_left (List.mem_cons_of_mem item)

theorem sameElements_replace {v w : Value} (h : SameButSecrets v w) :
    ∀ {vs : List Value}, v ∈ vs → ∃ vs', SameElements vs vs' ∧ w ∈ vs' ∧
      ∀ x ∈ vs', x ∈ vs ∨ x = w
  | x :: vs, hm => by
    rcases List.mem_cons.1 hm with rfl | hm
    · refine ⟨w :: vs, .cons h (sameElements_refl vs), List.mem_cons_self, fun x hm => ?_⟩
      rcases List.mem_cons.1 hm with rfl | hm
      · exact .inr rfl
      · exact .inl (List.mem_cons_of_mem _ hm)
    · obtain ⟨vs', hsame, hw, hrest⟩ := sameElements_replace h hm
      refine ⟨x :: vs', .cons (.same x) hsame, List.mem_cons_of_mem x hw, fun y hm => ?_⟩
      rcases List.mem_cons.1 hm with rfl | hm
      · exact .inl List.mem_cons_self
      · exact (hrest y hm).imp_left (List.mem_cons_of_mem x)

/-! ## What is written -/

/-- An integer in the value has more digits than `str` writes. -/
inductive HoldsOversized : Value → Prop where
  | integer {n : Int} (h : Oversized n) : HoldsOversized (.integer n)
  | array {vs : List Value} {v : Value} (hm : v ∈ vs) (h : HoldsOversized v) :
      HoldsOversized (.array vs)
  | table {t : Table} {key : String} {v : Value} (hm : (key, v) ∈ t) (h : HoldsOversized v) :
      HoldsOversized (.table t)

theorem pyStrInt_ok_iff (n : Int) : (∃ text, pyStrInt n = .ok text) ↔ ¬Oversized n := by
  rw [pyStrInt]
  split
  · next h => exact iff_of_false (by rintro ⟨_, ⟨⟩⟩) (not_not.2 h)
  · next h => exact iff_of_true ⟨_, rfl⟩ h

section Outcomes

variable {ε α β γ : Type} {x : Except ε α} {y : Except ε β}

/-- What is done with a result does not fail. -/
theorem map_ok_iff {f : α → β} :
    (∃ b, (x >>= fun a => Except.ok (f a)) = .ok b) ↔ ∃ a, x = .ok a := by
  cases x with
  | ok a => exact iff_of_true ⟨f a, rfl⟩ ⟨a, rfl⟩
  | error e => exact iff_of_false (by rintro ⟨_, ⟨⟩⟩) (by rintro ⟨_, ⟨⟩⟩)

/-- One step after another, where the first one does not decide whether the rest fails. -/
theorem bind_ok_iff {f : α → Except ε β} {P : Prop} (hf : ∀ a, (∃ b, f a = .ok b) ↔ P) :
    (∃ b, (x >>= f) = .ok b) ↔ (∃ a, x = .ok a) ∧ P := by
  cases x with
  | ok a => exact (hf a).trans (and_iff_right ⟨a, rfl⟩).symm
  | error e => exact iff_of_false (by rintro ⟨_, ⟨⟩⟩) (by rintro ⟨⟨_, ⟨⟩⟩, -⟩)

theorem seq_ok_iff {f : α → β → γ} :
    (∃ c, (x >>= fun a => y >>= fun b => Except.ok (f a b)) = .ok c) ↔
      (∃ a, x = .ok a) ∧ ∃ b, y = .ok b :=
  bind_ok_iff fun _ => map_ok_iff

end Outcomes

section Written

variable {printer : Printer}

mutual

/-- Whatever holds no oversized integer is written. -/
theorem repr_ok_iff : ∀ {v : Value}, (∃ text, printer.repr v = .ok text) ↔ ¬HoldsOversized v
  | .string _ | .boolean _ | .float _ | .datetime _ =>
    iff_of_true ⟨_, by rw [Printer.repr]⟩ fun h => by cases h
  | .integer n => by
    rw [Printer.repr, pyStrInt_ok_iff]
    exact not_congr ⟨.integer, fun h => by cases h; assumption⟩
  | .array vs => by
    rw [Printer.repr, map_ok_iff, reprElements_ok_iff]
    exact ⟨fun h hv => by cases hv with | array hm hv => exact h _ hm hv,
      fun h v hm hv => h (.array hm hv)⟩
  | .table t => by
    rw [Printer.repr, map_ok_iff, reprItems_ok_iff]
    exact ⟨fun h hv => by cases hv with | table hm hv => exact h _ hm hv,
      fun h item hm hv => h (@HoldsOversized.table _ item.1 _ hm hv)⟩

theorem reprElements_ok_iff : ∀ {vs : List Value},
    (∃ parts, printer.reprElements vs = .ok parts) ↔ ∀ v ∈ vs, ¬HoldsOversized v
  | [] => iff_of_true ⟨[], by rw [Printer.reprElements]⟩ fun _ hm => by cases hm
  | v :: vs => by
    rw [List.forall_mem_cons, ← repr_ok_iff, ← reprElements_ok_iff, Printer.reprElements]
    exact seq_ok_iff

theorem reprItems_ok_iff : ∀ {t : Table},
    (∃ parts, printer.reprItems t = .ok parts) ↔ ∀ item ∈ t, ¬HoldsOversized item.2
  | [] => iff_of_true ⟨[], by rw [Printer.reprItems]⟩ fun _ hm => by cases hm
  | item :: t => by
    rw [List.forall_mem_cons, ← reprItem_ok_iff, ← reprItems_ok_iff, Printer.reprItems]
    exact seq_ok_iff

theorem reprItem_ok_iff : ∀ {item : String × Value},
    (∃ part, printer.reprItem item = .ok part) ↔ ¬HoldsOversized item.2
  | (key, v) => by rw [← repr_ok_iff, Printer.reprItem, map_ok_iff]

end

/-- A list is written with each of its elements. -/
theorem mem_reprElements {v : Value} : ∀ {vs : List Value} {parts : List String}, v ∈ vs →
    printer.reprElements vs = .ok parts → ∃ text, printer.repr v = .ok text ∧ text ∈ parts
  | w :: vs, parts, hm, h => by
    rw [Printer.reprElements] at h
    obtain ⟨part, hpart, h⟩ := Toml.of_bind_ok h
    obtain ⟨rest, hrest, h⟩ := Toml.of_bind_ok h
    cases h
    rcases List.mem_cons.1 hm with rfl | hm
    · exact ⟨part, hpart, List.mem_cons_self⟩
    · obtain ⟨text, htext, hm⟩ := mem_reprElements hm hrest
      exact ⟨text, htext, List.mem_cons_of_mem part hm⟩

/-- A table is written with each of its items. -/
theorem mem_reprItems {key : String} {v : Value} : ∀ {t : Table} {parts : List String},
    (key, v) ∈ t → printer.reprItems t = .ok parts →
      ∃ text, printer.repr v = .ok text ∧ pyRepr key ++ ": " ++ text ∈ parts
  | item :: t, parts, hm, h => by
    rw [Printer.reprItems] at h
    obtain ⟨part, hpart, h⟩ := Toml.of_bind_ok h
    obtain ⟨rest, hrest, h⟩ := Toml.of_bind_ok h
    cases h
    rcases List.mem_cons.1 hm with rfl | hm
    · rw [Printer.reprItem] at hpart
      obtain ⟨text, htext, hpart⟩ := Toml.of_bind_ok hpart
      cases hpart
      exact ⟨text, htext, List.mem_cons_self⟩
    · obtain ⟨text, htext, hm⟩ := mem_reprItems hm hrest
      exact ⟨text, htext, List.mem_cons_of_mem part hm⟩

end Written

/-! ## A longer value makes a longer text -/

theorem length_le_intercalate {part : String} : ∀ {parts : List String}, part ∈ parts →
    part.length ≤ (", ".intercalate parts).length
  | [only], hm => by
    rw [List.mem_singleton.1 hm, String.intercalate_singleton]
  | first :: second :: rest, hm => by
    rw [String.intercalate_cons_cons, String.length_append, String.length_append]
    rcases List.mem_cons.1 hm with rfl | hm
    · omega
    · have := length_le_intercalate hm
      omega

theorem length_reprChar_pos (q c : Char) : 1 ≤ (reprChar q c).length := by
  rw [reprChar]
  repeat' split
  all_goals simp

theorem length_le_pyRepr (s : String) : s.length ≤ (pyRepr s).length := by
  have hflat : ∀ (q : Char) (cs : List Char), cs.length ≤ (cs.flatMap (reprChar q)).length := by
    intro q cs
    induction cs with
    | nil => exact Nat.le_refl _
    | cons c cs ih =>
      have := length_reprChar_pos q c
      rw [List.flatMap_cons, List.length_append, List.length_cons]
      omega
  rw [pyRepr]
  simp only [String.length_ofList, List.length_append, List.length_cons]
  have := hflat (if '\'' ∈ s.toList ∧ '"' ∉ s.toList then '"' else '\'') s.toList
  rw [String.length_toList] at this
  omega

/-- A text of this length at least. -/
def lengthy (n : Nat) : Value := .string (String.ofList (List.replicate n 'x'))

theorem repr_lengthy (printer : Printer) (n : Nat) :
    ∃ text, printer.repr (lengthy n) = .ok text ∧ n ≤ text.length := by
  refine ⟨_, by rw [lengthy, Printer.repr], ?_⟩
  refine Nat.le_trans ?_ (length_le_pyRepr _)
  rw [String.length_ofList, List.length_replicate]

section Leaks

variable {printer : Printer} {t t' : Table} {vs vs' : List Value} {w : Value} {key text : String}
  {n : Nat}

/-- A table is at least as long as a value in it. -/
theorem length_repr_table (hm : (key, w) ∈ t) (hw : printer.repr w = .ok text)
    (hlong : n ≤ text.length) (hok : ∀ item ∈ t, ¬HoldsOversized item.2) :
    ∃ whole, printer.repr (.table t) = .ok whole ∧ n ≤ whole.length := by
  obtain ⟨parts, hparts⟩ := reprItems_ok_iff.2 hok
  obtain ⟨text', htext, hpart⟩ := mem_reprItems hm hparts
  rw [hw] at htext
  cases htext
  refine ⟨_, by rw [Printer.repr, hparts]; rfl, ?_⟩
  have hle := length_le_intercalate hpart
  rw [String.length_append, String.length_append] at hle ⊢
  omega

theorem length_repr_array (hm : w ∈ vs) (hw : printer.repr w = .ok text) (hlong : n ≤ text.length)
    (hok : ∀ v ∈ vs, ¬HoldsOversized v) :
    ∃ whole, printer.repr (.array vs) = .ok whole ∧ n ≤ whole.length := by
  obtain ⟨parts, hparts⟩ := reprElements_ok_iff.2 hok
  obtain ⟨text', htext, hpart⟩ := mem_reprElements hm hparts
  rw [hw] at htext
  cases htext
  refine ⟨_, by rw [Printer.repr, hparts]; rfl, ?_⟩
  have hle := length_le_intercalate hpart
  rw [String.length_append, String.length_append]
  omega

/-- A longer value in one place makes a longer table. -/
theorem longer_item {v : Value} (hok : ¬HoldsOversized (.table t)) (hm : (key, v) ∈ t)
    (hvw : looksLikeSecret key = true ∨ SameButSecrets v w) (hw : printer.repr w = .ok text)
    (hlong : n ≤ text.length) :
    ∃ w' text', SameButSecrets (.table t) w' ∧ printer.repr w' = .ok text' ∧ n ≤ text'.length := by
  obtain ⟨t', hsame, hw', hrest⟩ := sameItems_replace hvw hm
  have hok' : ∀ item ∈ t', ¬HoldsOversized item.2 := fun item hm => by
    rcases hrest item hm with hm | rfl
    · exact fun hv => hok (@HoldsOversized.table _ item.1 _ hm hv)
    · exact repr_ok_iff.1 ⟨text, hw⟩
  obtain ⟨whole, hwhole, hle⟩ := length_repr_table hw' hw hlong hok'
  exact ⟨_, whole, .table hsame, hwhole, hle⟩

variable (printer) in
/-- **What stands under a credential's key inside a value shows**: some other value makes the text
as long as one likes. -/
theorem SecretBelow.leaks {v : Value} (h : SecretBelow v) (hok : ¬HoldsOversized v) (n : Nat) :
    ∃ w text, SameButSecrets v w ∧ printer.repr w = .ok text ∧ n ≤ text.length := by
  induction h with
  | here hm hkey =>
    obtain ⟨text, htext, hlong⟩ := repr_lengthy printer n
    exact longer_item hok hm (.inl hkey) htext hlong
  | table hm _ ih =>
    obtain ⟨w, text, hvw, htext, hlong⟩ := ih fun hv => hok (.table hm hv)
    exact longer_item hok hm (.inr hvw) htext hlong
  | @array vs v hm _ ih =>
    obtain ⟨w, text, hvw, htext, hlong⟩ := ih fun hv => hok (.array hm hv)
    obtain ⟨vs', hsame, hw, hrest⟩ := sameElements_replace hvw hm
    have hok' : ∀ x ∈ vs', ¬HoldsOversized x := fun x hm => by
      rcases hrest x hm with hm | rfl
      · exact fun hv => hok (.array hm hv)
      · exact repr_ok_iff.1 ⟨text, htext⟩
    obtain ⟨whole, hwhole, hle⟩ := length_repr_array hw htext hlong hok'
    exact ⟨_, whole, .array hsame, hwhole, hle⟩

end Leaks

/-! ## The listing -/

/-- The constructor argument is shown, and `str` does not write it. -/
def UnwritableItem (item : String × Value) : Prop :=
  ¬looksLikeSecret item.1 = true ∧ HoldsOversized item.2

/-- An integer that is shown has more digits than `str` writes. -/
def SporkConfig.Unwritable (config : SporkConfig) : Prop :=
  (∃ name spec, (name, spec) ∈ config.backends ∧ ∃ item ∈ spec.kwargs, UnwritableItem item) ∨
    Oversized config.tiering.dailyCallBudget ∨ Oversized config.tiering.maxBodyChars

section Listing

variable {printer : Printer} {name key : String} {v : Value} {spec spec' : BackendSpec}
  {config config' : SporkConfig}

theorem str_ok_iff : (∃ text, printer.str v = .ok text) ↔ ¬HoldsOversized v := by
  cases v with
  | string s => exact iff_of_true ⟨s, rfl⟩ fun h => by cases h
  | datetime text => exact iff_of_true ⟨_, rfl⟩ fun h => by cases h
  | _ => exact repr_ok_iff

variable (printer) in
theorem kwargDisplay_ok_iff {item : String × Value} :
    (∃ display, kwargDisplay printer item = .ok display) ↔ ¬UnwritableItem item := by
  rw [kwargDisplay, UnwritableItem, not_and]
  split
  · next hkey => exact iff_of_true ⟨_, rfl⟩ fun h => absurd hkey h
  · next hkey => exact str_ok_iff.trans (imp_iff_right hkey).symm

theorem kwargsLines_ok_iff : ∀ {kwargs : Table},
    (∃ lines, kwargsLines printer name kwargs = .ok lines) ↔ ∀ item ∈ kwargs, ¬UnwritableItem item
  | [] => iff_of_true ⟨[], rfl⟩ fun _ hm => by cases hm
  | item :: kwargs => by
    rw [List.forall_mem_cons, ← kwargDisplay_ok_iff printer, ← kwargsLines_ok_iff]
    exact seq_ok_iff

/-- Every constructor argument has a line. -/
theorem mem_kwargsLines : ∀ {kwargs : Table} {lines : List (String × String)}, (key, v) ∈ kwargs →
    kwargsLines printer name kwargs = .ok lines →
      ∃ display, kwargDisplay printer (key, v) = .ok display ∧
        (name ++ ".kwargs." ++ key, display) ∈ lines
  | item :: kwargs, lines, hm, h => by
    obtain ⟨display, hdisplay, h⟩ := Toml.of_bind_ok h
    obtain ⟨rest, hrest, h⟩ := Toml.of_bind_ok h
    cases h
    rcases List.mem_cons.1 hm with rfl | hm
    · exact ⟨display, hdisplay, List.mem_cons_self⟩
    · obtain ⟨display', hdisplay', hm⟩ := mem_kwargsLines hm hrest
      exact ⟨display', hdisplay', List.mem_cons_of_mem _ hm⟩

variable (printer) in
/-- The listing of a configuration is that of its parts, or an error. -/
theorem shownValues_ok_iff :
    (∃ shown, shownValues printer config = .ok shown) ↔ ¬config.Unwritable := by
  have hbackend : ∀ name (spec : BackendSpec),
      (∃ lines, backendLines printer name spec = .ok lines) ↔
        ∀ item ∈ spec.kwargs, ¬UnwritableItem item :=
    fun name spec => map_ok_iff.trans kwargsLines_ok_iff
  have htiering : (∃ lines, tieringLines printer config.tiering = .ok lines) ↔
      ¬Oversized config.tiering.dailyCallBudget ∧ ¬Oversized config.tiering.maxBodyChars := by
    rw [← pyStrInt_ok_iff, ← pyStrInt_ok_iff]
    exact seq_ok_iff
  have hparts : (∃ shown, shownValues printer config = .ok shown) ↔
      (∃ lines, backendLines printer "provider" config.provider = .ok lines) ∧
        (∃ lines, backendLines printer "llm" config.llm = .ok lines) ∧
          (∃ lines, backendLines printer "alerts" config.alerts = .ok lines) ∧
            ∃ lines, tieringLines printer config.tiering = .ok lines :=
    bind_ok_iff fun _ => bind_ok_iff fun _ => bind_ok_iff fun _ => map_ok_iff
  rw [hparts, hbackend, hbackend, hbackend, htiering, SporkConfig.Unwritable, not_or, not_or,
    SporkConfig.backends]
  constructor
  · rintro ⟨hprovider, hllm, halerts, htiering⟩
    refine ⟨?_, htiering⟩
    rintro ⟨name, spec, hm, item, hitem, hun⟩
    simp only [List.mem_cons, List.not_mem_nil, or_false, Prod.mk.injEq] at hm
    rcases hm with ⟨-, rfl⟩ | ⟨-, rfl⟩ | ⟨-, rfl⟩
    · exact hprovider item hitem hun
    · exact hllm item hitem hun
    · exact halerts item hitem hun
  · rintro ⟨hkwargs, htiering⟩
    refine ⟨fun item hm hun => hkwargs ⟨"provider", _, ?_, item, hm, hun⟩,
      fun item hm hun => hkwargs ⟨"llm", _, ?_, item, hm, hun⟩,
      fun item hm hun => hkwargs ⟨"alerts", _, ?_, item, hm, hun⟩, htiering⟩
    · exact List.mem_cons_self
    · exact List.mem_cons_of_mem _ List.mem_cons_self
    · exact List.mem_cons_of_mem _ (List.mem_cons_of_mem _ List.mem_cons_self)

/-! ### Two configurations that differ in credentials -/

/-- The backends only differ in credentials among the constructor arguments. -/
structure BackendSpec.SameButSecrets (backend backend' : BackendSpec) : Prop where
  spec : backend'.spec = backend.spec
  kwargs : SameItems backend.kwargs backend'.kwargs
  secretKwargs : backend'.secretKwargs = backend.secretKwargs

/-- The configurations only differ in credentials among the constructor arguments. -/
structure SporkConfig.SameButSecrets (config config' : SporkConfig) : Prop where
  provider : config.provider.SameButSecrets config'.provider
  llm : config.llm.SameButSecrets config'.llm
  alerts : config.alerts.SameButSecrets config'.alerts
  rest : config' = { config with
    provider := config'.provider, llm := config'.llm, alerts := config'.alerts }

/-- Credentials only stand at the top of the constructor arguments, not inside of one that is
shown. -/
def SporkConfig.SecretsOnTop (config : SporkConfig) : Prop :=
  ∀ name spec, (name, spec) ∈ config.backends → ∀ key v, (key, v) ∈ spec.kwargs →
    looksLikeSecret key = true ∨ ¬SecretBelow v

theorem BackendSpec.SameButSecrets.refl (spec : BackendSpec) : spec.SameButSecrets spec :=
  ⟨rfl, sameItems_refl _, rfl⟩

theorem kwargsLines_same : ∀ {kwargs kwargs' : Table}, SameItems kwargs kwargs' →
    (∀ key v, (key, v) ∈ kwargs → looksLikeSecret key = true ∨ ¬SecretBelow v) →
      kwargsLines printer name kwargs' = kwargsLines printer name kwargs
  | _, _, .nil, _ => rfl
  | _, _, .secret hkey hs, h => by
    rw [kwargsLines, kwargsLines, kwargsLines_same hs fun k u hm =>
      h k u (List.mem_cons_of_mem _ hm), kwargDisplay, kwargDisplay, if_pos hkey, if_pos hkey]
  | _, _, @SameItems.cons key v w t t' hv hs, h => by
    rw [kwargsLines, kwargsLines, kwargsLines_same hs fun k u hm =>
      h k u (List.mem_cons_of_mem _ hm)]
    rcases h key v List.mem_cons_self with hkey | hnot
    · rw [kwargDisplay, kwargDisplay, if_pos hkey, if_pos hkey]
    · rw [hv.eq hnot]

theorem backendLines_same (h : spec.SameButSecrets spec')
    (htop : ∀ key v, (key, v) ∈ spec.kwargs → looksLikeSecret key = true ∨ ¬SecretBelow v) :
    backendLines printer name spec' = backendLines printer name spec := by
  rw [backendLines, backendLines, kwargsLines_same h.kwargs htop, h.spec, h.secretKwargs]

theorem shownValues_same (h : config.SameButSecrets config') (htop : config.SecretsOnTop) :
    shownValues printer config' = shownValues printer config := by
  rw [h.rest, shownValues, shownValues]
  dsimp only
  rw [backendLines_same h.provider (htop "provider" _ List.mem_cons_self),
    backendLines_same h.llm (htop "llm" _ (List.mem_cons_of_mem _ List.mem_cons_self)),
    backendLines_same h.alerts
      (htop "alerts" _ (List.mem_cons_of_mem _ (List.mem_cons_of_mem _ List.mem_cons_self)))]

/-- One backend with other credentials. -/
theorem exists_sameButSecrets (hm : (name, spec) ∈ config.backends)
    (h : spec.SameButSecrets spec') : ∃ config', config.SameButSecrets config' ∧
      (name, spec') ∈ config'.backends ∧ config'.tiering = config.tiering ∧
        ∀ backend ∈ config'.backends, backend ∈ config.backends ∨ backend = (name, spec') := by
  simp only [SporkConfig.backends, List.mem_cons, List.not_mem_nil, or_false,
    Prod.mk.injEq] at hm
  rcases hm with ⟨rfl, rfl⟩ | ⟨rfl, rfl⟩ | ⟨rfl, rfl⟩
  · refine ⟨{ config with provider := spec' },
      ⟨h, .refl _, .refl _, rfl⟩, List.mem_cons_self, rfl,
      fun backend hb => ?_⟩
    simp only [SporkConfig.backends, List.mem_cons, List.not_mem_nil, or_false] at hb ⊢
    tauto
  · refine ⟨{ config with llm := spec' },
      ⟨.refl _, h, .refl _, rfl⟩,
      List.mem_cons_of_mem _ List.mem_cons_self, rfl, fun backend hb => ?_⟩
    simp only [SporkConfig.backends, List.mem_cons, List.not_mem_nil, or_false] at hb ⊢
    tauto
  · refine ⟨{ config with alerts := spec' },
      ⟨.refl _, .refl _, h, rfl⟩,
      List.mem_cons_of_mem _ (List.mem_cons_of_mem _ List.mem_cons_self), rfl,
      fun backend hb => ?_⟩
    simp only [SporkConfig.backends, List.mem_cons, List.not_mem_nil, or_false] at hb ⊢
    tauto

/-- Every constructor argument of a backend has its line in the listing. -/
theorem mem_shownValues_kwargs {shown : List (String × String)}
    (h : shownValues printer config = .ok shown) (hm : (name, spec) ∈ config.backends)
    (hkey : (key, v) ∈ spec.kwargs) : ∃ display, kwargDisplay printer (key, v) = .ok display ∧
      (name ++ ".kwargs." ++ key, display) ∈ shown := by
  obtain ⟨provider, hprovider, h⟩ := Toml.of_bind_ok h
  obtain ⟨llm, hllm, h⟩ := Toml.of_bind_ok h
  obtain ⟨alerts, halerts, h⟩ := Toml.of_bind_ok h
  obtain ⟨tiering, -, h⟩ := Toml.of_bind_ok h
  cases h
  have hbackend : ∀ {lines}, backendLines printer name spec = .ok lines →
      ∃ display, kwargDisplay printer (key, v) = .ok display ∧
        (name ++ ".kwargs." ++ key, display) ∈ lines := by
    intro lines hlines
    obtain ⟨kwargs, hkwargs, hlines⟩ := Toml.of_bind_ok hlines
    cases hlines
    obtain ⟨display, hdisplay, hm⟩ := mem_kwargsLines hkey hkwargs
    exact ⟨display, hdisplay, List.mem_cons_of_mem _ (List.mem_append_left _ hm)⟩
  simp only [SporkConfig.backends, List.mem_cons, List.not_mem_nil, or_false,
    Prod.mk.injEq] at hm
  rcases hm with ⟨rfl, rfl⟩ | ⟨rfl, rfl⟩ | ⟨rfl, rfl⟩
  · obtain ⟨display, hdisplay, hm⟩ := hbackend hprovider
    exact ⟨display, hdisplay, List.mem_append_right _ (List.mem_append_left _ hm)⟩
  · obtain ⟨display, hdisplay, hm⟩ := hbackend hllm
    exact ⟨display, hdisplay,
      List.mem_append_right _ (List.mem_append_right _ (List.mem_append_left _ hm))⟩
  · obtain ⟨display, hdisplay, hm⟩ := hbackend halerts
    exact ⟨display, hdisplay, List.mem_append_right _ (List.mem_append_right _
      (List.mem_append_right _ (List.mem_append_left _ hm)))⟩

/-- A credential further down makes a line as long as one likes. -/
theorem SporkConfig.leaks (printer : Printer) (hwritable : ¬config.Unwritable)
    (h : ¬config.SecretsOnTop) (n : Nat) : ∃ config' shown path display,
      config.SameButSecrets config' ∧ shownValues printer config' = .ok shown ∧
        (path, display) ∈ shown ∧ n ≤ display.length := by
  simp only [SecretsOnTop, not_forall, not_or, not_not] at h
  obtain ⟨name, spec, hspec, key, v, hkey, htop, hbelow⟩ := h
  have hwritten : ¬HoldsOversized v := fun hv =>
    hwritable (.inl ⟨name, spec, hspec, (key, v), hkey, htop, hv⟩)
  obtain ⟨w, text, hvw, htext, hlong⟩ := hbelow.leaks printer hwritten n
  obtain ⟨kwargs, hkwargs, hw, hrest⟩ := sameItems_replace (.inr hvw) hkey
  -- the keys are those of `spec`, so the constructor arguments are as valid as they were
  have hdisjoint : ∀ item ∈ kwargs, item.1 ∉ spec.secretKwargs.map Prod.fst := by
    intro item hm
    rcases hrest item hm with hm | rfl
    · exact spec.disjoint item hm
    · exact spec.disjoint (key, v) hkey
  have hspec' : spec.SameButSecrets ⟨spec.spec, kwargs, spec.secretKwargs, hdisjoint⟩ :=
    ⟨rfl, hkwargs, rfl⟩
  obtain ⟨config', hsame, hspec', htiering, hbackends⟩ := exists_sameButSecrets hspec hspec'
  have hwritable' : ¬config'.Unwritable := by
    rintro (⟨name', spec'', hm, item, hitem, hun⟩ | hun)
    · rcases hbackends _ hm with hm | he
      · exact hwritable (.inl ⟨name', spec'', hm, item, hitem, hun⟩)
      · cases he
        rcases hrest item hitem with hitem | rfl
        · exact hwritable (.inl ⟨name, spec, hspec, item, hitem, hun⟩)
        · exact repr_ok_iff.1 ⟨text, htext⟩ hun.2
    · exact hwritable (.inr (htiering ▸ hun))
  obtain ⟨shown, hshown⟩ := (shownValues_ok_iff printer).2 hwritable'
  obtain ⟨display, hdisplay, hm⟩ := mem_shownValues_kwargs hshown hspec' hw
  rw [kwargDisplay, if_neg htop] at hdisplay
  have hrepr : printer.str w = printer.repr w := by
    cases hvw with
    | same => cases hbelow <;> rfl
    | array _ => rfl
    | table _ => rfl
  rw [hrepr, htext] at hdisplay
  cases hdisplay
  exact ⟨config', shown, _, text, hsame, hshown, hm, hlong⟩

end Listing

theorem formatShowLines_eq (printer : Printer) (config : SporkConfig)
    (enforcedPaths : List String) : formatShowLines printer config enforcedPaths
      = (shownValues printer config).map fun shown =>
          shown.map fun value => (addLine enforcedPaths value).text := by
  rw [formatShowLines, showLines]
  cases shownValues printer config with
  | error e => rfl
  | ok shown => exact congrArg Except.ok (List.map_map)

/-- A line is at least as long as what it shows. -/
theorem length_le_text (enforcedPaths : List String) (path display : String) :
    display.length ≤ (addLine enforcedPaths (path, display)).text.length := by
  rw [ShowLine.text, addLine]
  simp only [String.length_append]
  omega

/-- **The listing keeps credentials to itself exactly if they stand at the top**: any configuration
that only differs in credentials has the same lines, if and only if no argument that is shown has a
credential inside of it.  A configuration with an integer that `str` does not write has no
lines. -/
theorem formatShowLines_redacts_iff (printer : Printer) (config : SporkConfig)
    (enforcedPaths : List String) :
    (∀ config' lines, config.SameButSecrets config' →
      formatShowLines printer config enforcedPaths = .ok lines →
        formatShowLines printer config' enforcedPaths = .ok lines) ↔
      config.Unwritable ∨ config.SecretsOnTop := by
  constructor
  · intro h
    by_contra hnot
    obtain ⟨hwritable, htop⟩ := not_or.1 hnot
    obtain ⟨shown, hshown⟩ := (shownValues_ok_iff printer).2 hwritable
    have hlines : formatShowLines printer config enforcedPaths
        = .ok (shown.map fun value => (addLine enforcedPaths value).text) := by
      rw [formatShowLines_eq, hshown]
      rfl
    -- a line that is longer than all the lines there are
    obtain ⟨config', shown', path, display, hsame, hshown', hm, hlong⟩ := config.leaks printer
      hwritable htop (((shown.map fun value =>
        (addLine enforcedPaths value).text).map String.length).sum + 1)
    have hlines' := h config' _ hsame hlines
    rw [formatShowLines_eq, hshown'] at hlines'
    have hsame' : shown'.map (fun value => (addLine enforcedPaths value).text)
        = shown.map fun value => (addLine enforcedPaths value).text := Except.ok.inj hlines'
    have hmem := List.mem_map_of_mem (f := fun value => (addLine enforcedPaths value).text) hm
    rw [hsame'] at hmem
    have hle := List.le_sum_of_mem (List.mem_map_of_mem (f := String.length) hmem)
    have htext := length_le_text enforcedPaths path display
    omega
  · rintro (hun | htop) config' lines hsame hlines
    · have hnone := mt (shownValues_ok_iff printer).1 (not_not.2 hun)
      rw [formatShowLines_eq] at hlines
      cases hshown : shownValues printer config with
      | ok shown => exact absurd ⟨shown, hshown⟩ hnone
      | error e =>
        rw [hshown] at hlines
        cases hlines
    · rw [formatShowLines_eq] at hlines ⊢
      rw [shownValues_same hsame htop, hlines]

/-- A configuration with a password inside of an argument. -/
def nestedPassword (password : String) : SporkConfig where
  provider :=
    { spec := "pkg:Provider"
      kwargs := [("auth", .table [("password", .string password)])]
      disjoint := fun _ _ h => by cases h }
  llm := { spec := "pkg:Client", disjoint := fun _ _ h => by cases h }
  alerts := { spec := "pkg:Alerter", disjoint := fun _ _ h => by cases h }
  rulesPath := .parse "/etc/spork/rules.toml"
  dbPath := .parse "/var/lib/spork/state.sqlite3"

/-- Numbers and dates as they are spelled in the file, and the thresholds that are defaults. -/
def asSpelled : Printer where
  float := id
  datetimeStr := id
  datetimeRepr := id
  number x := if x = .fin (55 / 100) then "0.55" else "0.85"

/-- The listing shows that password. -/
theorem nested_password_shown :
    (nestedPassword "hunter2").SameButSecrets (nestedPassword "swordfish") ∧ ∃ lines,
      formatShowLines asSpelled (nestedPassword "hunter2") [] = .ok lines ∧
      "provider.kwargs.auth = \x7b'password': 'hunter2'\x7d" ∈ lines ∧
      formatShowLines asSpelled (nestedPassword "swordfish") [] ≠ .ok lines := by
  refine ⟨⟨⟨rfl, .cons (.table (.secret (by decide) .nil)) .nil, rfl⟩, .refl _, .refl _, rfl⟩,
    (formatShowLines asSpelled (nestedPassword "hunter2") []).toOption.getD [], ?_, ?_, ?_⟩
  · decide +kernel
  · decide +kernel
  · decide +kernel

end Spork
