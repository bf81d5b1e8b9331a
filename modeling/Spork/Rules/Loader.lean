import Spork.JsonFile
import Spork.Rules.Schema

/-!
# Loading `rules.toml`

`core/rules/loader.py`: the file is read as text, parsed as TOML, and its `rule` entries are
validated one after the other.
-/

set_option autoImplicit false

namespace Spork

open Toml (Value Table)

/-- How `load_rules` fails.  All but the last three are a `RulesLoadError`. -/
inductive RulesLoadFailure where
  | notFound
  | invalidToml (e : Toml.Error)
  | invalidRule (index : Nat)
  | duplicateId (id : String)
  /-- The `ValueError` of an integer with too many digits. -/
  | valueError
  /-- The `TypeError` of a `rule` that cannot be iterated over. -/
  | typeError
  | recursionError
  deriving DecidableEq, Repr

/-- What `raw.get("rule", [])` is iterated over as: the items of a list, the keys of a table, the
characters of a text. -/
def ruleEntries (raw : Table) : Option (List Value) :=
  match raw.lookup "rule" with
  | none => some []
  | some (.array vs) => some vs
  | some (.table t) => some (t.map fun p => .string p.1)
  | some (.string s) => some (s.toList.map fun c => .string (String.ofList [c]))
  | some _ => none

/-- The loop of `load_rules`. -/
def loadEntries : Nat → List String → List Value → Except RulesLoadFailure (List Rule)
  | _, _, [] => .ok []
  | index, seenIds, entry :: entries =>
    match Rule.validate entry with
    | none => .error (.invalidRule index)
    | some rule =>
      if rule.id ∈ seenIds then .error (.duplicateId rule.id)
      else do
        let rules ← loadEntries (index + 1) (rule.id :: seenIds) entries
        .ok (rule :: rules)

/-- `load_rules`: every rule of the file, in file order. -/
def loadRulesWithin (room : Toml.Room) (file : Option String) :
    Except RulesLoadFailure (List Rule) :=
  match file with
  | none => .error .notFound
  | some content =>
    match Toml.read room (readText content) with
    | .error .tooManyDigits => .error .valueError
    | .error .recursion => .error .recursionError
    | .error e => .error (.invalidToml e)
    | .ok raw =>
      match ruleEntries raw with
      | none => .error .typeError
      | some entries => loadEntries 0 [] entries

/-- The same on a stack with room enough. -/
def loadRules (file : Option String) : Except RulesLoadFailure (List Rule) :=
  loadRulesWithin .enough file

theorem loadEntries_ids : ∀ (entries : List Value) (index : Nat) (seenIds : List String)
    {rules : List Rule}, loadEntries index seenIds entries = .ok rules →
    (rules.map Rule.id).Nodup ∧ ∀ rule ∈ rules, rule.id ∉ seenIds
  | [], _, _, rules, h => by
    cases h
    exact ⟨List.nodup_nil, fun _ hr => by cases hr⟩
  | entry :: entries, index, seenIds, rules, h => by
    rw [loadEntries] at h
    cases hv : Rule.validate entry with
    | none => rw [hv] at h; cases h
    | some rule =>
      rw [hv] at h
      by_cases hs : rule.id ∈ seenIds
      · simp only [hs, if_true] at h
        cases h
      · simp only [hs, if_false] at h
        cases hl : loadEntries (index + 1) (rule.id :: seenIds) entries with
        | error e => rw [hl] at h; cases h
        | ok rules' =>
          rw [hl] at h
          cases h
          obtain ⟨hd, hn⟩ := loadEntries_ids entries (index + 1) (rule.id :: seenIds) hl
          refine ⟨List.nodup_cons.2 ⟨fun hm => ?_, hd⟩, fun r hr => ?_⟩
          · obtain ⟨r, hr, he⟩ := List.mem_map.1 hm
            exact hn r hr (he ▸ List.mem_cons_self)
          · rcases List.mem_cons.1 hr with rfl | hr
            · exact hs
            · exact fun hm => hn r hr (List.mem_cons_of_mem _ hm)

/-- **No two loaded rules have the same id.** -/
theorem loadRules_nodup {file : Option String} {rules : List Rule}
    (h : loadRules file = .ok rules) :
    (rules.map Rule.id).Nodup := by
  cases file with
  | none => cases h
  | some content =>
    rw [loadRules, loadRulesWithin] at h
    split at h
    · cases h
    · cases h
    · cases h
    · split at h
      · cases h
      · exact (loadEntries_ids _ 0 [] h).1

/-- Entries that validate to rules with different ids are loaded as these rules. -/
theorem loadEntries_of_validate {α : Type} (entry : α → Value) (rule : α → Rule)
    (hv : ∀ a, Rule.validate (entry a) = some (rule a)) : ∀ (as : List α) (index : Nat)
    (seenIds : List String), (as.map fun a => (rule a).id).Nodup →
    (∀ a ∈ as, (rule a).id ∉ seenIds) →
    loadEntries index seenIds (as.map entry) = .ok (as.map rule)
  | [], _, _, _, _ => rfl
  | a :: as, index, seenIds, hd, hs => by
    obtain ⟨hn, hd⟩ := List.nodup_cons.1 hd
    have ih := loadEntries_of_validate entry rule hv as (index + 1) ((rule a).id :: seenIds) hd
      (fun b hb hm => by
        rcases List.mem_cons.1 hm with he | hm
        · exact hn (List.mem_map.2 ⟨b, hb, he⟩)
        · exact hs b (List.mem_cons_of_mem a hb) hm)
    rw [List.map_cons, loadEntries, hv]
    simp only [hs a List.mem_cons_self, if_false, ih]
    rfl

end Spork
