import Spork.Config.Loader

/-!
# The enforced tier

What the merge of the three tiers leaves at every path, and what `_flatten_keys` says about it.

A path is followed by `Value.at`; a *leaf* is a path to a value that is no table.  At one key, a
merge is `lookup_deepMerge`, and everything about paths is read off it:

* `isLeaf_merge_right`: a leaf of the tier that is merged last is a leaf of the result.
* `isLeaf_merge_left`: a leaf of the lower tiers survives where the last one has nothing to say.

The names of the leaves are a different recursion, over prefixes.  A prefix that is the empty string
counts as none at all, so `mem_flattenKeys` finds the names of the leaves without their leading
empty keys.
-/

set_option autoImplicit false

namespace Spork

open Toml (Value Table)

/-! ## Tables without repeated keys -/

/-- No key is there twice, in the table or in a table below it. -/
inductive Distinct : Table → Prop where
  | mk {t : Table} (keys : (t.map Prod.fst).Nodup)
      (below : ∀ key sub, (key, Value.table sub) ∈ t → Distinct sub) : Distinct t

/-- A table as `tomllib` reads it: nested `dict`s. -/
structure RawConfig where
  table : Table
  distinct : Distinct table

theorem Distinct.keys {t : Table} (h : Distinct t) : (t.map Prod.fst).Nodup := by
  cases h with
  | mk keys _ => exact keys

theorem Distinct.nested {t sub : Table} {key : String} (h : Distinct t)
    (hs : (key, Value.table sub) ∈ t) : Distinct sub := by
  cases h with
  | mk _ below => exact below key sub hs

theorem mem_of_lookup {key : String} {v : Value} :
    ∀ {t : Table}, t.lookup key = some v → (key, v) ∈ t
  | (k, w) :: t, h => by
    rw [List.lookup_cons] at h
    split at h
    · rename_i he
      cases h
      rw [beq_iff_eq.1 he]
      exact List.mem_cons_self
    · exact List.mem_cons_of_mem _ (mem_of_lookup h)

theorem lookup_of_mem {key : String} {v : Value} : ∀ {t : Table}, (t.map Prod.fst).Nodup →
    (key, v) ∈ t → t.lookup key = some v
  | (k, w) :: t, hd, hm => by
    obtain ⟨hn, hd⟩ := List.nodup_cons.1 hd
    rw [List.lookup_cons]
    rcases List.mem_cons.1 hm with he | hm
    · cases he
      simp
    · have hk : (key == k) = false := by
        refine beq_eq_false_iff_ne.2 fun he => hn ?_
        exact List.mem_map.2 ⟨(key, v), hm, he⟩
      rw [hk]
      exact lookup_of_mem hd hm

/-! ## Merging at one key -/

theorem lookup_setKey (key : String) (v : Value) (t : Table) (k : String) :
    (Toml.setKey key v t).lookup k =
      if k = key then (t.lookup k).map fun _ => v else t.lookup k := by
  rw [Toml.setKey]
  induction t with
  | nil => simp
  | cons p t ih =>
    obtain ⟨k', w⟩ := p
    rw [List.map_cons]
    by_cases hp : k' = key
    · subst hp
      rw [if_pos rfl, List.lookup_cons, List.lookup_cons]
      by_cases hk : k = k'
      · subst hk
        simp
      · have hb : (k == k') = false := beq_eq_false_iff_ne.2 hk
        rw [hb]
        simpa [hk] using ih
    · rw [if_neg hp, List.lookup_cons, List.lookup_cons]
      by_cases hk : k = k'
      · subst hk
        simp [hp]
      · have hb : (k == k') = false := beq_eq_false_iff_ne.2 hk
        rw [hb]
        exact ih

theorem lookup_setItem (key : String) (v : Value) (t : Table) (k : String) :
    (setItem key v t).lookup k = if k = key then some v else t.lookup k := by
  rw [setItem]
  split
  · rename_i hs
    rw [lookup_setKey]
    by_cases hk : k = key
    · subst hk
      obtain ⟨w, hw⟩ := Option.isSome_iff_exists.1 hs
      simp [hw]
    · simp [hk]
  · rename_i hs
    rw [List.lookup_append]
    by_cases hk : k = key
    · subst hk
      rw [Option.not_isSome_iff_eq_none.1 hs]
      simp
    · have hb : (k == key) = false := beq_eq_false_iff_ne.2 hk
      simp [List.lookup_cons, hb, hk]

/-- **What a merge leaves at one key.** -/
theorem lookup_deepMerge : ∀ (override base : Table), (override.map Prod.fst).Nodup → ∀ k : String,
    (deepMerge base override).lookup k =
      match override.lookup k with
      | none => base.lookup k
      | some v => some (mergeValue (base.lookup k) v)
  | [], base, _, k => by rw [deepMerge]; rfl
  | (key, value) :: override, base, hd, k => by
    obtain ⟨hn, hd⟩ := List.nodup_cons.1 hd
    rw [deepMerge, lookup_deepMerge override _ hd k, List.lookup_cons, lookup_setItem]
    by_cases hk : k = key
    · subst hk
      have hnone : override.lookup k = none := by
        cases hl : override.lookup k with
        | none => rfl
        | some w => exact absurd (List.mem_map_of_mem (f := Prod.fst) (mem_of_lookup hl)) hn
      simp [hnone, mergeItem]
    · have hb : (k == key) = false := beq_eq_false_iff_ne.2 hk
      simp only [hb, if_neg hk]

/-! ## Paths -/

/-- The path leads through tables to a value that is no table. -/
def IsLeaf (t : Table) (path : List String) (v : Value) : Prop :=
  (Value.table t).at path = some v ∧ v.isTable = false

theorem at_cons {t : Table} {key : String} {keys : List String} {v : Value}
    (h : (Value.table t).at (key :: keys) = some v) :
    ∃ w, t.lookup key = some w ∧ w.at keys = some v := Option.bind_eq_some_iff.1 h

theorem at_of_lookup {t : Table} {key : String} {w : Value} (h : t.lookup key = some w)
    (keys : List String) : (Value.table t).at (key :: keys) = w.at keys := by
  rw [Value.at]
  simp only [h, Option.bind_some]

/-- Below a value that is no table there is nothing. -/
theorem at_of_not_isTable {w v : Value} (hw : w.isTable = false) {keys : List String}
    (h : w.at keys = some v) : keys = [] := by
  cases keys with
  | nil => rfl
  | cons key keys => cases w <;> cases hw <;> cases h

theorem mergeValue_of_not_isTable {v : Value} (hv : v.isTable = false) (old : Option Value) :
    mergeValue old v = v := by
  cases v <;> first | rfl | cases hv

/-- **A leaf of the tier that is merged last is a leaf of the result.** -/
theorem isLeaf_merge_right : ∀ {path : List String} {base override : Table} {v : Value},
    Distinct override → IsLeaf override path v → IsLeaf (deepMerge base override) path v
  | [], _, override, v, _, h => by
    obtain ⟨he, hv⟩ := h
    cases he
    cases hv
  | key :: keys, base, override, v, hd, h => by
    obtain ⟨w, hw, hat⟩ := at_cons h.1
    have hl : (deepMerge base override).lookup key = some (mergeValue (base.lookup key) w) := by
      rw [lookup_deepMerge override base hd.keys, hw]
    refine ⟨?_, h.2⟩
    rw [at_of_lookup hl]
    cases hwt : w.isTable with
    | false => rw [mergeValue_of_not_isTable hwt, hat]
    | true =>
      cases w with
      | table sub =>
        cases base.lookup key with
        | none => exact hat
        | some b =>
          cases b with
          | table base' => exact (isLeaf_merge_right (hd.nested (mem_of_lookup hw)) ⟨hat, h.2⟩).1
          | _ => exact hat
      | _ => cases hwt

/-- **A leaf of the lower tiers survives where the last one has nothing to say**: neither a value at
its path, nor one that is no table on the way. -/
theorem isLeaf_merge_left : ∀ {path : List String} {base override : Table} {v : Value},
    Distinct override → IsLeaf base path v → (Value.table override).at path = none →
    (∀ q, q <+: path → ∀ w, (Value.table override).at q = some w → w.isTable = true) →
    IsLeaf (deepMerge base override) path v
  | [], _, _, v, _, h, _, _ => by
    obtain ⟨he, hv⟩ := h
    cases he
    cases hv
  | key :: keys, base, override, v, hd, h, hnone, hway => by
    obtain ⟨w, hw, hat⟩ := at_cons h.1
    refine ⟨?_, h.2⟩
    cases ho : override.lookup key with
    | none =>
      have hl : (deepMerge base override).lookup key = some w := by
        rw [lookup_deepMerge override base hd.keys, ho]
        exact hw
      rw [at_of_lookup hl, hat]
    | some x =>
      have hl : (deepMerge base override).lookup key = some (mergeValue (some w) x) := by
        rw [lookup_deepMerge override base hd.keys, ho, hw]
      have hx : x.isTable = true :=
        hway [key] ⟨keys, rfl⟩ x (by rw [at_of_lookup ho]; rfl)
      rw [at_of_lookup ho] at hnone
      rw [at_of_lookup hl]
      cases x with
      | table sub =>
        cases w with
        | table base' =>
          refine (isLeaf_merge_left (hd.nested (mem_of_lookup ho)) ⟨hat, h.2⟩ hnone ?_).1
          intro q hq u hu
          exact hway (key :: q) (List.cons_prefix_cons.2 ⟨rfl, hq⟩) u
            (by rw [at_of_lookup ho]; exact hu)
        | _ =>
          -- the path ends at `key`, where the last tier has a table
          cases at_of_not_isTable rfl hat
          cases hnone
      | _ => cases hx

/-! ## Merging keeps tables distinct -/

theorem keys_setItem (key : String) (v : Value) (t : Table) :
    (setItem key v t).map Prod.fst =
      if key ∈ t.map Prod.fst then t.map Prod.fst else t.map Prod.fst ++ [key] := by
  have hmap : ∀ t : Table, (Toml.setKey key v t).map Prod.fst = t.map Prod.fst := by
    intro t
    rw [Toml.setKey, List.map_map]
    refine List.map_congr_left fun p _ => ?_
    by_cases hp : p.1 = key
    · simp [hp]
    · simp [hp]
  have hiff : (t.lookup key).isSome = true ↔ key ∈ t.map Prod.fst := by
    constructor
    · intro h
      obtain ⟨w, hw⟩ := Option.isSome_iff_exists.1 h
      exact List.mem_map_of_mem (f := Prod.fst) (mem_of_lookup hw)
    · intro h
      by_contra hn
      rw [Option.not_isSome_iff_eq_none, List.lookup_eq_none_iff] at hn
      obtain ⟨p, hp, rfl⟩ := List.mem_map.1 h
      simpa using hn p hp
  rw [setItem]
  by_cases hk : key ∈ t.map Prod.fst
  · rw [if_pos (hiff.2 hk), if_pos hk, hmap]
  · rw [if_neg fun h => hk (hiff.1 h), if_neg hk, List.map_append]
    rfl

/-- A table that is put under a key of a distinct table has to be distinct itself. -/
theorem Distinct.setItem {t : Table} (h : Distinct t) (key : String) {v : Value}
    (hv : ∀ sub, v = .table sub → Distinct sub) : Distinct (setItem key v t) := by
  have hkeys : ((Spork.setItem key v t).map Prod.fst).Nodup := by
    rw [keys_setItem]
    split
    · exact h.keys
    · rename_i hk
      exact List.nodup_append.2 ⟨h.keys, by simp, fun a ha b hb he =>
        hk (List.mem_singleton.1 hb ▸ he ▸ ha)⟩
  refine .mk hkeys fun k sub hs => ?_
  have hl := lookup_of_mem hkeys hs
  rw [lookup_setItem] at hl
  split at hl
  · exact hv sub (Option.some.inj hl)
  · exact h.nested (mem_of_lookup hl)

mutual

theorem Distinct.merge : ∀ {override base : Table}, Distinct base → Distinct override →
    Distinct (deepMerge base override)
  | [], _, hb, _ => hb
  | item :: override, base, hb, ho => by
    have hrest : Distinct override := by
      refine .mk (List.nodup_cons.1 ho.keys).2 fun key sub hs =>
        ho.nested (List.mem_cons_of_mem _ hs)
    rw [deepMerge]
    refine Distinct.merge (hb.setItem item.1 ?_) hrest
    exact distinct_mergeItem (fun sub hs => hb.nested (mem_of_lookup hs))
      fun sub hs =>
        ho.nested (show (item.1, .table sub) ∈ item :: override from hs ▸ List.mem_cons_self)

theorem distinct_mergeItem : ∀ {item : String × Value} {old : Option Value},
    (∀ sub, old = some (.table sub) → Distinct sub) → (∀ sub, item.2 = .table sub → Distinct sub) →
    ∀ sub, mergeItem old item = .table sub → Distinct sub
  | (_, _), _, hold, hitem => distinct_mergeValue hold hitem

theorem distinct_mergeValue : ∀ {v : Value} {old : Option Value},
    (∀ sub, old = some (.table sub) → Distinct sub) → (∀ sub, v = .table sub → Distinct sub) →
    ∀ sub, mergeValue old v = .table sub → Distinct sub
  | .table override, old, hold, hv, sub, h => by
    cases old with
    | none => exact hv sub h
    | some b =>
      cases b with
      | table base =>
        cases h
        exact Distinct.merge (hold base rfl) (hv override rfl)
      | _ => exact hv sub h

end

/-- The merge of two tables. -/
def RawConfig.merge (base override : RawConfig) : RawConfig where
  table := deepMerge base.table override.table
  distinct := base.distinct.merge override.distinct

/-! ## The names of the leaves -/

/-- The dotted name of a path. -/
def dotted (path : List String) : String := String.intercalate "." path

/-- A path without its leading empty keys, as long as another key follows. -/
def dropEmptyKeys : List String → List String
  | "" :: key :: keys => dropEmptyKeys (key :: keys)
  | path => path

/-- What a prefix becomes on the way down a path. -/
def extendPath (pre : String) (path : List String) : String :=
  path.foldl (fun pre key => if pre = "" then key else pre ++ "." ++ key) pre

theorem dotted_cons_cons (a b : String) (path : List String) :
    dotted ((a ++ "." ++ b) :: path) = dotted (a :: b :: path) := by
  cases path with
  | nil => rw [dotted, dotted, String.intercalate_cons_cons]; simp
  | cons c path =>
    rw [dotted, dotted, String.intercalate_cons_cons, String.intercalate_cons_cons,
      String.intercalate_cons_cons]
    simp only [String.append_assoc]

theorem extendPath_of_ne {pre : String} (hpre : pre ≠ "") (path : List String) :
    extendPath pre path = dotted (pre :: path) := by
  induction path generalizing pre with
  | nil => simp [extendPath, dotted]
  | cons key path ih =>
    have hne : pre ++ "." ++ key ≠ "" := by
      intro h
      have := congrArg String.toList h
      simp at this
    rw [← dotted_cons_cons, ← ih hne, extendPath, List.foldl_cons, if_neg hpre]
    rfl

/-- From the root, leading empty keys leave no trace. -/
theorem extendPath_empty : ∀ {path : List String}, path ≠ [] →
    extendPath "" path = dotted (dropEmptyKeys path)
  | [key], _ => by
    have hd : dropEmptyKeys [key] = [key] := by rw [dropEmptyKeys]; intro _ _ h; cases h
    rw [hd]
    simp [extendPath, dotted]
  | key :: key' :: keys, _ => by
    by_cases hk : key = ""
    · subst hk
      rw [dropEmptyKeys, ← extendPath_empty (List.cons_ne_nil key' keys)]
      rfl
    · have hd : dropEmptyKeys (key :: key' :: keys) = key :: key' :: keys := by
        rw [dropEmptyKeys]
        intro _ _ h
        exact hk (List.cons.inj h).1
      rw [hd, ← extendPath_of_ne hk]
      rfl

/-- A leaf, found item by item. -/
inductive LeafIn : Table → List String → Value → Prop where
  | here {t : Table} {key : String} {v : Value} (h : (key, v) ∈ t) (hv : v.isTable = false) :
      LeafIn t [key] v
  | inside {t sub : Table} {key : String} {path : List String} {v : Value}
      (h : (key, Value.table sub) ∈ t) (hl : LeafIn sub path v) : LeafIn t (key :: path) v

theorem LeafIn.mono {t t' : Table} {path : List String} {v : Value} (h : LeafIn t path v)
    (ht : ∀ item ∈ t, item ∈ t') : LeafIn t' path v := by
  cases h with
  | here h hv => exact .here (ht _ h) hv
  | inside h hl => exact .inside (ht _ h) hl

theorem LeafIn.ne_nil {t : Table} {path : List String} {v : Value} (h : LeafIn t path v) :
    path ≠ [] := by
  cases h <;> exact List.cons_ne_nil _ _

theorem LeafIn.isLeaf {t : Table} {path : List String} {v : Value} (h : LeafIn t path v) :
    Distinct t → IsLeaf t path v := by
  induction h with
  | here h hv => exact fun hd => ⟨at_of_lookup (lookup_of_mem hd.keys h) [], hv⟩
  | inside h _ ih =>
    intro hd
    obtain ⟨hat, hv⟩ := ih (hd.nested h)
    exact ⟨(at_of_lookup (lookup_of_mem hd.keys h) _).trans hat, hv⟩

theorem IsLeaf.leafIn : ∀ {path : List String} {t : Table} {v : Value}, IsLeaf t path v →
    LeafIn t path v
  | [], _, v, h => by
    obtain ⟨he, hv⟩ := h
    cases he
    cases hv
  | key :: keys, t, v, h => by
    obtain ⟨w, hw, hat⟩ := at_cons h.1
    cases hwt : w.isTable with
    | false =>
      cases at_of_not_isTable hwt hat
      cases hat
      exact .here (mem_of_lookup hw) hwt
    | true =>
      cases w with
      | table sub => exact .inside (mem_of_lookup hw) (IsLeaf.leafIn ⟨hat, h.2⟩)
      | _ => cases hwt

mutual

theorem exists_leaf_of_mem_flattenKeys {name : String} : ∀ {t : Table} {pre : String},
    name ∈ flattenKeys pre t → ∃ path v, LeafIn t path v ∧ name = extendPath pre path
  | item :: t, pre, h => by
    rw [flattenKeys] at h
    rcases List.mem_append.1 h with h | h
    · obtain ⟨path, v, hl, he⟩ := exists_leaf_of_mem_flattenItem h
      rcases hl with ⟨rfl, hv⟩ | ⟨sub, hs, hl⟩
      · exact ⟨[item.1], item.2, .here List.mem_cons_self hv, he⟩
      · exact ⟨item.1 :: path, v, .inside (hs ▸ List.mem_cons_self) hl, he⟩
    · obtain ⟨path, v, hl, he⟩ := exists_leaf_of_mem_flattenKeys h
      exact ⟨path, v, hl.mono fun _ => List.mem_cons_of_mem item, he⟩

theorem exists_leaf_of_mem_flattenItem {name : String} : ∀ {item : String × Value} {path : String},
    name ∈ flattenItem path item →
    ∃ keys v, (keys = [] ∧ item.2.isTable = false ∨
        ∃ sub, item.2 = .table sub ∧ LeafIn sub keys v) ∧
      name = extendPath path keys
  | (_, _), _, h => exists_leaf_of_mem_flattenValue h

theorem exists_leaf_of_mem_flattenValue {name : String} : ∀ {value : Value} {path : String},
    name ∈ flattenValue path value →
    ∃ keys v, (keys = [] ∧ value.isTable = false ∨ ∃ sub, value = .table sub ∧ LeafIn sub keys v) ∧
      name = extendPath path keys
  | .table sub, path, h => by
    obtain ⟨keys, v, hl, he⟩ := exists_leaf_of_mem_flattenKeys h
    exact ⟨keys, v, .inr ⟨sub, rfl, hl⟩, he⟩
  | .string s, path, h => ⟨[], .string s, .inl ⟨rfl, rfl⟩, List.mem_singleton.1 h⟩
  | .boolean b, path, h => ⟨[], .boolean b, .inl ⟨rfl, rfl⟩, List.mem_singleton.1 h⟩
  | .integer n, path, h => ⟨[], .integer n, .inl ⟨rfl, rfl⟩, List.mem_singleton.1 h⟩
  | .float t, path, h => ⟨[], .float t, .inl ⟨rfl, rfl⟩, List.mem_singleton.1 h⟩
  | .datetime t, path, h => ⟨[], .datetime t, .inl ⟨rfl, rfl⟩, List.mem_singleton.1 h⟩
  | .array vs, path, h => ⟨[], .array vs, .inl ⟨rfl, rfl⟩, List.mem_singleton.1 h⟩

end

theorem mem_flattenKeys_of_mem {item : String × Value} {name : String} :
    ∀ {t : Table} {pre : String}, item ∈ t →
      name ∈ flattenItem (if pre = "" then item.1 else pre ++ "." ++ item.1) item →
      name ∈ flattenKeys pre t
  | item' :: t, pre, hm, hn => by
    rw [flattenKeys]
    rcases List.mem_cons.1 hm with rfl | hm
    · exact List.mem_append_left _ hn
    · exact List.mem_append_right _ (mem_flattenKeys_of_mem hm hn)

theorem LeafIn.mem_flattenKeys {t : Table} {path : List String} {v : Value} (h : LeafIn t path v) :
    ∀ pre, extendPath pre path ∈ flattenKeys pre t := by
  induction h with
  | @here t key v h hv =>
    intro pre
    refine mem_flattenKeys_of_mem h ?_
    cases v <;> first | exact List.mem_singleton.2 rfl | cases hv
  | @inside t sub key path v h _ ih => exact fun pre => mem_flattenKeys_of_mem h (ih _)

/-- **What `_flatten_keys` lists**: the names of the leaves without their leading empty keys. -/
theorem mem_flattenKeys {t : Table} (hd : Distinct t) {name : String} :
    name ∈ flattenKeys "" t ↔ ∃ path v, IsLeaf t path v ∧ dotted (dropEmptyKeys path) = name := by
  constructor
  · intro h
    obtain ⟨path, v, hl, he⟩ := exists_leaf_of_mem_flattenKeys h
    exact ⟨path, v, hl.isLeaf hd, by rw [he, extendPath_empty hl.ne_nil]⟩
  · rintro ⟨path, v, hl, rfl⟩
    rw [← extendPath_empty hl.leafIn.ne_nil]
    exact hl.leafIn.mem_flattenKeys ""

/-! ## The guarantee -/

/-- What the enforced tier `e` guarantees.  Whatever the other two say, each of its leaves is a leaf
of the result, with the same value for any other user tier; `_flatten_keys` lists the dotted names
of these leaves; and a leaf of the other two survives where `e` is silent. -/
structure EnforcedWins (e : RawConfig) : Prop where
  wins : ∀ (s u : RawConfig) (path : List String) (v : Value), IsLeaf e.table path v →
    IsLeaf ((s.merge u).merge e).table path v ∧
      ∀ u' : RawConfig, IsLeaf ((s.merge u').merge e).table path v
  names : ∀ name, name ∈ flattenKeys "" e.table ↔
    ∃ path v, IsLeaf e.table path v ∧ dotted path = name
  preserves : ∀ (s u : RawConfig) (path : List String) (v : Value),
    IsLeaf (s.merge u).table path v → (Value.table e.table).at path = none →
    (∀ q, q <+: path → q ≠ path → ∀ w, (Value.table e.table).at q = some w → w.isTable = true) →
    IsLeaf ((s.merge u).merge e).table path v

/-- Every leaf below an empty key at the top has its names among those of other leaves: its dotted
name is also what is left of another one's, and what is left of its own is also another one's dotted
name. -/
def EmptyKeysShadowed (t : Table) : Prop :=
  ∀ keys v, keys ≠ [] → IsLeaf t ("" :: keys) v →
    (∃ path w, IsLeaf t path w ∧ dotted (dropEmptyKeys path) = dotted ("" :: keys)) ∧
      ∃ path w, IsLeaf t path w ∧ dotted path = dotted (dropEmptyKeys ("" :: keys))

theorem dropEmptyKeys_self {path : List String} (h : ∀ keys, keys ≠ [] → path ≠ "" :: keys) :
    dropEmptyKeys path = path := by
  rw [dropEmptyKeys.eq_def]
  split
  · rename_i key keys
    exact absurd rfl (h (key :: keys) (List.cons_ne_nil key keys))
  · rfl

/-- **The enforced tier cannot be overridden, and it is listed exactly when no leaf of it is hidden
below an empty key.** -/
theorem enforcedWins_iff (e : RawConfig) : EnforcedWins e ↔ EmptyKeysShadowed e.table := by
  constructor
  · intro h keys v hne hl
    constructor
    · exact (mem_flattenKeys e.distinct).1 ((h.names _).2 ⟨"" :: keys, v, hl, rfl⟩)
    · exact (h.names _).1 ((mem_flattenKeys e.distinct).2 ⟨"" :: keys, v, hl, rfl⟩)
  · intro h
    refine ⟨fun s u path v hl => ⟨isLeaf_merge_right e.distinct hl,
      fun u' => isLeaf_merge_right e.distinct hl⟩, fun name => ?_,
        fun s u path v hl hnone hway => ?_⟩
    · rw [mem_flattenKeys e.distinct]
      constructor
      · rintro ⟨path, v, hl, rfl⟩
        by_cases hp : ∃ keys, keys ≠ [] ∧ path = "" :: keys
        · obtain ⟨keys, hne, rfl⟩ := hp
          exact (h keys v hne hl).2
        · exact ⟨path, v, hl, by rw [dropEmptyKeys_self fun keys hk he => hp ⟨keys, hk, he⟩]⟩
      · rintro ⟨path, v, hl, rfl⟩
        by_cases hp : ∃ keys, keys ≠ [] ∧ path = "" :: keys
        · obtain ⟨keys, hne, rfl⟩ := hp
          exact (h keys v hne hl).1
        · exact ⟨path, v, hl, by rw [dropEmptyKeys_self fun keys hk he => hp ⟨keys, hk, he⟩]⟩
    · refine isLeaf_merge_left e.distinct hl hnone fun q hq w hw => ?_
      by_cases he : q = path
      · rw [he, hnone] at hw
        cases hw
      · exact hway q hq he w hw

/-- A tier with a table under the empty key. -/
def hiddenTier : RawConfig where
  table := [("", .table [("x", .integer 1)])]
  distinct := .mk (by decide) fun key sub hs => by
    cases List.mem_singleton.1 hs
    exact .mk (by decide) fun key sub hs => by cases List.mem_singleton.1 hs

/-- The leaf `"".x` is listed as `x`, which is a key that the tier does not set. -/
theorem hidden_leaf_misnamed :
    flattenKeys "" hiddenTier.table = ["x"] ∧ IsLeaf hiddenTier.table ["", "x"] (.integer 1) ∧
      (Value.table hiddenTier.table).at ["x"] = none ∧ ¬EnforcedWins hiddenTier := by
  have hflat : flattenKeys "" hiddenTier.table = ["x"] := rfl
  have hleaf : IsLeaf hiddenTier.table ["", "x"] (.integer 1) := ⟨rfl, rfl⟩
  refine ⟨hflat, hleaf, rfl, fun h => ?_⟩
  have hm := (h.names ".x").2 ⟨["", "x"], _, hleaf, by decide⟩
  rw [hflat, List.mem_singleton] at hm
  exact absurd hm (by decide)

end Spork
