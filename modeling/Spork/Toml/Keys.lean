import Spork.Toml.Document
import Mathlib.Data.List.Nodup

/-!
# TOML: no key twice

The parser refuses a key that is there already, so no table that it returns has a key twice: not the
document, not a table below it, and not a table in an array (`loads_keyed`).  Everything that
changes a document goes through `modifyAt`, and `modifyAt_keyed` is the one argument about it.
-/

set_option autoImplicit false

namespace Toml

/-- No table in the value has a key twice. -/
inductive Value.Keyed : Value → Prop where
  | array {vs : List Value} (items : ∀ v ∈ vs, v.Keyed) : (Value.array vs).Keyed
  | table {t : Table} (keys : (t.map Prod.fst).Nodup) (items : ∀ p ∈ t, p.2.Keyed) :
      (Value.table t).Keyed
  | leaf {v : Value} (h : v.isNest = false) : v.Keyed

/-! ## Tables -/

section Tables

variable {t : Table} {k : String} {v : Value}

theorem Value.Keyed.keys (h : (Value.table t).Keyed) : (t.map Prod.fst).Nodup := by
  cases h with
  | table keys _ => exact keys
  | leaf h => cases h

theorem Value.Keyed.items (h : (Value.table t).Keyed) : ∀ p ∈ t, p.2.Keyed := by
  cases h with
  | table _ items => exact items
  | leaf h => cases h

theorem Value.Keyed.elements {vs : List Value} (h : (Value.array vs).Keyed) :
    ∀ v ∈ vs, v.Keyed := by
  cases h with
  | array items => exact items
  | leaf h => cases h

theorem keyed_nil : (Value.table []).Keyed := .table List.nodup_nil fun p hp => by cases hp

theorem Value.Keyed.lookup (h : (Value.table t).Keyed) (hl : t.lookup k = some v) : v.Keyed := by
  obtain ⟨before, after, rfl, -⟩ := List.lookup_eq_some_iff.1 hl
  exact h.items (k, v) (List.mem_append_right _ List.mem_cons_self)

theorem Value.Keyed.setKey (h : (Value.table t).Keyed) (hv : v.Keyed) :
    (Value.table (setKey k v t)).Keyed := by
  have hkeys : (Toml.setKey k v t).map Prod.fst = t.map Prod.fst := by
    rw [Toml.setKey, List.map_map]
    refine List.map_congr_left fun p _ => ?_
    rw [Function.comp_apply]
    split
    · exact (‹p.1 = k›).symm
    · rfl
  refine .table (hkeys ▸ h.keys) fun p hp => ?_
  obtain ⟨q, hq, rfl⟩ := List.mem_map.1 hp
  split
  · exact hv
  · exact h.items q hq

theorem Value.Keyed.append (h : (Value.table t).Keyed) (hk : t.lookup k = none) (hv : v.Keyed) :
    (Value.table (t ++ [(k, v)])).Keyed := by
  refine .table ?_ fun p hp => ?_
  · rw [List.map_append, List.map_cons, List.map_nil]
    refine h.keys.append (List.nodup_singleton k) (List.disjoint_singleton.2 fun hmem => ?_)
    obtain ⟨p, hp, rfl⟩ := List.mem_map.1 hmem
    exact bne_iff_ne.1 (List.lookup_eq_none_iff.1 hk p hp) rfl
  · rcases List.mem_append.1 hp with hp | hp
    · exact h.items p hp
    · rw [List.mem_singleton.1 hp]
      exact hv

/-- The first step went well, and the second one with what it returned. -/
theorem of_bind_ok {ε α β : Type} {x : Except ε α} {f : α → Except ε β} {b : β}
    (h : x >>= f = .ok b) : ∃ a, x = .ok a ∧ f a = .ok b := by
  cases x with
  | ok a => exact ⟨a, rfl, h⟩
  | error e => cases h

/-- What keeps a table's keys apart keeps them apart at the end of a path. -/
theorem modifyAt_keyed {lists : Bool} {f : Table → Result Table}
    (hf : ∀ {t r : Table}, (Value.table t).Keyed → f t = .ok r → (Value.table r).Keyed) :
    ∀ {key : Key} {t r : Table}, (Value.table t).Keyed → modifyAt lists f key t = .ok r →
      (Value.table r).Keyed
  | [], _, _, ht, h => hf ht h
  | k :: ks, t, r, ht, h => by
    rw [modifyAt] at h
    split at h
    · rename_i hk
      obtain ⟨nest, hn, hr⟩ := of_bind_ok h
      cases hr
      exact ht.append hk (modifyAt_keyed hf keyed_nil hn)
    · rename_i nest hk
      obtain ⟨nest', hn, hr⟩ := of_bind_ok h
      cases hr
      exact ht.setKey (modifyAt_keyed hf (ht.lookup hk) hn)
    · rename_i vs hk
      have hvs := (ht.lookup hk).elements
      split at h
      · split at h
        · rename_i nest hlast
          obtain ⟨nest', hn, hr⟩ := of_bind_ok h
          cases hr
          refine ht.setKey (.array fun v hv => ?_)
          rcases List.mem_append.1 hv with hv | hv
          · exact hvs v (List.dropLast_subset vs hv)
          · rw [List.mem_singleton.1 hv]
            exact modifyAt_keyed hf (hvs _ (List.mem_of_getLast? hlast)) hn
        · cases h
      · cases h
    · cases h

theorem addKey_keyed {taken : Error} {r : Table} (hv : v.Keyed) (ht : (Value.table t).Keyed)
    (h : addKey taken k v t = .ok r) : (Value.table r).Keyed := by
  rw [addKey] at h
  split at h
  · cases h
  · rename_i hk
    cases h
    exact ht.append (Option.not_isSome_iff_eq_none.1 hk) hv

theorem appendNest_keyed {r : Table} (ht : (Value.table t).Keyed) (h : appendNest k t = .ok r) :
    (Value.table r).Keyed := by
  rw [appendNest] at h
  split at h
  · rename_i hk
    cases h
    refine ht.append hk (.array fun v hv => ?_)
    rw [List.mem_singleton.1 hv]
    exact keyed_nil
  · rename_i vs hk
    cases h
    refine ht.setKey (.array fun v hv => ?_)
    rcases List.mem_append.1 hv with hv | hv
    · exact (ht.lookup hk).elements v hv
    · rw [List.mem_singleton.1 hv]
      exact keyed_nil
  · cases h

theorem addInline_keyed {flags : Flags} {key : Key} {r : Table} (hv : v.Keyed)
    (ht : (Value.table t).Keyed) (h : addInline flags key v t = .ok r) :
    (Value.table r).Keyed := by
  rw [addInline] at h
  split at h
  · cases h
  · exact modifyAt_keyed (addKey_keyed hv) ht h

end Tables

/-! ## Values -/

theorem parseScalar_keyed {cs rest : List Char} {v : Value} (h : parseScalar cs = .ok (v, rest)) :
    v.Keyed := by
  refine .leaf ?_
  rw [parseScalar] at h
  repeat' split at h
  all_goals first | (cases h; done) | (cases h; rfl)

theorem parseString_keyed {quote : Char} {cs rest : List Char} {v : Value}
    (h : parseString quote cs = .ok (v, rest)) : v.Keyed := by
  have hleaf : ∀ {x : Result (String × List Char)},
      (x >>= fun p => Except.ok (Value.string p.1, p.2)) = .ok (v, rest) → v.Keyed := by
    intro x h
    obtain ⟨p, -, h⟩ := of_bind_ok h
    cases h
    exact .leaf rfl
  rw [parseString] at h
  split at h
  · exact hleaf h
  · split at h
    · exact hleaf h
    · exact hleaf h

section Values

variable {room : Room}

mutual

theorem parseValue_keyed : ∀ {n : Nat} {brackets cs rest : List Char} {v : Value},
    parseValue room n brackets cs = .ok (v, rest) → v.Keyed
  | 0, _, _, _, _, h => by cases h
  | _ + 1, _, [], _, _, h => by cases h
  | n + 1, brackets, c :: cs, rest, v, h => by
    rw [parseValue] at h
    split at h
    · exact parseString_keyed h
    · split at h
      · cases h
        exact .leaf rfl
      · split at h
        · cases h
          exact .leaf rfl
        · split at h
          · obtain ⟨_, -, h⟩ := of_bind_ok h
            obtain ⟨cs', -, h⟩ := of_bind_ok h
            split at h
            · cases h
              exact .array fun v hv => by cases hv
            · obtain ⟨p, hp, h⟩ := of_bind_ok h
              cases h
              exact .array (parseItems_keyed hp)
          · split at h
            · obtain ⟨_, -, h⟩ := of_bind_ok h
              split at h
              · cases h
                exact keyed_nil
              · obtain ⟨p, hp, h⟩ := of_bind_ok h
                cases h
                exact parseInlinePairs_keyed keyed_nil hp
            · exact parseScalar_keyed h

theorem parseItems_keyed : ∀ {n : Nat} {brackets cs rest : List Char} {vs : List Value},
    parseItems room n brackets cs = .ok (vs, rest) → ∀ v ∈ vs, v.Keyed
  | 0, _, _, _, _, h => by cases h
  | n + 1, brackets, cs, rest, vs, h => by
    rw [parseItems] at h
    obtain ⟨p, hp, h⟩ := of_bind_ok h
    obtain ⟨cs', -, h⟩ := of_bind_ok h
    have hv := parseValue_keyed hp
    split at h
    · cases h
      exact fun w hw => List.mem_singleton.1 hw ▸ hv
    · obtain ⟨cs'', -, h⟩ := of_bind_ok h
      split at h
      · cases h
        exact fun w hw => List.mem_singleton.1 hw ▸ hv
      · obtain ⟨q, hq, h⟩ := of_bind_ok h
        cases h
        intro w hw
        rcases List.mem_cons.1 hw with rfl | hw
        · exact hv
        · exact parseItems_keyed hq w hw
    · cases h

theorem parseInlinePairs_keyed : ∀ {n : Nat} {brackets : List Char} {flags : Flags} {t : Table}
    {cs rest : List Char} {r : Table}, (Value.table t).Keyed →
      parseInlinePairs room n brackets flags t cs = .ok (r, rest) → (Value.table r).Keyed
  | 0, _, _, _, _, _, _, _, h => by cases h
  | n + 1, brackets, flags, t, cs, rest, r, ht, h => by
    rw [parseInlinePairs] at h
    obtain ⟨p, -, h⟩ := of_bind_ok h
    obtain ⟨q, hq, h⟩ := of_bind_ok h
    obtain ⟨t', ht', h⟩ := of_bind_ok h
    have hkeyed := addInline_keyed (parseValue_keyed hq) ht ht'
    split at h
    · cases h
      exact hkeyed
    · exact parseInlinePairs_keyed hkeyed h
    · cases h

end

end Values

/-! ## Statements -/

section Statements

variable {room : Room} {out out' : Output} {cs rest : List Char}

theorem createDict_keyed (ht : (Value.table out.data).Keyed)
    (h : createDict out cs = .ok (out', rest)) : (Value.table out'.data).Keyed := by
  obtain ⟨⟨key, cs'⟩, -, h⟩ := of_bind_ok h
  dsimp only at h
  split at h
  · cases h
  · obtain ⟨data, hdata, h⟩ := of_bind_ok h
    split at h
    · cases h
      exact modifyAt_keyed (fun ht h => by cases h; exact ht) ht hdata
    · cases h

theorem createList_keyed (ht : (Value.table out.data).Keyed)
    (h : createList out cs = .ok (out', rest)) : (Value.table out'.data).Keyed := by
  obtain ⟨⟨key, cs'⟩, -, h⟩ := of_bind_ok h
  dsimp only at h
  split at h
  · cases h
  · obtain ⟨data, hdata, h⟩ := of_bind_ok h
    split at h
    · cases h
      exact modifyAt_keyed appendNest_keyed ht hdata
    · cases h

theorem keyValue_keyed (ht : (Value.table out.data).Keyed)
    (h : keyValue room out cs = .ok (out', rest)) : (Value.table out'.data).Keyed := by
  obtain ⟨⟨key, cs'⟩, -, h⟩ := of_bind_ok h
  obtain ⟨⟨v, cs''⟩, hv, h⟩ := of_bind_ok h
  dsimp only at h
  split at h
  · cases h
  · split at h
    · cases h
    · obtain ⟨data, hdata, h⟩ := of_bind_ok h
      cases h
      exact modifyAt_keyed (addKey_keyed (parseValue_keyed hv)) ht hdata

theorem statement_keyed (ht : (Value.table out.data).Keyed)
    (h : statement room out cs = .ok (out', rest)) : (Value.table out'.data).Keyed := by
  cases cs with
  | nil =>
    cases h
    exact ht
  | cons c cs =>
    rw [statement] at h
    split at h
    · obtain ⟨p, hp, h⟩ := of_bind_ok h
      cases h
      exact keyValue_keyed ht hp
    · split at h
      · have ht' : (Value.table { out with flags := out.flags.finalizePending }.data).Keyed := ht
        dsimp only at h
        split at h
        · obtain ⟨p, hp, h⟩ := of_bind_ok h
          cases h
          exact createList_keyed ht' hp
        · obtain ⟨p, hp, h⟩ := of_bind_ok h
          cases h
          exact createDict_keyed ht' hp
      · split at h
        · cases h
          exact ht
        · cases h

theorem statements_keyed : ∀ {n : Nat} {out : Output} {cs : List Char} {t : Table},
    (Value.table out.data).Keyed → statements room n out cs = .ok t → (Value.table t).Keyed
  | 0, _, _, _, _, h => by cases h
  | n + 1, out, cs, t, ht, h => by
    rw [statements] at h
    split at h
    · cases h
      exact ht
    · exact statements_keyed ht h
    · obtain ⟨p, hp, h⟩ := of_bind_ok h
      obtain ⟨cs', -, h⟩ := of_bind_ok h
      have hkeyed := statement_keyed ht hp
      split at h
      · cases h
        exact hkeyed
      · exact statements_keyed hkeyed h
      · cases h

end Statements

/-- **A document that is read has no key twice.** -/
theorem loads_keyed {s : String} {t : Table} (h : loads s = .ok t) : (Value.table t).Keyed :=
  statements_keyed keyed_nil h

end Toml
