import Spork.JsonText
import Mathlib.Data.List.Nodup

/-!
# Records as JSON

A `Codec` writes a type as JSON and reads it back, whether or not the members of the objects have
been sorted on the way (`sort_keys=True`).  A record is an object with a member for each field:
`member_of_mem` finds one under its key, and `field_of_lookup`, `field_sorted` read it.
-/

set_option autoImplicit false

namespace JsonWriter

open JsonReader (Value member points points_inj)

/-! ## Objects -/

theorem toMembers_eq_map (ms : List (String × Json)) :
    toMembers ms = ms.map fun m => (points m.1, m.2.toValue) := by
  induction ms with
  | nil => rfl
  | cons m ms ih => rw [toMembers, ih, List.map_cons]

theorem writableItems_iff {items : List Json} :
    WritableItems items ↔ ∀ v ∈ items, v.Writable := by
  induction items with
  | nil => simp [WritableItems]
  | cons v items ih => rw [WritableItems, ih, List.forall_mem_cons]

theorem writableMembers_iff {ms : List (String × Json)} :
    WritableMembers ms ↔ ∀ m ∈ ms, m.2.Writable := by
  induction ms with
  | nil => simp [WritableMembers]
  | cons m ms ih => rw [WritableMembers, ih, List.forall_mem_cons]

/-- **What a dict holds under a key** that it was given once. -/
theorem member_of_mem {ms : List (String × Json)} (hd : (ms.map Prod.fst).Nodup) {key : String}
    {v : Json} (h : (key, v) ∈ ms) : member (toMembers ms) key = some v.toValue := by
  obtain ⟨before, after, rfl⟩ := List.append_of_mem h
  rw [List.map_append, List.map_cons] at hd
  have hafter : key ∉ after.map Prod.fst := (List.nodup_cons.1 (List.nodup_append.1 hd).2.1).1
  refine List.lookup_eq_some_iff.2
    ⟨(toMembers after).reverse, (toMembers before).reverse, ?_, fun p hp => ?_⟩
  · rw [toMembers_eq_map, toMembers_eq_map, toMembers_eq_map, List.map_append, List.map_cons,
      List.reverse_append, List.reverse_cons, List.append_assoc]
    rfl
  · rw [toMembers_eq_map] at hp
    obtain ⟨m, hm, rfl⟩ := List.mem_map.1 (List.mem_reverse.1 hp)
    refine bne_iff_ne.2 fun he => hafter ?_
    rw [points_inj.1 he]
    exact List.mem_map_of_mem hm

mutual

/-- With the members of every object in the order of their keys. -/
def Json.sortKeys : Json → Json
  | .null => .null
  | .bool b => .bool b
  | .number spelling => .number spelling
  | .string s => .string s
  | .array items => .array (sortItems items)
  | .object ms => .object ((sortMembers ms).mergeSort fun m m' => decide (m.1 ≤ m'.1))

/-- So it is with items. -/
def sortItems : List Json → List Json
  | [] => []
  | v :: items => v.sortKeys :: sortItems items

/-- So it is with the values of members. -/
def sortMembers : List (String × Json) → List (String × Json)
  | [] => []
  | (key, v) :: ms => (key, v.sortKeys) :: sortMembers ms

end

/-- The members of an object, sorted. -/
def sorted (ms : List (String × Json)) : List (String × Json) :=
  (sortMembers ms).mergeSort fun m m' => decide (m.1 ≤ m'.1)

theorem sortKeys_object (ms : List (String × Json)) :
    (Json.object ms).sortKeys = .object (sorted ms) := by
  rw [Json.sortKeys, sorted]

theorem sortItems_eq_map (items : List Json) : sortItems items = items.map Json.sortKeys := by
  induction items with
  | nil => rw [sortItems, List.map_nil]
  | cons v items ih => rw [sortItems, ih, List.map_cons]

theorem sortMembers_eq_map (ms : List (String × Json)) :
    sortMembers ms = ms.map fun m => (m.1, m.2.sortKeys) := by
  induction ms with
  | nil => rw [sortMembers, List.map_nil]
  | cons m ms ih => rw [sortMembers, ih, List.map_cons]

theorem sorted_perm (ms : List (String × Json)) :
    (sorted ms).Perm (ms.map fun m => (m.1, m.2.sortKeys)) := by
  rw [sorted, sortMembers_eq_map]
  exact List.mergeSort_perm _ _

theorem mem_sorted {ms : List (String × Json)} {m : String × Json} :
    m ∈ sorted ms ↔ ∃ m' ∈ ms, (m'.1, m'.2.sortKeys) = m := by
  rw [(sorted_perm ms).mem_iff, List.mem_map]

theorem nodup_sorted {ms : List (String × Json)} (hd : (ms.map Prod.fst).Nodup) :
    ((sorted ms).map Prod.fst).Nodup := by
  have hkeys : (ms.map fun m => (m.1, m.2.sortKeys)).map Prod.fst = ms.map Prod.fst := by
    rw [List.map_map]
    rfl
  have hperm := (sorted_perm ms).map Prod.fst
  rw [hkeys] at hperm
  exact hperm.nodup_iff.2 hd

mutual

/-- Sorting leaves the numbers alone. -/
theorem Json.Writable.sortKeys : ∀ {v : Json}, v.Writable → v.sortKeys.Writable
  | .null, _ => by rw [Json.sortKeys]; trivial
  | .bool _, _ => by rw [Json.sortKeys]; trivial
  | .number _, h => by rw [Json.sortKeys]; exact h
  | .string _, _ => by rw [Json.sortKeys]; trivial
  | .array items, h => by
    rw [Json.sortKeys, sortItems_eq_map]
    refine writableItems_iff.2 fun v hv => ?_
    obtain ⟨w, hw, rfl⟩ := List.mem_map.1 hv
    exact writable_sortItems h w hw
  | .object ms, h => by
    rw [sortKeys_object]
    refine writableMembers_iff.2 fun m hm => ?_
    obtain ⟨m', hm', rfl⟩ := mem_sorted.1 hm
    exact writable_sortMembers h m' hm'

theorem writable_sortItems : ∀ {items : List Json}, WritableItems items →
    ∀ v ∈ items, v.sortKeys.Writable
  | [], _ => fun _ h => absurd h List.not_mem_nil
  | _ :: _, h => List.forall_mem_cons.2 ⟨h.1.sortKeys, writable_sortItems h.2⟩

theorem writable_sortMembers : ∀ {ms : List (String × Json)}, WritableMembers ms →
    ∀ m ∈ ms, m.2.sortKeys.Writable
  | [], _ => fun _ h => absurd h List.not_mem_nil
  | (_, _) :: _, h => List.forall_mem_cons.2 ⟨h.1.sortKeys, writable_sortMembers h.2⟩

end

/-! ## Integers -/

/-- An integer with no more digits than `int` and `str` convert. -/
abbrev Spellable (n : Int) : Prop := (Nat.toDigits 10 n.natAbs).length ≤ 4300

/-- The integer that is spelled so. -/
def parseInt : List Char → Int
  | '-' :: ds => -(Nat.ofDigitChars 10 ds 0 : Nat)
  | ds => (Nat.ofDigitChars 10 ds 0 : Nat)

theorem parseInt_spellInt (n : Int) : parseInt (spellInt n) = n := by
  rw [spellInt]
  split
  next hneg =>
    show -((Nat.ofDigitChars 10 (Nat.toDigits 10 n.natAbs) 0 : Nat) : Int) = n
    rw [Nat.ofDigitChars_ten_toDigits]
    omega
  next hpos =>
    rw [List.nil_append, parseInt.eq_def]
    split
    · next ds hds =>
      have hminus : '-' ∈ Nat.toDigits 10 n.natAbs := hds ▸ List.mem_cons_self
      exact absurd (isDigit_of_mem_toDigits hminus) (by decide)
    · rw [Nat.ofDigitChars_ten_toDigits]
      omega

/-! ## Codecs -/

/-- A way to write a type as JSON, and a way to read it that undoes the writing. -/
structure Codec (α : Type) where
  write : α → Json
  read : Value → Option α
  writable : ∀ a, (write a).Writable
  read_write : ∀ a, read (write a).toValue = some a
  read_sorted : ∀ a, read (write a).sortKeys.toValue = some a

namespace Codec

variable {α : Type}

/-- Texts. -/
def text : Codec String where
  write := .string
  read
    | .string ps => textOf ps
    | _ => none
  writable _ := trivial
  read_write s := textOf_points s
  read_sorted s := by rw [Json.sortKeys]; exact textOf_points s

/-- Booleans. -/
def flag : Codec Bool where
  write := .bool
  read
    | .bool b => some b
    | _ => none
  writable _ := trivial
  read_write _ := rfl
  read_sorted b := by rw [Json.sortKeys]; rfl

/-- Lists. -/
def list (c : Codec α) : Codec (List α) where
  write as := .array (as.map c.write)
  read
    | .array items => items.mapM c.read
    | _ => none
  writable as := writableItems_iff.2 (List.forall_mem_map.2 fun a _ => c.writable a)
  read_write as := by
    have h : ∀ as : List α, (toValues (as.map c.write)).mapM c.read = some as := by
      intro as
      induction as with
      | nil => rfl
      | cons a as ih => rw [List.map_cons, toValues, List.mapM_cons, c.read_write, ih]; rfl
    exact h as
  read_sorted as := by
    have h : ∀ as : List α, (toValues (sortItems (as.map c.write))).mapM c.read = some as := by
      intro as
      induction as with
      | nil => rw [List.map_nil, sortItems]; rfl
      | cons a as ih =>
        rw [List.map_cons, sortItems, toValues, List.mapM_cons, c.read_sorted, ih]
        rfl
    rw [Json.sortKeys]
    exact h as

/-- Texts, or nothing. -/
def optText : Codec (Option String) where
  write
    | some s => .string s
    | none => .null
  read
    | .string ps => (textOf ps).map some
    | .null => some none
    | _ => none
  writable s := by cases s <;> trivial
  read_write s := by
    cases s with
    | none => rfl
    | some s => exact congrArg (Option.map some) (textOf_points s)
  read_sorted s := by
    cases s with
    | none => dsimp only; rw [Json.sortKeys]; rfl
    | some s => dsimp only; rw [Json.sortKeys]; exact congrArg (Option.map some) (textOf_points s)

/-- Integers, where they are short enough to be written. -/
def int : Codec {n : Int // Spellable n} where
  write n := .int n.1
  read
    | .number spelling =>
      if h : Spellable (parseInt spelling) then some ⟨parseInt spelling, h⟩ else none
    | _ => none
  writable n := isNumber_spellInt n.2
  read_write n := by
    have h : parseInt (spellInt n.1) = n.1 := parseInt_spellInt n.1
    dsimp only [Json.int, Json.toValue]
    rw [dif_pos (h.symm ▸ n.2)]
    exact congrArg some (Subtype.ext h)
  read_sorted n := by
    have h : parseInt (spellInt n.1) = n.1 := parseInt_spellInt n.1
    rw [Json.int, Json.sortKeys]
    dsimp only [Json.toValue]
    rw [dif_pos (h.symm ▸ n.2)]
    exact congrArg some (Subtype.ext h)

end Codec

/-! ## Fields -/

variable {α : Type}

/-- A field of a record. -/
def field (c : Codec α) (ms : List (List Nat × Value)) (key : String) : Option α :=
  (member ms key).bind c.read

variable {c : Codec α} {ms : List (String × Json)} {key : String} {a : α}

theorem mem_of_lookup {v : Json} (h : ms.lookup key = some v) : (key, v) ∈ ms := by
  obtain ⟨before, after, rfl, -⟩ := List.lookup_eq_some_iff.1 h
  exact List.mem_append_right _ List.mem_cons_self

theorem member_sorted (hd : (ms.map Prod.fst).Nodup) {v : Json} (h : ms.lookup key = some v) :
    member (toMembers (sorted ms)) key = some v.sortKeys.toValue :=
  member_of_mem (nodup_sorted hd) (mem_sorted.2 ⟨_, mem_of_lookup h, rfl⟩)

theorem field_sorted (hd : (ms.map Prod.fst).Nodup) (h : ms.lookup key = some (c.write a)) :
    field c (toMembers (sorted ms)) key = some a := by
  rw [field, member_sorted hd h, Option.bind_some, c.read_sorted]

end JsonWriter
