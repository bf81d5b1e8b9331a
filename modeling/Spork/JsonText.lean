import Spork.Json
import Spork.JsonWriter

/-!
# The texts of JSON writers

How the characters of a text are escaped by `json.dumps` and by pydantic's `model_dump_json`, and
that either writing can be read back.
-/

set_option autoImplicit false

namespace Spork

open JsonReader
open JsonWriter (Layout)

/-! ## `json.dumps` -/

theorem hexDigit_digitChar : ∀ d < 16, hexDigit (Nat.digitChar d) = some d := by decide

theorem unitOf_hex4 {n : Nat} (h : n < 0x10000) :
    unitOf (Nat.digitChar (n / 4096 % 16)) (Nat.digitChar (n / 256 % 16))
      (Nat.digitChar (n / 16 % 16)) (Nat.digitChar (n % 16)) = some n := by
  have hvalue : ((n / 4096 % 16 * 16 + n / 256 % 16) * 16 + n / 16 % 16) * 16 + n % 16 = n := by
    omega
  rw [unitOf, hexDigit_digitChar _ (Nat.mod_lt _ (by decide)),
    hexDigit_digitChar _ (Nat.mod_lt _ (by decide)),
    hexDigit_digitChar _ (Nat.mod_lt _ (by decide)),
    hexDigit_digitChar _ (Nat.mod_lt _ (by decide))]
  exact congrArg some hvalue

theorem scansAs_hex4 {n : Nat} (h : n < 0x10000) : ScansAs ('\\' :: 'u' :: hex4 n) [n] :=
  scansAs_unit (unitOf_hex4 h)

theorem utf16_of_lt {c : Char} (h : c.toNat < 0x10000) : utf16 c = [c.toNat] := if_pos h

/-- An escaped character stands for itself. -/
theorem scansAs_jsonChar (c : Char) : ScansAs (jsonChar c) (utf16 c) := by
  rw [jsonChar]
  split
  · next hc =>
    rcases hc with rfl | rfl
    · exact scansAs_escape (by decide)
    · exact scansAs_escape (by decide)
  split
  · next hc =>
    subst hc
    exact scansAs_escape (by decide)
  split
  · next hc =>
    subst hc
    exact scansAs_escape (by decide)
  split
  · next hc =>
    subst hc
    exact scansAs_escape (by decide)
  split
  · next hc =>
    rw [utf16_of_lt (by omega), hc]
    exact scansAs_escape (by decide)
  split
  · next hc =>
    rw [utf16_of_lt (by omega), hc]
    exact scansAs_escape (by decide)
  split
  · next hspecial _ _ _ _ _ hprintable =>
    rw [utf16_of_lt (by omega)]
    exact scansAs_plain ⟨fun h => hspecial (.inl h), fun h => hspecial (.inr h), hprintable.1⟩
  split
  · next hsmall =>
    rw [utf16_of_lt hsmall]
    exact scansAs_hex4 hsmall
  · next hlarge =>
    have hlt := toNat_lt c
    rw [utf16, if_neg hlarge]
    exact (scansAs_hex4 (n := 0xd800 + (c.toNat - 0x10000) / 0x400) (by omega)).append
      (scansAs_hex4 (n := 0xdc00 + (c.toNat - 0x10000) % 0x400) (by omega))

theorem quotedAs_jsonChars (s : String) : QuotedAs (s.toList.flatMap jsonChar) (points s) :=
  ⟨_, scansAs_flatMap fun c _ => scansAs_jsonChar c, joinSurrogates_flatMap_utf16 s.toList⟩

theorem jsonString_toList (s : String) :
    (jsonString s).toList = '"' :: (s.toList.flatMap jsonChar ++ ['"']) := by
  rw [jsonString, String.toList_ofList, List.cons_append]

theorem digitChar_ne_lineFeed : ∀ d < 16, Nat.digitChar d ≠ '\n' := by decide

theorem lineFeed_not_mem_hex4 (n : Nat) : '\n' ∉ hex4 n := by
  have hdigit : ∀ m : Nat, '\n' ≠ Nat.digitChar (m % 16) := fun m =>
    (digitChar_ne_lineFeed _ (Nat.mod_lt m (by decide))).symm
  simp [hex4, hdigit]

/-- `json.dumps(value)`. -/
def dumps : Layout where
  char := jsonChar
  comma := [' ']
  colon := [' ']
  scans c := .inl (scansAs_jsonChar c)
  comma_space := List.forall_mem_singleton.mpr rfl
  colon_space := List.forall_mem_singleton.mpr rfl

/-- `json.dumps(value, separators=(",", ":"))`. -/
def dumpsCompact : Layout where
  char := jsonChar
  comma := []
  colon := []
  scans c := .inl (scansAs_jsonChar c)
  comma_space := nofun
  colon_space := nofun

/-- One character of a string of `model_dump_json`: everything outside ASCII stands as it is. -/
def serdeChar (c : Char) : List Char :=
  if c = '"' ∨ c = '\\' then ['\\', c]
  else if c = '\n' then ['\\', 'n']
  else if c = '\r' then ['\\', 'r']
  else if c = '\t' then ['\\', 't']
  else if c.toNat = 8 then ['\\', 'b']
  else if c.toNat = 12 then ['\\', 'f']
  else if c.toNat < 32 then '\\' :: 'u' :: hex4 c.toNat
  else [c]

theorem scansAs_serdeChar (c : Char) : ScansAs (serdeChar c) [c.toNat] := by
  rw [serdeChar]
  split
  · next hc => rcases hc with rfl | rfl <;> exact scansAs_escape (by decide)
  split
  · next hc =>
    subst hc
    exact scansAs_escape (by decide)
  split
  · next hc =>
    subst hc
    exact scansAs_escape (by decide)
  split
  · next hc =>
    subst hc
    exact scansAs_escape (by decide)
  split
  · next hc =>
    rw [hc]
    exact scansAs_escape (by decide)
  split
  · next hc =>
    rw [hc]
    exact scansAs_escape (by decide)
  split
  · exact scansAs_hex4 (by omega)
  · next hspecial _ _ _ _ _ hcontrol =>
    exact scansAs_plain ⟨fun h => hspecial (.inl h), fun h => hspecial (.inr h),
      Nat.not_lt.1 hcontrol⟩

/-- Line feeds are escaped. -/
theorem lineFeed_not_mem_serdeChar (c : Char) : '\n' ∉ serdeChar c := by
  rw [serdeChar]
  split
  · next hc => rcases hc with rfl | rfl <;> decide
  split
  · decide
  split
  · decide
  split
  · decide
  split
  · decide
  split
  · decide
  split
  · simp [lineFeed_not_mem_hex4]
  · next hc _ _ _ _ _ => simpa [eq_comm] using hc

/-- `model.model_dump_json()`. -/
def dumpJson : Layout where
  char := serdeChar
  comma := []
  colon := []
  scans c := .inr (scansAs_serdeChar c)
  comma_space := nofun
  colon_space := nofun

theorem dumpJson_oneLine : dumpJson.OneLine := ⟨lineFeed_not_mem_serdeChar, nofun, nofun⟩

end Spork
