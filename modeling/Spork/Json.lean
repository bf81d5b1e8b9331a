import Mathlib.Data.List.Basic

/-!
# Writing JSON

What `json.dumps` writes for the flat objects this code stores as audit details: texts, `null` and
booleans, with Python's default separators and everything outside printable ASCII escaped.
-/

set_option autoImplicit false

namespace Spork

/-- The four hexadecimal digits of a 16-bit unit. -/
def hex4 (n : Nat) : List Char :=
  [Nat.digitChar (n / 4096 % 16), Nat.digitChar (n / 256 % 16), Nat.digitChar (n / 16 % 16),
    Nat.digitChar (n % 16)]

/-- One character of a JSON string, with `ensure_ascii`. -/
def jsonChar (c : Char) : List Char :=
  if c = '"' ∨ c = '\\' then ['\\', c]
  else if c = '\n' then ['\\', 'n']
  else if c = '\r' then ['\\', 'r']
  else if c = '\t' then ['\\', 't']
  else if c.toNat = 8 then ['\\', 'b']
  else if c.toNat = 12 then ['\\', 'f']
  else if 32 ≤ c.toNat ∧ c.toNat ≤ 126 then [c]
  else if c.toNat < 0x10000 then '\\' :: 'u' :: hex4 c.toNat
  else
    -- beyond the first plane: a surrogate pair
    '\\' :: 'u' :: hex4 (0xd800 + (c.toNat - 0x10000) / 0x400) ++
      '\\' :: 'u' :: hex4 (0xdc00 + (c.toNat - 0x10000) % 0x400)

/-- `json.dumps(s)` for a text. -/
def jsonString (s : String) : String :=
  String.ofList ('"' :: s.toList.flatMap jsonChar ++ ['"'])

/-- `json.dumps` of an optional text. -/
def jsonOptString : Option String → String
  | none => "null"
  | some s => jsonString s

/-- `json.dumps` of a boolean. -/
def jsonBool (b : Bool) : String := if b then "true" else "false"

/-- `json.dumps` of an object whose members are already written. -/
def jsonObject (members : List (String × String)) : String :=
  "\x7b" ++ String.intercalate ", " (members.map fun m => jsonString m.1 ++ ": " ++ m.2) ++ "\x7d"

end Spork
