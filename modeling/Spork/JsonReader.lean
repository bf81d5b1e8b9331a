import Mathlib.Data.List.Basic

/-!
# Reading JSON

`json.loads`: a descent over the text, the objects of which become lists of members in the order of
the text.  A text is a list of code points, as a `str` is, since an escaped half of a surrogate
pair stands for itself.  A number keeps its spelling.  What goes wrong is the text's fault, or that
of an integer too long to be converted, or of the interpreter's stack: `room` is how many arrays
and objects may be nested in each other, `none` if any number may.

`WrittenMembers` says how an object is written with the default separators, and `loads_object` that
it is then read as those members.
-/

set_option autoImplicit false

namespace JsonReader

/-- A JSON value. -/
inductive Value where
  | null
  | bool (b : Bool)
  | number (spelling : List Char)
  | string (points : List Nat)
  | array (items : List Value)
  | object (members : List (List Nat × Value))

/-- What `json.loads` raises: a `JSONDecodeError`, the `ValueError` of an integer with more than
4300 digits, or a `RecursionError`. -/
inductive Error where
  | decode
  | tooManyDigits
  | recursion
  deriving DecidableEq, Repr

/-- What has to be there. -/
def expect {α : Type} : Option α → Except Error α
  | some a => .ok a
  | none => .error .decode

/-- A text as its code points. -/
def points (s : String) : List Nat := s.toList.map Char.toNat

/-- What a `dict` made from these members holds under a key: the last one counts. -/
def member (members : List (List Nat × Value)) (key : String) : Option Value :=
  members.reverse.lookup (points key)

theorem points_inj {s t : String} : points s = points t ↔ s = t := by
  rw [points, points, List.map_inj_right fun _ _ => Char.toNat_inj.1, String.toList_inj]

/-! ## Strings -/

/-- The value of a hexadecimal digit. -/
def hexDigit (c : Char) : Option Nat :=
  if '0' ≤ c ∧ c ≤ '9' then some (c.toNat - 48)
  else if 'a' ≤ c ∧ c ≤ 'f' then some (c.toNat - 87)
  else if 'A' ≤ c ∧ c ≤ 'F' then some (c.toNat - 55)
  else none

/-- Four hexadecimal digits. -/
def unitOf (a b c d : Char) : Option Nat := do
  let a ← hexDigit a
  let b ← hexDigit b
  let c ← hexDigit c
  let d ← hexDigit d
  some (((a * 16 + b) * 16 + c) * 16 + d)

/-- What a backslash and one more character stand for. -/
def escape (c : Char) : Option Nat :=
  if c = '"' ∨ c = '\\' ∨ c = '/' then some c.toNat
  else if c = 'b' then some 8
  else if c = 'f' then some 12
  else if c = 'n' then some 10
  else if c = 'r' then some 13
  else if c = 't' then some 9
  else none

/-- The units of a string, up to its closing quote, and what stands behind it.  Control characters
are not accepted. -/
def scanUnits : List Char → Option (List Nat × List Char)
  | [] => none
  | c :: cs =>
    if c = '"' then some ([], cs)
    else if c = '\\' then
      match cs with
      | 'u' :: a :: b :: c :: d :: cs => do
        let unit ← unitOf a b c d
        let (units, rest) ← scanUnits cs
        some (unit :: units, rest)
      | c :: cs => do
        let unit ← escape c
        let (units, rest) ← scanUnits cs
        some (unit :: units, rest)
      | [] => none
    else if c.toNat < 32 then none
    else do
      let (units, rest) ← scanUnits cs
      some (c.toNat :: units, rest)

/-- A high surrogate with a low one behind it is one code point. -/
def joinSurrogates : List Nat → List Nat
  | hi :: lo :: units =>
    if 0xd800 ≤ hi ∧ hi ≤ 0xdbff ∧ 0xdc00 ≤ lo ∧ lo ≤ 0xdfff then
      (0x10000 + (hi - 0xd800) * 0x400 + (lo - 0xdc00)) :: joinSurrogates units
    else hi :: joinSurrogates (lo :: units)
  | units => units

/-- `scanstring`, behind the opening quote. -/
def scanString (cs : List Char) : Option (List Nat × List Char) :=
  (scanUnits cs).map fun found => (joinSurrogates found.1, found.2)

/-! ## Numbers -/

def isDigit (c : Char) : Bool := decide ('0' ≤ c ∧ c ≤ '9')

/-- `(\.\d+)?` -/
def fraction : List Char → List Char × List Char
  | '.' :: cs =>
    if cs.takeWhile isDigit = [] then ([], '.' :: cs)
    else ('.' :: cs.takeWhile isDigit, cs.dropWhile isDigit)
  | cs => ([], cs)

/-- `([eE][-+]?\d+)?` -/
def exponent (cs : List Char) : List Char × List Char :=
  match cs with
  | e :: rest =>
    let (sign, rest) := match rest with
      | '-' :: rest => (['-'], rest)
      | '+' :: rest => (['+'], rest)
      | rest => ([], rest)
    if (e = 'e' ∨ e = 'E') ∧ rest.takeWhile isDigit ≠ [] then
      (e :: (sign ++ rest.takeWhile isDigit), rest.dropWhile isDigit)
    else ([], cs)
  | [] => ([], cs)

/-- `(-?(?:0|[1-9]\d*))` and what may follow it, or one of the constants. -/
def number (cs : List Char) : Except Error (List Char × List Char) :=
  let (sign, cs) := match cs with
    | '-' :: cs => (['-'], cs)
    | cs => ([], cs)
  if "NaN".toList <+: cs ∧ sign = [] then .ok ("NaN".toList, cs.drop 3)
  else if "Infinity".toList <+: cs then .ok (sign ++ "Infinity".toList, cs.drop 8)
  else
    let (whole, cs) := match cs with
      | '0' :: cs => (['0'], cs)
      | cs => (cs.takeWhile isDigit, cs.dropWhile isDigit)
    if whole = [] then .error .decode
    else
      let (fraction, cs) := fraction cs
      let (exponent, cs) := exponent cs
      if fraction = [] ∧ exponent = [] ∧ 4300 < whole.length then .error .tooManyDigits
      else .ok (sign ++ whole ++ fraction ++ exponent, cs)

/-! ## Values -/

/-- White space between the tokens. -/
def isSpace (c : Char) : Bool := c == ' ' || c == '\t' || c == '\n' || c == '\r'

/-- Skip white space. -/
def skipSpace (cs : List Char) : List Char := cs.dropWhile isSpace

/-- What is left of the room behind one bracket more. -/
def deeper : Option Nat → Except Error (Option Nat)
  | none => .ok none
  | some 0 => .error .recursion
  | some (room + 1) => .ok (some room)

mutual

/-- `scan_once`, for at most `n` nested calls. -/
def value (room : Option Nat) : Nat → List Char → Except Error (Value × List Char)
  | 0, _ => .error .decode
  | n + 1, cs =>
    match cs with
    | '"' :: cs => (expect (scanString cs)).map fun found => (.string found.1, found.2)
    | '\x7b' :: cs => do
      let room ← deeper room
      match skipSpace cs with
      | '\x7d' :: rest => .ok (.object [], rest)
      | cs => (members room n cs).map fun found => (.object found.1, found.2)
    | '[' :: cs => do
      let room ← deeper room
      match skipSpace cs with
      | ']' :: rest => .ok (.array [], rest)
      | cs => (items room n cs).map fun found => (.array found.1, found.2)
    | 'n' :: 'u' :: 'l' :: 'l' :: cs => .ok (.null, cs)
    | 't' :: 'r' :: 'u' :: 'e' :: cs => .ok (.bool true, cs)
    | 'f' :: 'a' :: 'l' :: 's' :: 'e' :: cs => .ok (.bool false, cs)
    | cs => (number cs).map fun found => (.number found.1, found.2)

/-- The members of an object, from a key on, up to the closing brace. -/
def members (room : Option Nat) :
    Nat → List Char → Except Error (List (List Nat × Value) × List Char)
  | 0, _ => .error .decode
  | n + 1, cs =>
    match cs with
    | '"' :: cs => do
      let (key, cs) ← expect (scanString cs)
      match skipSpace cs with
      | ':' :: cs => do
        let (v, cs) ← value room n (skipSpace cs)
        match skipSpace cs with
        | '\x7d' :: rest => .ok ([(key, v)], rest)
        | ',' :: cs => do
          let (found, rest) ← members room n (skipSpace cs)
          .ok ((key, v) :: found, rest)
        | _ => .error .decode
      | _ => .error .decode
    | _ => .error .decode

/-- The items of an array, up to the closing bracket. -/
def items (room : Option Nat) : Nat → List Char → Except Error (List Value × List Char)
  | 0, _ => .error .decode
  | n + 1, cs => do
    let (v, cs) ← value room n cs
    match skipSpace cs with
    | ']' :: rest => .ok ([v], rest)
    | ',' :: cs => do
      let (found, rest) ← items room n (skipSpace cs)
      .ok (v :: found, rest)
    | _ => .error .decode

end

/-- `json.loads`. -/
def read (room : Option Nat) (text : List Char) : Except Error Value :=
  match value room (text.length + 1) (skipSpace text) with
  | .ok (v, rest) => if skipSpace rest = [] then .ok v else .error .decode
  | .error e => .error e

/-- What it returns, on a stack with room enough. -/
def loads (text : List Char) : Option Value := (read none text).toOption

/-! ## Reading what was written -/

/-- This piece of a string stands for these units, whatever follows it. -/
def ScansAs (raw : List Char) (units : List Nat) : Prop :=
  ∀ rest, scanUnits (raw ++ rest) = (scanUnits rest).map fun found => (units ++ found.1, found.2)

theorem scansAs_nil : ScansAs [] [] := fun rest => by
  rw [List.nil_append]
  cases scanUnits rest <;> rfl

theorem ScansAs.append {raw raw' : List Char} {units units' : List Nat} (h : ScansAs raw units)
    (h' : ScansAs raw' units') : ScansAs (raw ++ raw') (units ++ units') := fun rest => by
  rw [List.append_assoc, h, h', Option.map_map]
  refine congrArg (fun f => (scanUnits rest).map f) (funext fun found => ?_)
  rw [List.append_assoc]
  rfl

theorem scansAs_flatMap {α : Type} {raw : α → List Char} {units : α → List Nat} :
    ∀ {l : List α}, (∀ a ∈ l, ScansAs (raw a) (units a)) → ScansAs (l.flatMap raw) (l.flatMap units)
  | [], _ => scansAs_nil
  | a :: _, h => (h a List.mem_cons_self).append
      (scansAs_flatMap fun b hb => h b (List.mem_cons_of_mem a hb))

/-- A character that a string may hold as it is. -/
def Plain (c : Char) : Prop := c ≠ '"' ∧ c ≠ '\\' ∧ 32 ≤ c.toNat

instance (c : Char) : Decidable (Plain c) := inferInstanceAs (Decidable (_ ∧ _))

theorem plain_of_all {cs : List Char} (h : cs.all (fun c => decide (Plain c)) = true) :
    ∀ c ∈ cs, Plain c := fun c hc => of_decide_eq_true (List.all_eq_true.1 h c hc)

theorem scansAs_plain {c : Char} (h : Plain c) : ScansAs [c] [c.toNat] := fun rest => by
  rw [List.singleton_append, scanUnits.eq_def]
  dsimp only
  rw [if_neg h.1, if_neg h.2.1, if_neg (Nat.not_lt.2 h.2.2)]
  cases scanUnits rest <;> rfl

theorem scansAs_unit {a b c d : Char} {unit : Nat} (h : unitOf a b c d = some unit) :
    ScansAs ['\\', 'u', a, b, c, d] [unit] := fun rest => by
  show scanUnits ('\\' :: 'u' :: a :: b :: c :: d :: rest) = _
  rw [scanUnits.eq_def]
  dsimp only
  rw [if_neg (by decide), if_pos rfl]
  show (unitOf a b c d >>= fun unit => scanUnits rest >>= fun f => some (unit :: f.1, f.2)) = _
  rw [h]
  cases scanUnits rest <;> rfl

theorem scansAs_escape {c : Char} {unit : Nat} (h : escape c = some unit) :
    ScansAs ['\\', c] [unit] := fun rest => by
  have hc : c ≠ 'u' := by
    rintro rfl
    cases h
  show scanUnits ('\\' :: c :: rest) = _
  rw [scanUnits.eq_def]
  dsimp only
  rw [if_neg (by decide), if_pos rfl]
  split
  · next he => exact absurd (List.cons.inj he).1 hc
  · next he =>
    cases he
    rw [h]
    cases scanUnits rest <;> rfl
  · next he => cases he

/-! ### Surrogates -/

theorem not_surrogate (c : Char) : ¬(0xd800 ≤ c.toNat ∧ c.toNat ≤ 0xdfff) := by
  have hvalid := c.valid
  rw [UInt32.isValidChar, Nat.isValidChar] at hvalid
  show ¬(0xd800 ≤ c.val.toNat ∧ c.val.toNat ≤ 0xdfff)
  omega

theorem toNat_lt (c : Char) : c.toNat < 0x110000 := by
  have hvalid := c.valid
  rw [UInt32.isValidChar, Nat.isValidChar] at hvalid
  show c.val.toNat < 0x110000
  omega

theorem joinSurrogates_cons {unit : Nat} (units : List Nat)
    (h : ¬(0xd800 ≤ unit ∧ unit ≤ 0xdbff)) :
    joinSurrogates (unit :: units) = unit :: joinSurrogates units := by
  cases units with
  | nil => rfl
  | cons lo units =>
    rw [joinSurrogates, if_neg]
    exact fun hpair => h ⟨hpair.1, hpair.2.1⟩

/-- The units of a character. -/
def utf16 (c : Char) : List Nat :=
  if c.toNat < 0x10000 then [c.toNat]
  else [0xd800 + (c.toNat - 0x10000) / 0x400, 0xdc00 + (c.toNat - 0x10000) % 0x400]

theorem joinSurrogates_utf16 (c : Char) (units : List Nat) :
    joinSurrogates (utf16 c ++ units) = c.toNat :: joinSurrogates units := by
  have hlt := toNat_lt c
  rw [utf16]
  split
  · refine joinSurrogates_cons units fun h => not_surrogate c ⟨h.1, ?_⟩
    omega
  · have hvalue : 0x10000 + (0xd800 + (c.toNat - 0x10000) / 0x400 - 0xd800) * 0x400
        + (0xdc00 + (c.toNat - 0x10000) % 0x400 - 0xdc00) = c.toNat := by
      omega
    rw [List.cons_append, List.singleton_append, joinSurrogates, if_pos (by omega), hvalue]

theorem joinSurrogates_flatMap_utf16 : ∀ cs : List Char,
    joinSurrogates (cs.flatMap utf16) = cs.map Char.toNat
  | [] => rfl
  | c :: cs => by
    rw [List.flatMap_cons, joinSurrogates_utf16, joinSurrogates_flatMap_utf16 cs, List.map_cons]

/-- Characters themselves are never joined. -/
theorem joinSurrogates_map_toNat : ∀ cs : List Char,
    joinSurrogates (cs.map Char.toNat) = cs.map Char.toNat
  | [] => rfl
  | c :: cs => by
    rw [List.map_cons, joinSurrogates_cons _ fun h => not_surrogate c ⟨h.1, by omega⟩,
      joinSurrogates_map_toNat cs]

/-! ### Strings and objects -/

/-- What stands between the quotes of a string. -/
structure QuotedAs (raw : List Char) (points : List Nat) : Prop where
  scans : ∃ units, ScansAs raw units ∧ joinSurrogates units = points

theorem QuotedAs.scanString {raw : List Char} {points : List Nat} (h : QuotedAs raw points)
    (rest : List Char) : scanString (raw ++ '"' :: rest) = some (points, rest) := by
  obtain ⟨units, hscans, rfl⟩ := h.scans
  have hquote : scanUnits ('"' :: rest) = some ([], rest) := by
    rw [scanUnits.eq_def]
    rfl
  rw [JsonReader.scanString, hscans, hquote, Option.map_some, Option.map_some, List.append_nil]

/-- A text of plain characters is quoted as it is. -/
theorem quotedAs_plain {s : String} (h : ∀ c ∈ s.toList, Plain c) :
    QuotedAs s.toList (points s) := by
  have hscans := scansAs_flatMap fun c hc => scansAs_plain (h c hc)
  rw [List.flatMap_singleton', ← List.map_eq_flatMap] at hscans
  exact ⟨_, hscans, joinSurrogates_map_toNat s.toList⟩

/-- This text is read as this value, whatever follows it. -/
structure ReadsAs (text : List Char) (v : Value) : Prop where
  first : ∃ c cs, text = c :: cs ∧ isSpace c = false
  value : ∀ n rest, JsonReader.value none (n + 1) (text ++ rest) = .ok (v, rest)

theorem readsAs_null : ReadsAs "null".toList .null :=
  ⟨⟨_, _, rfl, rfl⟩, fun _ _ => rfl⟩

theorem readsAs_bool (b : Bool) : ReadsAs (if b then "true" else "false").toList (.bool b) := by
  cases b <;> exact ⟨⟨_, _, rfl, rfl⟩, fun _ _ => rfl⟩

theorem QuotedAs.readsAs {raw : List Char} {points : List Nat} (h : QuotedAs raw points) :
    ReadsAs ('"' :: (raw ++ ['"'])) (.string points) := by
  refine ⟨⟨_, _, rfl, rfl⟩, fun n rest => ?_⟩
  rw [List.cons_append, List.append_assoc, List.singleton_append, JsonReader.value, h.scanString]
  rfl

/-- The members of an object, from the first key to the closing brace, as `json.dumps` sets them
out. -/
inductive WrittenMembers : List Char → List (List Nat × Value) → Prop where
  | last {rawKey text : List Char} {key : List Nat} {v : Value} (hkey : QuotedAs rawKey key)
      (hvalue : ReadsAs text v) :
      WrittenMembers ('"' :: (rawKey ++ '"' :: ':' :: ' ' :: (text ++ ['\x7d']))) [(key, v)]
  | more {rawKey text rest : List Char} {key : List Nat} {v : Value}
      {ms : List (List Nat × Value)} (hkey : QuotedAs rawKey key) (hvalue : ReadsAs text v)
      (hrest : WrittenMembers rest ms) :
      WrittenMembers ('"' :: (rawKey ++ '"' :: ':' :: ' ' :: (text ++ ',' :: ' ' :: rest)))
        ((key, v) :: ms)

theorem ReadsAs.skipSpace {text : List Char} {v : Value} (h : ReadsAs text v) (rest : List Char) :
    skipSpace (' ' :: (text ++ rest)) = text ++ rest := by
  obtain ⟨c, cs, rfl, hc⟩ := h.first
  rw [JsonReader.skipSpace, List.dropWhile_cons_of_pos rfl, List.cons_append,
    List.dropWhile_cons_of_neg (Bool.eq_false_iff.1 hc)]

theorem WrittenMembers.first {text : List Char} {ms : List (List Nat × Value)}
    (h : WrittenMembers text ms) : ∃ cs, text = '"' :: cs := by
  cases h <;> exact ⟨_, rfl⟩

theorem WrittenMembers.members {text : List Char} {ms : List (List Nat × Value)}
    (h : WrittenMembers text ms) : ∀ {n : Nat}, ms.length < n → ∀ rest,
      members none n (text ++ rest) = .ok (ms, rest) := by
  induction h with
  | @last rawKey text key v hkey hvalue =>
    intro n hn rest
    obtain ⟨n, rfl⟩ : ∃ m, n = m + 2 := ⟨n - 2, by rw [List.length_singleton] at hn; omega⟩
    have htext : '"' :: (rawKey ++ '"' :: ':' :: ' ' :: (text ++ ['\x7d'])) ++ rest
        = '"' :: (rawKey ++ '"' :: ':' :: ' ' :: (text ++ '\x7d' :: rest)) := by
      simp only [List.cons_append, List.append_assoc, List.nil_append]
    rw [htext, JsonReader.members, hkey.scanString]
    show (JsonReader.value none (n + 1) (JsonReader.skipSpace _) >>= _) = _
    rw [hvalue.skipSpace, hvalue.value]
    rfl
  | @more rawKey text tail key v ms hkey hvalue hrest ih =>
    intro n hn rest
    obtain ⟨n, rfl⟩ : ∃ m, n = m + 2 := ⟨n - 2, by rw [List.length_cons] at hn; omega⟩
    have htext : '"' :: (rawKey ++ '"' :: ':' :: ' ' :: (text ++ ',' :: ' ' :: tail)) ++ rest
        = '"' :: (rawKey ++ '"' :: ':' :: ' ' :: (text ++ ',' :: ' ' :: (tail ++ rest))) := by
      simp only [List.cons_append, List.append_assoc]
    have hmembers := ih (n := n + 1) (by rw [List.length_cons] at hn; omega) rest
    obtain ⟨cs, rfl⟩ := hrest.first
    rw [htext, JsonReader.members, hkey.scanString]
    show (JsonReader.value none (n + 1) (JsonReader.skipSpace _) >>= _) = _
    rw [hvalue.skipSpace, hvalue.value]
    show (JsonReader.members none (n + 1) ('"' :: (cs ++ rest)) >>= _) = _
    rw [← List.cons_append, hmembers]
    rfl

theorem WrittenMembers.length_le {text : List Char} {ms : List (List Nat × Value)}
    (h : WrittenMembers text ms) : ms.length ≤ text.length := by
  induction h with
  | last hkey hvalue =>
    simp only [List.length_cons, List.length_append, List.length_nil]
    omega
  | more hkey hvalue hrest ih =>
    simp only [List.length_cons, List.length_append]
    omega

/-- **What was written is read.** -/
theorem loads_object {text : List Char} {ms : List (List Nat × Value)}
    (h : WrittenMembers text ms) : loads ('\x7b' :: text) = some (.object ms) := by
  have hmembers := h.members (Nat.lt_succ_of_le h.length_le) []
  rw [List.append_nil] at hmembers
  have hvalue :
      value none (('\x7b' :: text).length + 1) ('\x7b' :: text) = .ok (.object ms, []) := by
    obtain ⟨cs, rfl⟩ := h.first
    rw [List.length_cons]
    show (members none (('"' :: cs).length + 1) ('"' :: cs)).map _ = _
    rw [hmembers]
    rfl
  have hskip : skipSpace ('\x7b' :: text) = '\x7b' :: text := rfl
  rw [loads, read, hskip, hvalue]
  rfl

/-- A member of an object, as it is written and as it is read. -/
structure Entry where
  rawKey : List Char
  key : List Nat
  text : List Char
  value : Value
  quoted : QuotedAs rawKey key
  reads : ReadsAs text value

/-- How it is written. -/
def Entry.written (entry : Entry) : List Char :=
  '"' :: (entry.rawKey ++ '"' :: ':' :: ' ' :: entry.text)

theorem writtenMembers_entries : ∀ {entries : List Entry}, entries ≠ [] →
    WrittenMembers ([',', ' '].intercalate (entries.map Entry.written) ++ ['\x7d'])
      (entries.map fun entry => (entry.key, entry.value))
  | [], hne => absurd rfl hne
  | [entry], _ => by
    have hlast := WrittenMembers.last entry.quoted entry.reads
    rw [List.map_singleton, List.map_singleton, List.intercalate_singleton, Entry.written]
    simpa only [List.cons_append, List.append_assoc] using hlast
  | entry :: entry' :: entries, _ => by
    have hmore := WrittenMembers.more entry.quoted entry.reads
      (writtenMembers_entries (List.cons_ne_nil entry' entries))
    rw [List.map_cons, List.map_cons, List.map_cons, List.intercalate_cons_cons, Entry.written]
    simpa only [List.map_cons, List.cons_append, List.nil_append, List.append_assoc] using hmore

/-- An object with these members. -/
theorem loads_entries {entries : List Entry} (hne : entries ≠ []) :
    loads ('\x7b' :: ([',', ' '].intercalate (entries.map Entry.written) ++ ['\x7d']))
      = some (.object (entries.map fun entry => (entry.key, entry.value))) :=
  loads_object (writtenMembers_entries hne)

end JsonReader
