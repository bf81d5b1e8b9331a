import Spork.JsonReader
import Mathlib.Data.List.TakeWhile

/-!
# Writing JSON, nested

A value as a writer of JSON takes it, and its text.  Writers differ in which characters they escape
and in the white space behind commas and colons; a `Layout` says so, and carries what makes its
texts readable.

* `value_write`: a written value is read as that value, whatever follows it.
* `read_write`: so a text that is one written value is read back.
* `not_mem_write`: a layout that never writes a line feed writes one line.
-/

set_option autoImplicit false

namespace JsonWriter

open JsonReader (Value Plain ScansAs QuotedAs points points_inj isSpace isDigit skipSpace number
  joinSurrogates utf16)

/-- A value to be written.  A number is given by its spelling. -/
inductive Json where
  | null
  | bool (b : Bool)
  | number (spelling : List Char)
  | string (s : String)
  | array (items : List Json)
  | object (members : List (String × Json))

mutual

/-- What a reader makes of it. -/
def Json.toValue : Json → Value
  | .null => .null
  | .bool b => .bool b
  | .number spelling => .number spelling
  | .string s => .string (points s)
  | .array items => .array (toValues items)
  | .object members => .object (toMembers members)

/-- What a reader makes of the items of an array. -/
def toValues : List Json → List Value
  | [] => []
  | v :: items => v.toValue :: toValues items

/-- What a reader makes of the members of an object. -/
def toMembers : List (String × Json) → List (List Nat × Value)
  | [] => []
  | (key, v) :: members => (points key, v.toValue) :: toMembers members

end

/-! ## Layouts -/

/-- How one character is written, and what stands behind a comma and behind a colon. -/
structure Layout where
  char : Char → List Char
  comma : List Char
  colon : List Char
  scans : ∀ c, ScansAs (char c) (utf16 c) ∨ ScansAs (char c) [c.toNat]
  comma_space : ∀ c ∈ comma, isSpace c = true
  colon_space : ∀ c ∈ colon, isSpace c = true

variable (L : Layout)

/-- A text between quotes. -/
def Layout.quote (s : String) : List Char := '"' :: (s.toList.flatMap L.char ++ ['"'])

mutual

/-- The text of a value. -/
def write : Json → List Char
  | .null => ['n', 'u', 'l', 'l']
  | .bool true => ['t', 'r', 'u', 'e']
  | .bool false => ['f', 'a', 'l', 's', 'e']
  | .number spelling => spelling
  | .string s => L.quote s
  | .array [] => ['[', ']']
  | .array (v :: items) => '[' :: (write v ++ writeItems items)
  | .object [] => ['\x7b', '\x7d']
  | .object ((key, v) :: members) =>
    '\x7b' :: (L.quote key ++ ':' :: (L.colon ++ (write v ++ writeMembers members)))

/-- The rest of an array, behind an item. -/
def writeItems : List Json → List Char
  | [] => [']']
  | v :: items => ',' :: (L.comma ++ (write v ++ writeItems items))

/-- The rest of an object, behind a member. -/
def writeMembers : List (String × Json) → List Char
  | [] => ['\x7d']
  | (key, v) :: members =>
    ',' :: (L.comma ++ (L.quote key ++ ':' :: (L.colon ++ (write v ++ writeMembers members))))

end

/-! ## Which values can be written -/

/-- What may follow a value. -/
def Ends (rest : List Char) : Prop :=
  ∀ c ∈ rest.head?, c = ',' ∨ c = ']' ∨ c = '\x7d' ∨ isSpace c = true

/-- A spelling that is read as a number. -/
structure IsNumber (spelling : List Char) : Prop where
  first : ∃ c cs, spelling = c :: cs ∧ (c = '-' ∨ isDigit c = true)
  solid : ∀ c ∈ spelling, isSpace c = false
  number : ∀ rest, Ends rest → JsonReader.number (spelling ++ rest) = .ok (spelling, rest)

mutual

/-- Every number in it is spelled as a number. -/
def Json.Writable : Json → Prop
  | .number spelling => IsNumber spelling
  | .array items => WritableItems items
  | .object members => WritableMembers members
  | .null | .bool _ | .string _ => True

/-- So it is with items. -/
def WritableItems : List Json → Prop
  | [] => True
  | v :: items => v.Writable ∧ WritableItems items

/-- So it is with members. -/
def WritableMembers : List (String × Json) → Prop
  | [] => True
  | (_, v) :: members => v.Writable ∧ WritableMembers members

end

theorem ends_cons {c : Char} {rest : List Char}
    (h : c = ',' ∨ c = ']' ∨ c = '\x7d' ∨ isSpace c = true) : Ends (c :: rest) := by
  intro c' hc'
  cases hc'
  exact h

/-! ## White space -/

theorem skipSpace_append {spaces : List Char} (h : ∀ c ∈ spaces, isSpace c = true)
    {c : Char} (hc : isSpace c = false) (rest : List Char) :
    skipSpace (spaces ++ c :: rest) = c :: rest := by
  rw [skipSpace, List.dropWhile_append_of_pos h, List.dropWhile_cons_of_neg (by rw [hc]; decide)]

theorem skipSpace_cons {c : Char} (hc : isSpace c = false) (rest : List Char) :
    skipSpace (c :: rest) = c :: rest := List.dropWhile_cons_of_neg (by rw [hc]; decide)

/-- The first character of a value is neither white space nor a bracket that closes an array. -/
theorem first_write {v : Json} (hv : v.Writable) :
    ∃ c cs, write L v = c :: cs ∧ isSpace c = false ∧ c ≠ ']' := by
  cases v with
  | null => exact ⟨_, _, rfl, rfl, by decide⟩
  | bool b => cases b <;> exact ⟨_, _, rfl, rfl, by decide⟩
  | string s => exact ⟨_, _, rfl, rfl, by decide⟩
  | array items => cases items <;> exact ⟨_, _, rfl, rfl, by decide⟩
  | object members =>
    cases members with
    | nil => exact ⟨_, _, rfl, rfl, by decide⟩
    | cons m members => exact ⟨_, _, rfl, rfl, by decide⟩
  | number spelling =>
    obtain ⟨c, cs, rfl, hc⟩ := IsNumber.first hv
    refine ⟨c, cs, rfl, ?_⟩
    rcases hc with rfl | hc
    · decide
    · rw [isDigit, decide_eq_true_eq] at hc
      constructor
      · rw [Bool.eq_false_iff]
        intro hs
        simp only [isSpace, Bool.or_eq_true, beq_iff_eq] at hs
        rcases hs with ((rfl | rfl) | rfl) | rfl <;> revert hc <;> decide
      · rintro rfl
        revert hc
        decide

/-! ## Reading back -/

/-- The units of the characters of a text, however each one is written, are that text. -/
theorem joinSurrogates_flatMap {units : Char → List Nat}
    (h : ∀ c, units c = utf16 c ∨ units c = [c.toNat]) : ∀ cs : List Char,
    joinSurrogates (cs.flatMap units) = cs.map Char.toNat
  | [] => rfl
  | c :: cs => by
    rw [List.flatMap_cons, List.map_cons, ← joinSurrogates_flatMap h cs]
    rcases h c with hc | hc
    · rw [hc, JsonReader.joinSurrogates_utf16]
    · rw [hc]
      refine JsonReader.joinSurrogates_cons _ fun hpair => ?_
      exact JsonReader.not_surrogate c ⟨hpair.1, by omega⟩

theorem Layout.quotedAs (s : String) : QuotedAs (s.toList.flatMap L.char) (points s) := by
  have hunits : ∀ c, ∃ units, (units = utf16 c ∨ units = [c.toNat]) ∧ ScansAs (L.char c) units := by
    intro c
    rcases L.scans c with h | h
    · exact ⟨_, .inl rfl, h⟩
    · exact ⟨_, .inr rfl, h⟩
  choose units hunits hscans using hunits
  exact ⟨_, JsonReader.scansAs_flatMap fun c _ => hscans c, joinSurrogates_flatMap hunits s.toList⟩

theorem Layout.scanString_quote (s : String) (rest : List Char) :
    JsonReader.scanString (s.toList.flatMap L.char ++ '"' :: rest) = some (points s, rest) :=
  (L.quotedAs s).scanString rest

/-- A number is not mistaken for anything else. -/
theorem value_number {spelling rest : List Char} (h : IsNumber spelling) (hrest : Ends rest)
    (n : Nat) :
    JsonReader.value none (n + 1) (spelling ++ rest) = .ok (.number spelling, rest) := by
  have hnumber := h.number rest hrest
  obtain ⟨c, cs, rfl, hc⟩ := h.first
  rw [List.cons_append] at hnumber ⊢
  have hne : c ∉ ['"', '\x7b', '[', 'n', 't', 'f'] := by
    intro hmem
    simp only [List.mem_cons, List.not_mem_nil, or_false] at hmem
    rcases hmem with rfl | rfl | rfl | rfl | rfl | rfl <;> revert hc <;> decide
  rw [JsonReader.value, hnumber]
  · rfl
  all_goals
    intro cs he
    obtain ⟨rfl, -⟩ := List.cons.inj he
    exact hne (by decide)

section Steps

variable {L} {n : Nat} {v : Json} {rest : List Char}

/-- One item, given how its value and the rest of the array are read. -/
theorem items_last (hv : JsonReader.value none n (write L v ++ ']' :: rest)
      = .ok (v.toValue, ']' :: rest)) :
    JsonReader.items none (n + 1) (write L v ++ ']' :: rest) = .ok ([v.toValue], rest) := by
  rw [JsonReader.items, hv]
  rfl

theorem items_more {w : Json} {tail : List Char} {vs : List Value} (hw : w.Writable)
    (hv : JsonReader.value none n (write L v ++ ',' :: (L.comma ++ (write L w ++ tail)))
      = .ok (v.toValue, ',' :: (L.comma ++ (write L w ++ tail))))
    (hmore : JsonReader.items none n (write L w ++ tail) = .ok (vs, rest)) :
    JsonReader.items none (n + 1) (write L v ++ ',' :: (L.comma ++ (write L w ++ tail)))
      = .ok (v.toValue :: vs, rest) := by
  have hskip : skipSpace (L.comma ++ (write L w ++ tail)) = write L w ++ tail := by
    obtain ⟨c, cs, hw, hc, -⟩ := first_write L hw
    rw [hw, List.cons_append]
    exact skipSpace_append L.comma_space hc _
  rw [JsonReader.items, hv]
  show (JsonReader.items none n (skipSpace (L.comma ++ (write L w ++ tail))) >>= _) = _
  rw [hskip, hmore]
  rfl

variable {key : String}

theorem skipSpace_colon (hw : v.Writable) (tail : List Char) :
    skipSpace (L.colon ++ (write L v ++ tail)) = write L v ++ tail := by
  obtain ⟨c, cs, hv, hc, -⟩ := first_write L hw
  rw [hv, List.cons_append]
  exact skipSpace_append L.colon_space hc _

theorem quote_append (tail : List Char) :
    L.quote key ++ tail = '"' :: (key.toList.flatMap L.char ++ '"' :: tail) := by
  rw [Layout.quote, List.cons_append, List.append_assoc, List.singleton_append]

/-- A member, given how its value is read. -/
theorem members_last (hw : v.Writable)
    (hv : JsonReader.value none n (write L v ++ '\x7d' :: rest) = .ok (v.toValue, '\x7d' :: rest)) :
    JsonReader.members none (n + 1)
        (L.quote key ++ ':' :: (L.colon ++ (write L v ++ '\x7d' :: rest)))
      = .ok ([(points key, v.toValue)], rest) := by
  rw [quote_append, JsonReader.members, L.scanString_quote]
  show (JsonReader.value none n (skipSpace _) >>= _) = _
  rw [skipSpace_colon hw, hv]
  rfl

theorem members_more {key' : String} {tail : List Char} {ms : List (List Nat × Value)}
    (hw : v.Writable)
    (hv : JsonReader.value none n (write L v ++ ',' :: (L.comma ++ (L.quote key' ++ tail)))
      = .ok (v.toValue, ',' :: (L.comma ++ (L.quote key' ++ tail))))
    (hmore : JsonReader.members none n (L.quote key' ++ tail) = .ok (ms, rest)) :
    JsonReader.members none (n + 1)
        (L.quote key ++
          ':' :: (L.colon ++ (write L v ++ ',' :: (L.comma ++ (L.quote key' ++ tail)))))
      = .ok ((points key, v.toValue) :: ms, rest) := by
  have hskip : skipSpace (L.comma ++ (L.quote key' ++ tail)) = L.quote key' ++ tail := by
    rw [quote_append]
    exact skipSpace_append L.comma_space rfl _
  rw [quote_append, JsonReader.members, L.scanString_quote]
  show (JsonReader.value none n (skipSpace _) >>= _) = _
  rw [skipSpace_colon hw, hv]
  show (JsonReader.members none n (skipSpace (L.comma ++ (L.quote key' ++ tail))) >>= _) = _
  rw [hskip, hmore]
  rfl

end Steps

/-! ### Enough fuel -/

/-- An array that is not empty. -/
theorem value_array {c : Char} {cs : List Char} (hc : isSpace c = false) (hbracket : c ≠ ']')
    (n : Nat) : JsonReader.value none (n + 1) ('[' :: c :: cs)
      = (JsonReader.items none n (c :: cs)).map fun found => (.array found.1, found.2) := by
  rw [JsonReader.value, skipSpace_cons hc]
  split
  · next he => exact absurd (List.cons.inj he).1 hbracket
  · rfl

mutual

/-- **A written value is read as that value**, whatever follows it. -/
theorem value_write : ∀ {v : Json}, v.Writable → ∀ {n : Nat} {rest : List Char},
    (write L v).length ≤ n → Ends rest →
      JsonReader.value none n (write L v ++ rest) = .ok (v.toValue, rest)
  | .null, _, n + 1, rest, _, _ => rfl
  | .bool true, _, n + 1, rest, _, _ => rfl
  | .bool false, _, n + 1, rest, _, _ => rfl
  | .number spelling, hv, 0, rest, hn, _ => by
    obtain ⟨c, cs, rfl, -⟩ := IsNumber.first hv
    exact absurd hn (Nat.not_succ_le_zero _)
  | .number spelling, hv, n + 1, rest, _, hrest => value_number hv hrest n
  | .string s, _, n + 1, rest, _, _ => by
    rw [write, quote_append, JsonReader.value, L.scanString_quote]
    rfl
  | .array [], _, n + 1, rest, _, _ => rfl
  | .array (v :: items), hv, n + 1, rest, hn, _ => by
    have hitems := @items_write v items hv n rest
      (by simpa only [write, List.length_cons, Nat.add_le_add_iff_right] using hn)
    obtain ⟨c, cs, hw, hc, hbracket⟩ := first_write L hv.1
    rw [write, List.cons_append, List.append_assoc]
    rw [hw, List.cons_append] at hitems ⊢
    rw [value_array hc hbracket, hitems]
    rfl
  | .object [], _, n + 1, rest, _, _ => rfl
  | .object ((key, v) :: members), hv, n + 1, rest, hn, _ => by
    have hmembers := @members_write key v members hv n rest
      (by simpa only [write, List.length_cons, Nat.add_le_add_iff_right] using hn)
    rw [write, List.cons_append, List.append_assoc, List.cons_append, List.append_assoc,
      List.append_assoc]
    rw [quote_append] at hmembers ⊢
    show (JsonReader.members none n _).map _ = _
    rw [hmembers]
    rfl
termination_by v => sizeOf v

/-- The items of an array, up to the closing bracket. -/
theorem items_write : ∀ {v : Json} {items : List Json}, WritableItems (v :: items) →
    ∀ {n : Nat} {rest : List Char}, (write L v ++ writeItems L items).length ≤ n →
      JsonReader.items none n (write L v ++ (writeItems L items ++ rest))
        = .ok (toValues (v :: items), rest)
  | v, [], hv, n, rest, hn => by
    rw [writeItems, List.length_append, List.length_singleton] at hn
    obtain ⟨n, rfl⟩ : ∃ m, n = m + 1 := ⟨n - 1, by omega⟩
    exact items_last (value_write hv.1 (by omega) (ends_cons (by simp)))
  | v, w :: items, hv, n, rest, hn => by
    rw [writeItems] at hn ⊢
    simp only [List.length_append, List.length_cons] at hn
    obtain ⟨n, rfl⟩ : ∃ m, n = m + 1 := ⟨n - 1, by omega⟩
    have hmore := @items_write w items hv.2 n rest
      (by rw [List.length_append]; omega)
    simp only [List.cons_append, List.append_assoc]
    exact items_more hv.2.1 (value_write hv.1 (by omega) (ends_cons (by simp))) hmore
termination_by v items => sizeOf (v :: items)

/-- The members of an object, up to the closing brace. -/
theorem members_write : ∀ {key : String} {v : Json} {members : List (String × Json)},
    WritableMembers ((key, v) :: members) → ∀ {n : Nat} {rest : List Char},
      (L.quote key ++ ':' :: (L.colon ++ (write L v ++ writeMembers L members))).length ≤ n →
      JsonReader.members none n
          (L.quote key ++ ':' :: (L.colon ++ (write L v ++ (writeMembers L members ++ rest))))
        = .ok (toMembers ((key, v) :: members), rest)
  | key, v, [], hv, n, rest, hn => by
    rw [writeMembers] at hn ⊢
    simp only [List.length_append, List.length_cons] at hn
    obtain ⟨n, rfl⟩ : ∃ m, n = m + 1 := ⟨n - 1, by omega⟩
    exact members_last hv.1 (value_write hv.1 (by omega) (ends_cons (by simp)))
  | key, v, (key', w) :: members, hv, n, rest, hn => by
    rw [writeMembers] at hn ⊢
    simp only [List.length_append, List.length_cons] at hn
    obtain ⟨n, rfl⟩ : ∃ m, n = m + 1 := ⟨n - 1, by omega⟩
    have hmore := @members_write key' w members hv.2 n rest
      (by simp only [List.length_append, List.length_cons]; omega)
    simp only [List.cons_append, List.append_assoc]
    exact members_more hv.1 (value_write hv.1 (by omega) (ends_cons (by simp))) hmore
termination_by key v members => sizeOf ((key, v) :: members)

end

/-- **What was written is read**, with white space behind it. -/
theorem read_write_append {v : Json} (hv : v.Writable) {spaces : List Char}
    (hspaces : ∀ c ∈ spaces, isSpace c = true) :
    JsonReader.read none (write L v ++ spaces) = .ok v.toValue := by
  have hends : Ends spaces := fun c hc =>
    .inr (.inr (.inr (hspaces c (List.mem_of_head? hc))))
  have hlength : (write L v).length ≤ (write L v ++ spaces).length + 1 := by
    rw [List.length_append]
    omega
  have hvalue := value_write L hv hlength hends
  have hskip : skipSpace (write L v ++ spaces) = write L v ++ spaces := by
    obtain ⟨c, cs, hw, hc, -⟩ := first_write L hv
    rw [hw, List.cons_append, skipSpace_cons hc]
  have hrest : skipSpace spaces = [] := List.dropWhile_eq_nil_iff.2 hspaces
  rw [JsonReader.read, hskip, hvalue]
  dsimp only
  rw [if_pos hrest]

/-- **What was written is read.** -/
theorem read_write {v : Json} (hv : v.Writable) :
    JsonReader.read none (write L v) = .ok v.toValue := by
  have h := @read_write_append L v hv [] nofun
  rwa [List.append_nil] at h

/-! ## Reading as the values that can be written -/

/-- A character, by its code point. -/
def charOf (point : Nat) : Option Char :=
  if point.isValidChar then some (Char.ofNat point) else none

/-- A text, by its code points, if none of them is half of a surrogate pair. -/
def textOf (ps : List Nat) : Option String := (ps.mapM charOf).map String.ofList

mutual

/-- A value without halves of surrogate pairs. -/
def ofValue : Value → Option Json
  | .null => some .null
  | .bool b => some (.bool b)
  | .number spelling => some (.number spelling)
  | .string ps => (textOf ps).map .string
  | .array items => (ofValues items).map .array
  | .object members => (ofMembers members).map .object

/-- So it is with items. -/
def ofValues : List Value → Option (List Json)
  | [] => some []
  | v :: items => do
    let v ← ofValue v
    let items ← ofValues items
    some (v :: items)

/-- So it is with members. -/
def ofMembers : List (List Nat × Value) → Option (List (String × Json))
  | [] => some []
  | (key, v) :: members => do
    let key ← textOf key
    let v ← ofValue v
    let members ← ofMembers members
    some ((key, v) :: members)

end

theorem charOf_toNat (c : Char) : charOf c.toNat = some c := by
  rw [charOf, if_pos (show c.toNat.isValidChar from c.valid), Char.ofNat_toNat]

@[simp] theorem textOf_points (s : String) : textOf (points s) = some s := by
  have hmap : ∀ cs : List Char, (cs.map Char.toNat).mapM charOf = some cs := by
    intro cs
    induction cs with
    | nil => rfl
    | cons c cs ih => rw [List.map_cons, List.mapM_cons, charOf_toNat, ih]; rfl
  rw [textOf, points, hmap, Option.map_some, String.ofList_toList]

mutual

@[simp] theorem ofValue_toValue : ∀ v : Json, ofValue v.toValue = some v
  | .null => rfl
  | .bool _ => rfl
  | .number _ => rfl
  | .string s => by rw [Json.toValue, ofValue, textOf_points, Option.map_some]
  | .array items => by rw [Json.toValue, ofValue, ofValues_toValues, Option.map_some]
  | .object members => by rw [Json.toValue, ofValue, ofMembers_toMembers, Option.map_some]

@[simp] theorem ofValues_toValues : ∀ items : List Json, ofValues (toValues items) = some items
  | [] => rfl
  | v :: items => by rw [toValues, ofValues, ofValue_toValue, ofValues_toValues]; rfl

@[simp] theorem ofMembers_toMembers : ∀ members : List (String × Json),
    ofMembers (toMembers members) = some members
  | [] => rfl
  | (key, v) :: members => by
    rw [toMembers, ofMembers, textOf_points, ofValue_toValue, ofMembers_toMembers]
    rfl

end

/-! ## One line -/

variable {L} in
/-- A layout that never writes a line feed. -/
structure Layout.OneLine (L : Layout) : Prop where
  char : ∀ c, '\n' ∉ L.char c
  comma : '\n' ∉ L.comma
  colon : '\n' ∉ L.colon

section OneLine

variable {L} (h : L.OneLine)

include h

theorem Layout.OneLine.quote (s : String) : '\n' ∉ L.quote s := by
  simp only [Layout.quote, List.mem_cons, List.mem_append, List.mem_flatMap, List.not_mem_nil,
    or_false, not_or, not_exists, not_and]
  exact ⟨by decide, fun c _ => h.char c, by decide⟩

mutual

theorem not_mem_write : ∀ {v : Json}, v.Writable → '\n' ∉ write L v
  | .null, _ => by simp [write]
  | .bool b, _ => by cases b <;> simp [write]
  | .number spelling, hv => fun hmem => by
    have hspace := IsNumber.solid hv _ hmem
    revert hspace
    decide
  | .string s, _ => h.quote s
  | .array [], _ => by simp [write]
  | .array (v :: items), hv => by
    simp [write, not_mem_write hv.1, not_mem_writeItems hv.2]
  | .object [], _ => by simp [write]
  | .object ((key, v) :: members), hv => by
    simp [write, h.quote key, h.colon, not_mem_write hv.1, not_mem_writeMembers hv.2]

theorem not_mem_writeItems : ∀ {items : List Json}, WritableItems items →
    '\n' ∉ writeItems L items
  | [], _ => by simp [writeItems]
  | v :: items, hv => by
    simp [writeItems, h.comma, not_mem_write hv.1, not_mem_writeItems hv.2]

theorem not_mem_writeMembers : ∀ {members : List (String × Json)}, WritableMembers members →
    '\n' ∉ writeMembers L members
  | [], _ => by simp [writeMembers]
  | (key, v) :: members, hv => by
    simp [writeMembers, h.comma, h.quote key, h.colon, not_mem_write hv.1,
      not_mem_writeMembers hv.2]

end

end OneLine

/-! ## Integers -/

/-- The spelling of an integer. -/
def spellInt (n : Int) : List Char :=
  (if n < 0 then ['-'] else []) ++ Nat.toDigits 10 n.natAbs

theorem isDigit_of_mem_toDigits {n : Nat} {c : Char} (h : c ∈ Nat.toDigits 10 n) :
    isDigit c = true := by
  have hc := Nat.isDigit_of_mem_toDigits (by decide) (by decide) h
  rw [isDigit, decide_eq_true_eq]
  rw [Char.isDigit, Bool.and_eq_true, decide_eq_true_eq, decide_eq_true_eq] at hc
  exact hc

theorem digitChar_ne_zero : ∀ d < 10, d ≠ 0 → Nat.digitChar d ≠ '0' := by decide

/-- There is no leading zero. -/
theorem eq_zero_of_toDigits {n : Nat} {cs : List Char} (h : Nat.toDigits 10 n = '0' :: cs) :
    n = 0 := by
  induction n using Nat.strongRecOn generalizing cs with
  | _ n ih =>
    rcases Nat.lt_or_ge n 10 with hn | hn
    · rw [Nat.toDigits_of_lt_base hn] at h
      by_contra hzero
      exact digitChar_ne_zero n hn hzero (List.cons.inj h).1
    · rw [Nat.toDigits_of_base_le (by decide) hn] at h
      cases hd : Nat.toDigits 10 (n / 10) with
      | nil => exact absurd hd Nat.toDigits_ne_nil
      | cons c ds =>
        rw [hd] at h
        obtain ⟨rfl, -⟩ := List.cons.inj h
        have hzero := ih (n / 10) (by omega) hd
        omega

section Rest

variable {rest : List Char} (hrest : Ends rest)

include hrest

theorem isDigit_head_ends : ∀ c ∈ rest.head?, isDigit c = false := by
  intro c hc
  rcases hrest c hc with rfl | rfl | rfl | hspace
  · decide
  · decide
  · decide
  · simp only [isSpace, Bool.or_eq_true, beq_iff_eq] at hspace
    rcases hspace with ((rfl | rfl) | rfl) | rfl <;> decide

theorem takeWhile_digits {ds : List Char} (hds : ∀ c ∈ ds, isDigit c = true) :
    (ds ++ rest).takeWhile isDigit = ds := by
  rw [List.takeWhile_append_of_pos hds]
  cases rest with
  | nil => exact List.append_nil ds
  | cons c rest =>
    rw [List.takeWhile_cons_of_neg (by rw [isDigit_head_ends hrest c rfl]; decide),
      List.append_nil]

theorem dropWhile_digits {ds : List Char} (hds : ∀ c ∈ ds, isDigit c = true) :
    (ds ++ rest).dropWhile isDigit = rest := by
  rw [List.dropWhile_append_of_pos hds]
  cases rest with
  | nil => rfl
  | cons c rest =>
    rw [List.dropWhile_cons_of_neg (by rw [isDigit_head_ends hrest c rfl]; decide)]

theorem fraction_ends : JsonReader.fraction rest = ([], rest) := by
  rw [JsonReader.fraction.eq_def]
  split
  · exact absurd (hrest '.' rfl) (by decide)
  · rfl

theorem exponent_ends : JsonReader.exponent rest = ([], rest) := by
  cases rest with
  | nil => rfl
  | cons c rest =>
    have hc : ¬(c = 'e' ∨ c = 'E') := by
      rintro (rfl | rfl)
      · exact absurd (hrest 'e' rfl) (by decide)
      · exact absurd (hrest 'E' rfl) (by decide)
    rw [JsonReader.exponent.eq_def]
    dsimp only
    split <;> exact if_neg fun h => hc h.1

end Rest

/-- The digits before the point: a zero stands alone. -/
def whole : List Char → List Char × List Char
  | '0' :: cs => (['0'], cs)
  | cs => (cs.takeWhile isDigit, cs.dropWhile isDigit)

/-- What `number` does behind the sign. -/
def unsigned (sign cs : List Char) : Except JsonReader.Error (List Char × List Char) :=
  if "NaN".toList <+: cs ∧ sign = [] then .ok ("NaN".toList, cs.drop 3)
  else if "Infinity".toList <+: cs then .ok (sign ++ "Infinity".toList, cs.drop 8)
  else
    let (whole, cs) := whole cs
    if whole = [] then .error .decode
    else
      let (fraction, cs) := JsonReader.fraction cs
      let (exponent, cs) := JsonReader.exponent cs
      if fraction = [] ∧ exponent = [] ∧ 4300 < whole.length then .error .tooManyDigits
      else .ok (sign ++ whole ++ fraction ++ exponent, cs)

theorem number_plus {c : Char} (hc : c ≠ '-') (cs : List Char) :
    number (c :: cs) = unsigned [] (c :: cs) := by
  rw [JsonReader.number.eq_def]
  split
  next he =>
    split at he
    · next h => exact absurd (List.cons.inj h).1 hc
    · obtain ⟨rfl, rfl⟩ := Prod.mk.inj he
      rfl

section Digits

variable {ds rest : List Char} (hne : ds ≠ []) (hds : ∀ c ∈ ds, isDigit c = true)
  (hzero : ∀ cs, ds = '0' :: cs → cs = []) (hlen : ds.length ≤ 4300) (hrest : Ends rest)

include hds hzero hrest in
theorem whole_digits : whole (ds ++ rest) = (ds, rest) := by
  rw [whole.eq_def]
  split
  · next cs he =>
    cases ds with
    | nil =>
      rw [List.nil_append] at he
      exact absurd (hrest '0' (by rw [he]; rfl)) (by decide)
    | cons d ds =>
      obtain ⟨rfl, rfl⟩ := List.cons.inj he
      rw [hzero ds rfl]
      rfl
  · rw [takeWhile_digits hrest hds, dropWhile_digits hrest hds]

include hne hds hzero hlen hrest in
theorem unsigned_digits (sign : List Char) :
    unsigned sign (ds ++ rest) = .ok (sign ++ ds, rest) := by
  have hnot : ∀ word, word = "NaN".toList ∨ word = "Infinity".toList → ¬word <+: ds ++ rest := by
    obtain ⟨d, ds, rfl⟩ := List.exists_cons_of_ne_nil hne
    have hd := hds d List.mem_cons_self
    rintro word (rfl | rfl) ⟨t, ht⟩ <;>
    · obtain ⟨rfl, -⟩ := List.cons.inj ht
      revert hd
      decide
  rw [unsigned, if_neg fun h => hnot _ (.inl rfl) h.1, if_neg (hnot _ (.inr rfl)),
    whole_digits hds hzero hrest]
  dsimp only
  rw [if_neg hne, fraction_ends hrest]
  dsimp only
  rw [exponent_ends hrest]
  dsimp only
  rw [if_neg (fun h => Nat.not_lt.2 hlen h.2.2), List.append_nil, List.append_nil]

end Digits

theorem not_isSpace_of_isDigit {c : Char} (hc : isDigit c = true) : isSpace c = false := by
  rw [Bool.eq_false_iff]
  intro hs
  simp only [isSpace, Bool.or_eq_true, beq_iff_eq] at hs
  rcases hs with ((rfl | rfl) | rfl) | rfl <;> revert hc <;> decide

/-- **An integer of at most 4300 digits is read as it is spelled.** -/
theorem isNumber_spellInt {n : Int} (hlen : (Nat.toDigits 10 n.natAbs).length ≤ 4300) :
    IsNumber (spellInt n) := by
  have hds : ∀ c ∈ Nat.toDigits 10 n.natAbs, isDigit c = true := fun c => isDigit_of_mem_toDigits
  have hzero : ∀ cs, Nat.toDigits 10 n.natAbs = '0' :: cs → cs = [] := by
    intro cs h
    rw [eq_zero_of_toDigits h, Nat.toDigits_zero] at h
    exact (List.cons.inj h).2.symm
  have hdigits := fun sign rest (hrest : Ends rest) =>
    unsigned_digits Nat.toDigits_ne_nil hds hzero hlen hrest sign
  obtain ⟨d, ds, hcons⟩ :=
    List.exists_cons_of_ne_nil (Nat.toDigits_ne_nil (n := n.natAbs) (b := 10))
  have hd : isDigit d = true := hds d (by rw [hcons]; exact List.mem_cons_self)
  have hspace : ∀ c, c = '-' ∨ isDigit c = true → isSpace c = false := by
    rintro c (rfl | hc)
    · decide
    · exact not_isSpace_of_isDigit hc
  rw [spellInt]
  split
  · refine ⟨⟨_, _, rfl, .inl rfl⟩, ?_, fun rest hrest => hdigits ['-'] rest hrest⟩
    rintro c (_ | ⟨_, hc⟩)
    · decide
    · exact hspace c (.inr (hds c hc))
  · rw [List.nil_append]
    refine ⟨⟨d, ds, hcons, .inr hd⟩, fun c hc => hspace c (.inr (hds c hc)), fun rest hrest => ?_⟩
    have hminus : d ≠ '-' := by
      rintro rfl
      revert hd
      decide
    rw [hcons, List.cons_append, number_plus hminus, ← List.cons_append, ← hcons]
    exact hdigits [] rest hrest

/-- An integer. -/
def Json.int (n : Int) : Json := .number (spellInt n)

end JsonWriter
