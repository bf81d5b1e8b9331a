import Spork.Toml.Document
import Mathlib.Data.List.Nodup

/-!
# TOML: reading back what was printed

A printer writes values in a small part of the language: booleans, basic strings on one line,
arrays, inline tables with bare keys, and a document of `[[name]]` blocks.  This file runs the
parser on such text, one lemma for each kind of piece, always with whatever follows the piece left
open.

The printer escapes quotes and backslashes and nothing else, so a string with a control character in
it comes out as text that is not TOML.  Every lemma therefore has two outcomes (`outcome`): a piece
is *legal* if none of its strings has such a character, and then its value is read back; otherwise
the document is rejected for an illegal character.

`Printed` carries a text together with the value it stands for and the proof of that, so a printer
is verified by building its output out of these.
-/

set_option autoImplicit false

namespace Toml

/-! ## Outcomes -/

/-- What parsing a printed piece comes to. -/
def outcome {α : Type} (legal : Bool) (a : α) : Result α :=
  if legal then .ok a else .error .illegalCharacter

@[simp] theorem outcome_true {α : Type} (a : α) : outcome true a = .ok a := rfl

theorem ok_bind {α β : Type} (a : α) (f : α → Result β) : (Except.ok a >>= f) = f a := rfl

/-- One piece after the other. -/
theorem outcome_bind {α β : Type} {legal legal' : Bool} {a : α} {b : β} {f : α → Result β}
    (h : f a = outcome legal' b) : (outcome legal a >>= f) = outcome (legal && legal') b := by
  cases legal with
  | true => exact h
  | false => rfl

/-- A step that does not fail. -/
theorem outcome_map {α β : Type} {legal : Bool} {a : α} {b : β} {f : α → Result β}
    (h : f a = .ok b) : (outcome legal a >>= f) = outcome legal b := by
  have hb : f a = outcome true b := h
  rw [outcome_bind hb, Bool.and_true]

/-! ## Strings -/

/-- A character of a basic string, escaped if it has to be. -/
def escapeChar (c : Char) : List Char := if c = '\\' ∨ c = '"' then ['\\', c] else [c]

/-- A basic string. -/
def quoted (s : String) : List Char := '"' :: s.toList.flatMap escapeChar ++ ['"']

/-- No character of the text is illegal in a string. -/
def isLegal (s : String) : Bool := s.toList.all fun c => !isIllegal c

theorem parseBasicStr_quote (n : Nat) (cs : List Char) :
    parseBasicStr false (n + 1) ('"' :: cs) = .ok ([], cs) := by
  rw [parseBasicStr.eq_def]
  rfl

theorem parseBasicStr_escape {e x : Char} (hu : ¬(e = 'u' ∨ e = 'U'))
    (hx : escapeReplacement e = some x) (n : Nat) (cs : List Char) :
    parseBasicStr false (n + 1) ('\\' :: e :: cs) =
      parseBasicStr false n cs >>= fun p => .ok (x :: p.1, p.2) := by
  rw [parseBasicStr.eq_def]
  simp only [hu, hx, if_false, Bool.false_eq_true, false_and]
  rfl

theorem parseBasicStr_char {c : Char} (hq : c ≠ '"') (hb : c ≠ '\\') (n : Nat) (cs : List Char) :
    parseBasicStr false (n + 1) (c :: cs) =
      outcome (!isIllegal c) () >>= fun _ =>
        parseBasicStr false n cs >>= fun p => .ok (c :: p.1, p.2) := by
  rw [parseBasicStr.eq_def]
  simp only [hq, hb, if_false, Bool.false_eq_true]
  cases isIllegal c <;> rfl

theorem parseBasicStr_escaped (rest : List Char) : ∀ (cs : List Char) (n : Nat), cs.length < n →
    parseBasicStr false n (cs.flatMap escapeChar ++ '"' :: rest) =
      outcome (cs.all fun c => !isIllegal c) (cs, rest)
  | [], n + 1, _ => parseBasicStr_quote n rest
  | c :: cs, n + 1, h => by
    have ih := parseBasicStr_escaped rest cs n (Nat.lt_of_succ_lt_succ h)
    rw [List.flatMap_cons, List.append_assoc, List.all_cons, escapeChar]
    split
    · rename_i hc
      have hl : (!isIllegal c) = true := by rcases hc with rfl | rfl <;> decide
      have he : escapeReplacement c = some c := by rcases hc with rfl | rfl <;> decide
      have hu : ¬(c = 'u' ∨ c = 'U') := by rcases hc with rfl | rfl <;> decide
      rw [List.cons_append, List.cons_append, List.nil_append, parseBasicStr_escape hu he, ih, hl,
        Bool.true_and]
      exact outcome_map rfl
    · rename_i hc
      rw [List.cons_append, List.nil_append, parseBasicStr_char (fun h => hc (.inr h))
        (fun h => hc (.inl h)), ih]
      exact outcome_bind (outcome_map rfl)

theorem length_flatMap_escapeChar (cs : List Char) :
    cs.length ≤ (cs.flatMap escapeChar).length := by
  induction cs with
  | nil => exact Nat.le_refl 0
  | cons c cs ih =>
    have h : 1 ≤ (escapeChar c).length := by rw [escapeChar]; split <;> simp
    simp only [List.flatMap_cons, List.length_append, List.length_cons]
    omega

theorem parseOneLineBasicStr_escaped (s : String) (rest : List Char) :
    parseOneLineBasicStr (s.toList.flatMap escapeChar ++ '"' :: rest) =
      outcome (isLegal s) (s, rest) := by
  have hn : s.toList.length < (s.toList.flatMap escapeChar ++ '"' :: rest).length + 1 := by
    have := length_flatMap_escapeChar s.toList
    simp only [List.length_append]
    omega
  rw [parseOneLineBasicStr, parseBasicStr_escaped rest s.toList _ hn]
  exact outcome_map (by simp only [String.ofList_toList])

/-- What is between the quotes starts with a quote only if nothing is. -/
theorem isPrefixOf_escaped (cs : List Char) {rest : List Char} (h : rest.head? ≠ some '"') :
    ['"', '"'].isPrefixOf (cs.flatMap escapeChar ++ '"' :: rest) = false := by
  cases cs with
  | nil =>
    cases rest with
    | nil => rfl
    | cons c cs =>
      have hc : '"' ≠ c := fun hc => h (by rw [hc]; rfl)
      simp [List.isPrefixOf, hc]
  | cons c cs =>
    rw [List.flatMap_cons, escapeChar]
    split
    · rfl
    · rename_i hc
      have hc : '"' ≠ c := fun h => hc (.inr h.symm)
      simp [List.isPrefixOf, hc]

/-- A basic string is read back, unless another quote follows it at once. -/
theorem parseString_quoted (s : String) {rest : List Char} (h : rest.head? ≠ some '"') :
    parseString '"' (s.toList.flatMap escapeChar ++ '"' :: rest) =
      outcome (isLegal s) (.string s, rest) := by
  rw [parseString, isPrefixOf_escaped _ h, if_neg (by decide), if_pos rfl,
    parseOneLineBasicStr_escaped]
  exact outcome_map rfl

/-! ## Values -/

/-- The characters that a printed value starts with. -/
def opensValue (c : Char) : Bool := c == '"' || c == 't' || c == 'f' || c == '[' || c == '{'

theorem not_isSpace_of_opensValue {c : Char} (h : opensValue c = true) : isSpace c = false := by
  simp only [opensValue, Bool.or_eq_true, beq_iff_eq, or_assoc] at h
  rcases h with rfl | rfl | rfl | rfl | rfl <;> rfl

theorem not_isBlank_of_opensValue {c : Char} (h : opensValue c = true) : isBlank c = false :=
  (Bool.or_eq_false_iff.1 (not_isSpace_of_opensValue h)).1

theorem ne_of_opensValue {c d : Char} (hc : opensValue c = true) (hd : opensValue d = false) :
    c ≠ d := by
  rintro rfl
  exact Bool.false_ne_true (hd.symm.trans hc)

/-- A printed value: its text, the value it stands for, and whether it is legal. -/
structure Printed where
  text : List Char
  value : Value
  legal : Bool
  starts : ∃ c cs, text = c :: cs ∧ opensValue c = true
  reads : ∀ (n : Nat) (brackets rest : List Char), text.length < n → rest.head? ≠ some '"' →
    parseValue .enough n brackets (text ++ rest) = outcome legal (value, rest)

/-- `true` or `false`. -/
def Printed.boolean (b : Bool) : Printed where
  text := if b then ['t', 'r', 'u', 'e'] else ['f', 'a', 'l', 's', 'e']
  value := .boolean b
  legal := true
  starts := by cases b <;> exact ⟨_, _, rfl, rfl⟩
  reads := by
    intro n brackets rest hn _
    cases n with
    | zero => exact absurd hn (Nat.not_lt_zero _)
    | succ n => cases b <;> simp [parseValue]

/-- A basic string. -/
def Printed.string (s : String) : Printed where
  text := quoted s
  value := .string s
  legal := isLegal s
  starts := ⟨_, _, rfl, rfl⟩
  reads := by
    intro n brackets rest hn hr
    cases n with
    | zero => exact absurd hn (Nat.not_lt_zero _)
    | succ n =>
      rw [quoted, List.cons_append, List.cons_append, List.append_assoc, List.cons_append,
        List.nil_append, parseValue, if_pos (.inl rfl), parseString_quoted s hr]

/-! ### Arrays -/

theorem skipComment_of_ne {c : Char} (hc : c ≠ '#') (cs : List Char) :
    skipComment (c :: cs) = .ok (c :: cs) := by
  rw [skipComment.eq_def]
  split
  · rename_i he
    exact absurd (List.cons.inj he).1 hc
  · rfl

/-- Nothing to skip. -/
theorem skipCommentsAndSpaces_self {c : Char} (hs : isSpace c = false) (hc : c ≠ '#') (n : Nat)
    (cs : List Char) : skipCommentsAndSpaces (n + 1) (c :: cs) = .ok (c :: cs) := by
  rw [skipCommentsAndSpaces, List.dropWhile_cons_of_neg (by simp [hs]), skipComment_of_ne hc]
  exact if_pos rfl

/-- One blank to skip. -/
theorem skipCommentsAndSpaces_blank {c : Char} (hs : isSpace c = false) (hc : c ≠ '#') (n : Nat)
    (cs : List Char) : skipCommentsAndSpaces (n + 2) (' ' :: c :: cs) = .ok (c :: cs) := by
  rw [skipCommentsAndSpaces, List.dropWhile_cons_of_pos (by decide),
    List.dropWhile_cons_of_neg (by simp [hs]), skipComment_of_ne hc]
  exact (if_neg (by simp)).trans (skipCommentsAndSpaces_self hs hc n cs)

/-- The items of an array. -/
def itemsText (ps : List Printed) : List Char := [',', ' '].intercalate (ps.map Printed.text)

theorem itemsText_cons_cons (p q : Printed) (ps : List Printed) :
    itemsText (p :: q :: ps) = p.text ++ ',' :: ' ' :: itemsText (q :: ps) := by
  simp only [itemsText, List.map_cons, List.intercalate_cons_cons, List.append_assoc,
    List.cons_append, List.nil_append]

theorem itemsText_starts (p : Printed) (ps : List Printed) :
    ∃ c cs, itemsText (p :: ps) = c :: cs ∧ opensValue c = true := by
  obtain ⟨c, cs, hc, ho⟩ := p.starts
  cases ps with
  | nil => exact ⟨c, cs, by simp [itemsText, hc], ho⟩
  | cons q ps => exact ⟨c, _, by rw [itemsText_cons_cons, hc]; rfl, ho⟩

theorem parseItems_last {n : Nat} {brackets cs rest : List Char} {legal : Bool} {v : Value}
    (hv : parseValue .enough n brackets cs = outcome legal (v, ']' :: rest)) :
    parseItems .enough (n + 1) brackets cs = outcome legal ([v], rest) := by
  rw [parseItems, hv]
  refine outcome_map ?_
  simp only [List.length_cons]
  rw [skipCommentsAndSpaces_self (by decide) (by decide)]
  rfl

theorem parseItems_more {n : Nat} {brackets cs ds rest : List Char} {c : Char} {legal legal' : Bool}
    {v : Value} {vs : List Value} (hc : opensValue c = true)
    (hv : parseValue .enough n brackets cs = outcome legal (v, ',' :: ' ' :: c :: ds))
    (hvs : parseItems .enough n brackets (c :: ds) = outcome legal' (vs, rest)) :
    parseItems .enough (n + 1) brackets cs = outcome (legal && legal') (v :: vs, rest) := by
  have hs := not_isSpace_of_opensValue hc
  have hh : c ≠ '#' := ne_of_opensValue hc rfl
  have hb : c ≠ ']' := ne_of_opensValue hc rfl
  rw [parseItems, hv]
  refine outcome_bind ?_
  simp only [List.length_cons]
  rw [skipCommentsAndSpaces_self (by decide) (by decide)]
  simp only [ok_bind, List.length_cons]
  rw [skipCommentsAndSpaces_blank hs hh]
  simp only [ok_bind]
  split
  · rename_i he
    exact absurd (List.cons.inj he).1 hb
  · rw [hvs]
    exact outcome_map rfl

/-- The items of an array are read back, with its closing bracket. -/
theorem parseItems_text (brackets rest : List Char) : ∀ (p : Printed) (ps : List Printed) (n : Nat),
    (itemsText (p :: ps)).length + 1 < n →
    parseItems .enough n brackets (itemsText (p :: ps) ++ ']' :: rest) =
      outcome ((p :: ps).all Printed.legal) ((p :: ps).map Printed.value, rest)
  | p, [], n + 1, h => by
    have ht : itemsText [p] = p.text := by simp [itemsText]
    rw [ht] at h ⊢
    have hr := p.reads n brackets (']' :: rest) (by omega) (by simp)
    rw [parseItems_last hr]
    simp
  | p, q :: ps, n + 1, h => by
    rw [itemsText_cons_cons, List.length_append, List.length_cons, List.length_cons] at h
    obtain ⟨c, ds, hc, ho⟩ := itemsText_starts q ps
    have hr := p.reads n brackets (',' :: ' ' :: itemsText (q :: ps) ++ ']' :: rest) (by omega)
      (by simp)
    have ih := parseItems_text brackets rest q ps n (by omega)
    rw [hc] at hr ih
    rw [itemsText_cons_cons, hc, List.append_assoc, parseItems_more ho hr ih]
    rfl

/-- An array of printed values. -/
def Printed.array (ps : List Printed) : Printed where
  text := '[' :: itemsText ps ++ [']']
  value := .array (ps.map Printed.value)
  legal := ps.all Printed.legal
  starts := ⟨_, _, rfl, rfl⟩
  reads := by
    intro n brackets rest hn _
    rw [List.length_append, List.length_cons, List.length_singleton] at hn
    cases n with
    | zero => exact absurd hn (Nat.not_lt_zero _)
    | succ n =>
      rw [List.cons_append, List.cons_append, List.append_assoc, List.cons_append, List.nil_append,
        parseValue, if_neg (by decide), if_neg (by simp), if_neg (by simp), if_pos rfl,
        Room.enter_enough, ok_bind]
      cases ps with
      | nil =>
        have ht : itemsText [] = [] := rfl
        rw [ht, List.nil_append, List.length_cons,
          skipCommentsAndSpaces_self (by decide) (by decide)]
        rfl
      | cons p ps =>
        obtain ⟨c, cs, hc, ho⟩ := itemsText_starts p ps
        have hi := parseItems_text ('[' :: brackets) rest p ps n (by omega)
        rw [hc, List.cons_append] at hi ⊢
        rw [skipCommentsAndSpaces_self (not_isSpace_of_opensValue ho) (ne_of_opensValue ho rfl),
          ok_bind]
        split
        · rename_i he
          exact absurd (List.cons.inj he).1 (ne_of_opensValue ho rfl)
        · rw [hi]
          exact outcome_map rfl

/-! ## Keys -/

/-- A key that needs no quotes. -/
def isBareKey (k : String) : Bool := !k.toList.isEmpty && k.toList.all isBareKeyChar

theorem ne_of_isBareKeyChar {c d : Char} (hc : isBareKeyChar c = true)
    (hd : isBareKeyChar d = false) : c ≠ d := by
  rintro rfl
  exact Bool.false_ne_true (hd.symm.trans hc)

theorem not_isBlank_of_isBareKeyChar {c : Char} (h : isBareKeyChar c = true) :
    isBlank c = false := by
  have hs : c ≠ ' ' := ne_of_isBareKeyChar h (by decide)
  have ht : c ≠ '\t' := ne_of_isBareKeyChar h (by decide)
  simp [isBlank, hs, ht]

theorem isBareKey_starts {k : String} (h : isBareKey k = true) :
    ∃ c cs, k.toList = c :: cs ∧ isBareKeyChar c = true := by
  rw [isBareKey, Bool.and_eq_true, Bool.not_eq_true', List.all_eq_true] at h
  cases hk : k.toList with
  | nil => rw [hk] at h; cases h.1
  | cons c cs => exact ⟨c, cs, rfl, h.2 c (by rw [hk]; exact List.mem_cons_self)⟩

theorem parseKeyPart_bare {k : String} (hk : isBareKey k = true) {c : Char}
    (hc : isBareKeyChar c = false) (cs : List Char) :
    parseKeyPart (k.toList ++ c :: cs) = .ok (k, c :: cs) := by
  obtain ⟨d, ds, hl, hdk⟩ := isBareKey_starts hk
  have hall : ∀ d ∈ k.toList, isBareKeyChar d = true := by
    rw [isBareKey, Bool.and_eq_true, List.all_eq_true] at hk
    exact hk.2
  have ht : (k.toList ++ c :: cs).takeWhile isBareKeyChar = k.toList := by
    rw [List.takeWhile_append_of_pos hall, List.takeWhile_cons_of_neg (by simp [hc]),
      List.append_nil]
  have hd : (k.toList ++ c :: cs).dropWhile isBareKeyChar = c :: cs := by
    rw [List.dropWhile_append_of_pos hall, List.dropWhile_cons_of_neg (by simp [hc])]
  have hs : String.ofList ((k.toList ++ c :: cs).takeWhile isBareKeyChar) = k := by
    rw [ht, String.ofList_toList]
  rw [hl, List.cons_append] at hs hd ⊢
  rw [parseKeyPart, if_pos hdk, hs, hd]

/-- A bare key, up to its closing bracket or the blank before its equals sign. -/
theorem parseKey_bare {k : String} (hk : isBareKey k = true) {c d : Char} {cs ds : List Char}
    (hc : isBareKeyChar c = false) (hd : d ≠ '.') (h : (c :: cs).dropWhile isBlank = d :: ds) :
    parseKey (k.toList ++ c :: cs) = .ok ([k], d :: ds) := by
  rw [parseKey, parseKeyParts, parseKeyPart_bare hk hc, ok_bind]
  simp only [h]
  split
  · rename_i he
    exact absurd (List.cons.inj he).1 hd
  · rfl

theorem parseKeyEquals_bare {k : String} (hk : isBareKey k = true) {c : Char}
    (hc : isBlank c = false) (cs : List Char) :
    parseKeyEquals (k.toList ++ ' ' :: '=' :: ' ' :: c :: cs) = .ok ([k], c :: cs) := by
  rw [parseKeyEquals, parseKey_bare hk (by decide) (by decide) rfl, ok_bind]
  simp only
  rw [List.dropWhile_cons_of_pos (by decide), List.dropWhile_cons_of_neg (by simp [hc])]

/-! ## Inline tables -/

/-- A key and its value. -/
abbrev Pair : Type := String × Printed

def Pair.text (p : Pair) : List Char := p.1.toList ++ ' ' :: '=' :: ' ' :: p.2.text

def Pair.legal (p : Pair) : Bool := p.2.legal

/-- The pair as it stands in a table. -/
def Pair.entry (p : Pair) : String × Value := (p.1, p.2.value)

/-- The pairs of an inline table. -/
def pairsText (ps : List Pair) : List Char := [',', ' '].intercalate (ps.map Pair.text)

theorem pairsText_cons_cons (p q : Pair) (ps : List Pair) :
    pairsText (p :: q :: ps) = p.text ++ ',' :: ' ' :: pairsText (q :: ps) := by
  simp only [pairsText, List.map_cons, List.intercalate_cons_cons, List.append_assoc,
    List.cons_append, List.nil_append]

theorem pairsText_starts {p : Pair} (hp : isBareKey p.1 = true) (ps : List Pair) :
    ∃ c cs, pairsText (p :: ps) = c :: cs ∧ isBareKeyChar c = true := by
  obtain ⟨c, cs, hc, hk⟩ := isBareKey_starts hp
  cases ps with
  | nil =>
    refine ⟨c, cs ++ ' ' :: '=' :: ' ' :: p.2.text, ?_, hk⟩
    rw [pairsText, List.map_singleton, List.intercalate_singleton, Pair.text, hc, List.cons_append]
  | cons q ps => exact ⟨c, _, by rw [pairsText_cons_cons, Pair.text, hc]; rfl, hk⟩

/-- The key of a pair, up to its value. -/
theorem parseKeyEquals_pair {p : Pair} (hp : isBareKey p.1 = true) (rest : List Char) :
    parseKeyEquals (p.text ++ rest) = .ok ([p.1], p.2.text ++ rest) := by
  obtain ⟨c, cs, hc, ho⟩ := p.2.starts
  rw [Pair.text, hc, List.append_assoc]
  exact parseKeyEquals_bare hp (not_isBlank_of_opensValue ho) (cs ++ rest)

theorem addInline_new {flags : Flags} {k : String} {t : Table} (hf : flags.isFrozen [k] = false)
    (ht : t.lookup k = none) (v : Value) : addInline flags [k] v t = .ok (t ++ [(k, v)]) := by
  rw [addInline, hf, if_neg (by decide)]
  simp [modifyAt, addKey, ht]

/-- The value of a pair is shorter than the pair. -/
theorem Pair.length_value (p : Pair) : p.2.text.length + 3 ≤ p.text.length := by
  rw [Pair.text, List.length_append]
  simp only [List.length_cons]
  omega

theorem parseInlinePairs_last {p : Pair} (hp : isBareKey p.1 = true) {n : Nat}
    {brackets : List Char}
    {flags : Flags} {t : Table} (hf : flags.isFrozen [p.1] = false) (ht : t.lookup p.1 = none)
    (hn : p.text.length < n) (rest : List Char) :
    parseInlinePairs .enough (n + 1) brackets flags t (p.text ++ ' ' :: '}' :: rest) =
      outcome p.legal (t ++ [p.entry], rest) := by
  have hl := p.length_value
  rw [parseInlinePairs, parseKeyEquals_pair hp, ok_bind]
  simp only
  rw [p.2.reads n _ _ (by omega) (by simp)]
  refine outcome_map ?_
  simp only [addInline_new hf ht, ok_bind]
  rfl

/-- What is frozen behind a pair of an inline table. -/
def Pair.freeze (p : Pair) (flags : Flags) : Flags :=
  if p.2.value.isNest then { flags with frozen := [p.1] :: flags.frozen } else flags

theorem parseInlinePairs_more {p : Pair} (hp : isBareKey p.1 = true) {n : Nat}
    {brackets : List Char}
    {flags : Flags} {t : Table} (hf : flags.isFrozen [p.1] = false) (ht : t.lookup p.1 = none)
    (hn : p.text.length < n) {c : Char} (hc : isBlank c = false) {cs rest : List Char}
    {legal : Bool} {u : Table}
    (h : parseInlinePairs .enough n brackets (p.freeze flags) (t ++ [p.entry]) (c :: cs) =
      outcome legal (u, rest)) :
    parseInlinePairs .enough (n + 1) brackets flags t (p.text ++ ',' :: ' ' :: c :: cs) =
      outcome (p.legal && legal) (u, rest) := by
  have hl := p.length_value
  have hd : (' ' :: c :: cs).dropWhile isBlank = c :: cs := by
    rw [List.dropWhile_cons_of_pos (by decide), List.dropWhile_cons_of_neg (by simp [hc])]
  rw [parseInlinePairs, parseKeyEquals_pair hp, ok_bind]
  simp only
  rw [p.2.reads n _ _ (by omega) (by simp)]
  refine outcome_bind ?_
  simp only [addInline_new hf ht, ok_bind]
  rw [List.dropWhile_cons_of_neg (by decide)]
  simp only [hd]
  exact h

theorem isFrozen_freeze {p : Pair} {flags : Flags} {k : String} (hk : p.1 ≠ k)
    (hf : flags.isFrozen [k] = false) : (p.freeze flags).isFrozen [k] = false := by
  rw [Pair.freeze]
  split
  · rw [Flags.isFrozen, List.any_cons]
    rw [Flags.isFrozen] at hf
    simp [hf, List.isPrefixOf, hk]
  · exact hf

theorem lookup_append_entry {p : Pair} {t : Table} {k : String} (hk : p.1 ≠ k)
    (ht : t.lookup k = none) : (t ++ [p.entry]).lookup k = none := by
  have hb : (k == p.1) = false := beq_eq_false_iff_ne.2 hk.symm
  simp [List.lookup_append, ht, Pair.entry, List.lookup_cons, hb]

/-- The pairs of an inline table are read back, with its closing brace. -/
theorem parseInlinePairs_text (brackets rest : List Char) : ∀ (p : Pair) (ps : List Pair) (n : Nat)
    (flags : Flags) (t : Table), (∀ q ∈ p :: ps, isBareKey q.1 = true) →
    ((p :: ps).map Prod.fst).Nodup → (∀ q ∈ p :: ps, flags.isFrozen [q.1] = false) →
    (∀ q ∈ p :: ps, t.lookup q.1 = none) → (pairsText (p :: ps)).length + 1 < n →
    parseInlinePairs .enough n brackets flags t (pairsText (p :: ps) ++ ' ' :: '}' :: rest) =
      outcome ((p :: ps).all Pair.legal) (t ++ (p :: ps).map Pair.entry, rest)
  | p, [], n + 1, flags, t, hb, _, hf, ht, hn => by
    have hp : pairsText [p] = p.text := by simp [pairsText]
    rw [hp] at hn ⊢
    rw [parseInlinePairs_last (hb p List.mem_cons_self) (hf p List.mem_cons_self)
      (ht p List.mem_cons_self) (by omega)]
    simp
  | p, q :: ps, n + 1, flags, t, hb, hd, hf, ht, hn => by
    rw [pairsText_cons_cons, List.length_append, List.length_cons, List.length_cons] at hn
    have hne : ∀ r ∈ q :: ps, p.1 ≠ r.1 := fun r hr he =>
      (List.nodup_cons.1 hd).1 (he ▸ List.mem_map_of_mem hr)
    have ih := parseInlinePairs_text brackets rest q ps n (p.freeze flags) (t ++ [p.entry])
      (fun r hr => hb r (List.mem_cons_of_mem p hr)) (List.nodup_cons.1 hd).2
      (fun r hr => isFrozen_freeze (hne r hr) (hf r (List.mem_cons_of_mem p hr)))
      (fun r hr => lookup_append_entry (hne r hr) (ht r (List.mem_cons_of_mem p hr))) (by omega)
    obtain ⟨c, cs, hc, hk⟩ := pairsText_starts (hb q (List.mem_cons_of_mem p List.mem_cons_self)) ps
    rw [hc, List.cons_append] at ih
    rw [pairsText_cons_cons, hc, List.append_assoc]
    have hm := parseInlinePairs_more (hb p List.mem_cons_self) (hf p List.mem_cons_self)
      (ht p List.mem_cons_self) (by omega) (not_isBlank_of_isBareKeyChar hk) ih
    simpa using hm

/-- Pairs with bare keys, no two of them with the same one. -/
structure Pairs where
  pairs : List Pair
  bare : ∀ p ∈ pairs, isBareKey p.1 = true
  nodup : (pairs.map Prod.fst).Nodup

/-- The table that the pairs make up. -/
def Pairs.table (ps : Pairs) : Table := ps.pairs.map Pair.entry

def Pairs.legal (ps : Pairs) : Bool := ps.pairs.all Pair.legal

/-- An inline table of printed values. -/
def Printed.inlineTable (ps : Pairs) (hne : ps.pairs ≠ []) : Printed where
  text := '{' :: ' ' :: pairsText ps.pairs ++ [' ', '}']
  value := .table ps.table
  legal := ps.legal
  starts := ⟨_, _, rfl, rfl⟩
  reads := by
    intro n brackets rest hn _
    obtain ⟨ps, hb, hd⟩ := ps
    cases n with
    | zero => exact absurd hn (Nat.not_lt_zero _)
    | succ n =>
      simp only [List.length_append, List.length_cons] at hn
      cases ps with
      | nil => exact absurd rfl hne
      | cons p ps =>
        obtain ⟨c, cs, hc, hk⟩ := pairsText_starts (hb p List.mem_cons_self) ps
        have hi := parseInlinePairs_text ('{' :: brackets) rest p ps n {} [] hb hd (fun _ _ => rfl)
          (fun _ _ => rfl) (by omega)
        have hs : (' ' :: c :: (cs ++ ' ' :: '}' :: rest)).dropWhile isBlank =
            c :: (cs ++ ' ' :: '}' :: rest) := by
          rw [List.dropWhile_cons_of_pos (by decide),
            List.dropWhile_cons_of_neg (by simp [not_isBlank_of_isBareKeyChar hk])]
        rw [hc, List.cons_append] at hi
        simp only [hc, List.cons_append, List.append_assoc, List.nil_append]
        rw [parseValue, if_neg (by decide), if_neg (by simp), if_neg (by simp), if_neg (by decide),
          if_pos rfl, Room.enter_enough, ok_bind, hs]
        split
        · rename_i he
          exact absurd (List.cons.inj he).1 (ne_of_isBareKeyChar hk (by decide))
        · rw [hi]
          exact outcome_map rfl

/-! ## Documents

A document of `[[name]]` blocks is read line by line.  Between two lines of it, what matters about
the parser's output is `Built` (after whole blocks) or `Building` (inside of one). -/

/-- A block: its header, and one pair a line. -/
def blockText (name : String) (ps : Pairs) : List Char :=
  '[' :: '[' :: name.toList ++ ']' :: ']' :: '\n' :: ps.pairs.flatMap fun p => p.text ++ ['\n']

/-- The blocks, with an empty line between any two. -/
def documentText (name : String) (blocks : List Pairs) : List Char :=
  ['\n'].intercalate (blocks.map (blockText name))

/-- The document that the tables make up. -/
def documentTable (name : String) (ts : List Table) : Table :=
  if ts = [] then [] else [(name, .array (ts.map .table))]

/-- Nothing is frozen but what is inside some block. -/
def Flags.FrozenInside (flags : Flags) : Prop := ∀ k ∈ flags.frozen, 2 ≤ k.length

/-- The output behind some blocks. -/
structure Built (name : String) (done : List Table) (out : Output) : Prop where
  data : out.data = documentTable name done
  frozen : out.flags.FrozenInside

/-- The output inside of a block. -/
structure Building (name : String) (done : List Table) (t : Table) (out : Output) : Prop where
  data : out.data = [(name, .array (done.map .table ++ [.table t]))]
  frozen : out.flags.FrozenInside
  header : out.header = [name]

theorem Building.built {name : String} {done : List Table} {t : Table} {out : Output}
    (h : Building name done t out) : Built name (done ++ [t]) out :=
  ⟨by rw [h.data]; simp [documentTable], h.frozen⟩

/-- A key of one part is not inside of anything frozen. -/
theorem Flags.FrozenInside.isFrozen {flags : Flags} (h : flags.FrozenInside) (k : String) :
    flags.isFrozen [k] = false := by
  rw [Flags.isFrozen, List.any_eq_false]
  intro key hk hp
  have hl := (List.isPrefixOf_iff_prefix.1 hp).length_le
  have := h key hk
  simp only [List.length_singleton] at hl
  omega

/-- A header begins a new table. -/
theorem createList_built {name : String} (hname : isBareKey name = true) {done : List Table}
    {out : Output} (h : Built name done out) (rest : List Char) :
    ∃ out', createList out (name.toList ++ ']' :: ']' :: rest) = .ok (out', rest) ∧
      Building name done [] out' := by
  obtain ⟨c, cs, hc, hk⟩ := isBareKey_starts hname
  have hd : (name.toList ++ ']' :: ']' :: rest).dropWhile isBlank =
      name.toList ++ ']' :: ']' :: rest := by
    rw [hc, List.cons_append,
      List.dropWhile_cons_of_neg (by simp [not_isBlank_of_isBareKeyChar hk])]
  have hp : parseKey (name.toList ++ ']' :: ']' :: rest) = .ok ([name], ']' :: ']' :: rest) :=
    parseKey_bare hname (by decide) (by decide) (by rw [List.dropWhile_cons_of_neg (by decide)])
  have ha : modifyAt true (appendNest ([name].getLastD "")) [name].dropLast out.data =
      .ok [(name, .array (done.map .table ++ [.table []]))] := by
    simp only [List.getLastD, List.getLast_singleton, List.dropLast_singleton]
    rw [modifyAt, h.data, appendNest]
    cases done with
    | nil => rfl
    | cons t ts => simp [documentTable, setKey]
  rw [createList, hd, hp, ok_bind]
  simp only [h.frozen.isFrozen, Bool.false_eq_true, if_false]
  rw [ha]
  refine ⟨_, rfl, rfl, fun k hk => ?_, rfl⟩
  exact h.frozen k (List.mem_filter.1 hk).1

/-- A pair goes to the last table. -/
theorem modifyAt_building {name k : String} {done : List Table} {t : Table} {out : Output}
    (h : Building name done t out) (ht : t.lookup k = none) (v : Value) :
    modifyAt true (addKey .overwrittenValue k v) [name] out.data =
      .ok [(name, .array (done.map .table ++ [.table (t ++ [(k, v)])]))] := by
  rw [h.data, modifyAt]
  simp [addKey, modifyAt, ht, setKey, ok_bind]

theorem keyValue_building {name : String} {done : List Table} {t : Table} {out : Output}
    (h : Building name done t out) {p : Pair} (hp : isBareKey p.1 = true)
    (ht : t.lookup p.1 = none) {rest : List Char} (hr : rest.head? ≠ some '"') :
    ∃ out', keyValue .enough out (p.text ++ rest) = outcome p.legal (out', rest) ∧
      Building name done (t ++ [p.entry]) out' := by
  have hm := modifyAt_building h ht p.2.value
  have hf := h.frozen.isFrozen name
  refine ⟨⟨[(name, .array (done.map .table ++ [.table (t ++ [p.entry])]))],
    { out.flags with
      frozen := if p.2.value.isNest then [name, p.1] :: out.flags.frozen else out.flags.frozen },
    [name]⟩, ?_, rfl, ?_, rfl⟩
  · rw [keyValue, parseKeyEquals_pair hp, ok_bind]
    simp only
    rw [p.2.reads _ _ _ (by simp only [List.length_append]; omega) hr]
    refine outcome_map ?_
    have ho : openedBy [name] [p.1] = [] := rfl
    simp only [h.header, ho, List.dropLast_singleton, List.append_nil, List.any_nil,
      Bool.false_eq_true, if_false, hf, List.getLastD, List.getLast_singleton]
    rw [hm]
    rfl
  · intro k hk
    simp only at hk
    split at hk
    · rcases List.mem_cons.1 hk with rfl | hk
      · exact Nat.le_refl 2
      · exact h.frozen k hk
    · exact h.frozen k hk

/-! ### Lines -/

theorem statements_blank (n : Nat) (out : Output) (rest : List Char) :
    statements .enough (n + 1) out ('\n' :: rest) = statements .enough n out rest := rfl

theorem statements_line {c : Char} (hb : isBlank c = false) (hc : c ≠ '\n') {cs rest : List Char}
    {out out' : Output} {legal : Bool}
    (h : statement .enough out (c :: cs) = outcome legal (out', '\n' :: rest)) (n : Nat) :
    statements .enough (n + 1) out (c :: cs) =
      outcome legal () >>= fun _ => statements .enough n out' rest := by
  rw [statements, List.dropWhile_cons_of_neg (by simp [hb])]
  split
  · rename_i he
    cases he
  · rename_i he
    exact absurd (List.cons.inj he).1 hc
  · rw [h]
    cases legal with
    | true => rfl
    | false => rfl

theorem statements_pair {name : String} {done : List Table} {t : Table} {out : Output}
    (h : Building name done t out) {p : Pair} (hp : isBareKey p.1 = true)
    (ht : t.lookup p.1 = none) (n : Nat) (rest : List Char) :
    ∃ out', statements .enough (n + 1) out (p.text ++ '\n' :: rest) =
        outcome p.legal () >>= (fun _ => statements .enough n out' rest) ∧
      Building name done (t ++ [p.entry]) out' := by
  have hr : ('\n' :: rest).head? ≠ some '"' := by simp
  obtain ⟨out', hk, hb⟩ := keyValue_building h hp ht hr
  obtain ⟨c, cs, hc, hbare⟩ := isBareKey_starts hp
  refine ⟨out', ?_, hb⟩
  have hs : statement .enough out (p.text ++ '\n' :: rest) =
      outcome p.legal (out', '\n' :: rest) := by
    rw [Pair.text, hc, List.cons_append, List.cons_append] at hk ⊢
    rw [statement, if_pos (.inl hbare), hk]
    exact outcome_map rfl
  rw [Pair.text, hc, List.cons_append, List.cons_append] at hs ⊢
  exact statements_line (not_isBlank_of_isBareKeyChar hbare) (ne_of_isBareKeyChar hbare (by decide))
    hs n

theorem statements_header {name : String} (hname : isBareKey name = true) {done : List Table}
    {out : Output} (h : Built name done out) (n : Nat) (rest : List Char) :
    ∃ out',
      statements .enough (n + 1) out ('[' :: '[' :: name.toList ++ ']' :: ']' :: '\n' :: rest) =
        statements .enough n out' rest ∧ Building name done [] out' := by
  have hb : Built name done { out with flags := out.flags.finalizePending } := ⟨h.data, h.frozen⟩
  obtain ⟨out', hk, hb⟩ := createList_built hname hb ('\n' :: rest)
  refine ⟨out', ?_, hb⟩
  have hs : statement .enough out ('[' :: '[' :: name.toList ++ ']' :: ']' :: '\n' :: rest) =
      outcome true (out', '\n' :: rest) := by
    rw [List.cons_append, List.cons_append, statement, if_neg (by decide), if_pos rfl]
    simp only [hk, ok_bind]
    rw [List.dropWhile_cons_of_neg (by decide)]
    rfl
  exact statements_line (by decide) (by decide) hs n

/-- The lines of a block are read back one after the other. -/
theorem statements_pairs (name : String) (done : List Table) (rest : List Char) :
    ∀ (ps : List Pair) (n : Nat) (t : Table) (out : Output), Building name done t out →
    (∀ p ∈ ps, isBareKey p.1 = true) → (ps.map Prod.fst).Nodup → (∀ p ∈ ps, t.lookup p.1 = none) →
    ∃ out',
      statements .enough (n + ps.length) out ((ps.flatMap fun p => p.text ++ ['\n']) ++ rest) =
        outcome (ps.all Pair.legal) () >>= (fun _ => statements .enough n out' rest) ∧
      Building name done (t ++ ps.map Pair.entry) out'
  | [], n, t, out, h, _, _, _ => ⟨out, rfl, by simpa using h⟩
  | p :: ps, n, t, out, h, hb, hd, ht => by
    have hne : ∀ q ∈ ps, p.1 ≠ q.1 := fun q hq he =>
      (List.nodup_cons.1 hd).1 (he ▸ List.mem_map_of_mem hq)
    obtain ⟨out₁, hs, h₁⟩ := statements_pair h (hb p List.mem_cons_self) (ht p List.mem_cons_self)
      (n + ps.length) ((ps.flatMap fun p => p.text ++ ['\n']) ++ rest)
    obtain ⟨out₂, hs₂, h₂⟩ := statements_pairs name done rest ps n (t ++ [p.entry]) out₁ h₁
      (fun q hq => hb q (List.mem_cons_of_mem p hq)) (List.nodup_cons.1 hd).2
      (fun q hq => lookup_append_entry (hne q hq) (ht q (List.mem_cons_of_mem p hq)))
    refine ⟨out₂, ?_, by simpa using h₂⟩
    rw [List.flatMap_cons, List.append_assoc, List.append_assoc]
    refine Eq.trans hs ?_
    rw [hs₂, List.all_cons]
    cases p.legal <;> rfl

/-! ### Blocks -/

/-- **A block is read back as one more table.** -/
theorem statements_block {name : String} (hname : isBareKey name = true) {done : List Table}
    {out : Output} (h : Built name done out) (ps : Pairs) (n : Nat) (rest : List Char) :
    ∃ out', statements .enough (n + ps.pairs.length + 1) out (blockText name ps ++ rest) =
        outcome ps.legal () >>= (fun _ => statements .enough n out' rest) ∧
      Built name (done ++ [ps.table]) out' := by
  obtain ⟨out₁, hh, h₁⟩ := statements_header hname h (n + ps.pairs.length)
    ((ps.pairs.flatMap fun p => p.text ++ ['\n']) ++ rest)
  obtain ⟨out₂, hs, h₂⟩ := statements_pairs name done rest ps.pairs n [] out₁ h₁ ps.bare ps.nodup
    (fun _ _ => rfl)
  refine ⟨out₂, ?_, h₂.built⟩
  rw [blockText, List.cons_append, List.cons_append, List.append_assoc]
  exact hh.trans hs

theorem length_blockText (name : String) (ps : Pairs) :
    ps.pairs.length + 1 ≤ (blockText name ps).length := by
  have h : ps.pairs.length ≤ (ps.pairs.flatMap fun p => p.text ++ ['\n']).length := by
    induction ps.pairs with
    | nil => exact Nat.le_refl 0
    | cons p ps ih =>
      simp only [List.flatMap_cons, List.length_append, List.length_cons] at ih ⊢
      omega
  simp only [blockText, List.length_append, List.length_cons]
  omega

theorem documentText_cons_cons (name : String) (ps qs : Pairs) (blocks : List Pairs) :
    documentText name (ps :: qs :: blocks) =
      blockText name ps ++ '\n' :: documentText name (qs :: blocks) := by
  simp only [documentText, List.map_cons, List.intercalate_cons_cons, List.append_assoc,
    List.cons_append, List.nil_append]

/-- The blocks of a document are read back one after the other. -/
theorem statements_document {name : String} (hname : isBareKey name = true) :
    ∀ (blocks : List Pairs) (n : Nat) (done : List Table) (out : Output), Built name done out →
    (documentText name blocks).length < n →
    statements .enough n out (documentText name blocks) =
      outcome (blocks.all Pairs.legal) (documentTable name (done ++ blocks.map Pairs.table))
  | [], n + 1, done, out, h, _ => by
    have hd : documentText name [] = [] := rfl
    rw [hd, statements, List.dropWhile_nil, h.data]
    simp
  | [ps], n, done, out, h, hn => by
    have hd : documentText name [ps] = blockText name ps ++ [] := by simp [documentText]
    have hl := length_blockText name ps
    rw [hd, List.append_nil] at hn
    obtain ⟨m, rfl⟩ : ∃ m, n = m + 1 + ps.pairs.length + 1 :=
      ⟨n - ps.pairs.length - 2, by omega⟩
    obtain ⟨out', hs, h'⟩ := statements_block hname h ps (m + 1) []
    rw [hd, hs, List.all_cons]
    refine outcome_bind ?_
    rw [statements, List.dropWhile_nil, h'.data]
    simp
  | ps :: qs :: blocks, n, done, out, h, hn => by
    have hl := length_blockText name ps
    rw [documentText_cons_cons, List.length_append, List.length_cons] at hn
    obtain ⟨m, rfl⟩ : ∃ m, n = m + 1 + ps.pairs.length + 1 :=
      ⟨n - ps.pairs.length - 2, by omega⟩
    obtain ⟨out', hs, h'⟩ := statements_block hname h ps (m + 1)
      ('\n' :: documentText name (qs :: blocks))
    have ih := statements_document hname (qs :: blocks) m (done ++ [ps.table]) out' h' (by omega)
    rw [documentText_cons_cons, hs, List.all_cons]
    refine outcome_bind ?_
    rw [statements_blank, ih, List.append_assoc]
    rfl

theorem replaceCrLf_of_not_mem : ∀ {cs : List Char}, '\r' ∉ cs → replaceCrLf cs = cs
  | [], _ => rfl
  | c :: cs, h => by
    have hc : c ≠ '\r' := fun he => h (he ▸ List.mem_cons_self)
    have ih := replaceCrLf_of_not_mem fun hm => h (List.mem_cons_of_mem c hm)
    rw [replaceCrLf.eq_def]
    split
    · rename_i he
      exact absurd (List.cons.inj he).1 hc
    · rename_i he
      obtain ⟨rfl, rfl⟩ := List.cons.inj he
      rw [ih]
    · rename_i he
      cases he

/-- **A printed document is read back**, if all of it is legal, and rejected otherwise. -/
theorem loads_document {name : String} (hname : isBareKey name = true) (blocks : List Pairs)
    (hr : '\r' ∉ documentText name blocks) :
    loads (String.ofList (documentText name blocks)) =
      outcome (blocks.all Pairs.legal) (documentTable name (blocks.map Pairs.table)) := by
  have hb : Built name [] {} := ⟨rfl, fun _ hk => by cases hk⟩
  rw [loads, read, String.toList_ofList]
  simp only [replaceCrLf_of_not_mem hr]
  exact statements_document hname blocks _ [] {} hb (Nat.lt_succ_self _)

end Toml
