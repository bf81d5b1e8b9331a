import Mathlib.Data.List.Basic

/-!
# Mail addresses

The `addr-spec` of RFC 5322, without comments and folding, and with the characters beyond ASCII that
RFC 6532 admits.  A quoted local part and a domain literal may contain a comma.
-/

set_option autoImplicit false

namespace AddrSpec

/-- `UTF8-non-ascii`. -/
def isNonAscii (c : Char) : Bool := decide (128 ≤ c.toNat)

/-- `atext`. -/
def isAtext (c : Char) : Bool :=
  c.isAlphanum || decide (c ∈ "!#$%&'*+-/=?^_`\x7b|\x7d~".toList) || isNonAscii c

/-- `dot-atom`. -/
inductive DotAtom : List Char → Prop where
  | atom {cs : List Char} (hne : cs ≠ []) (htext : ∀ c ∈ cs, isAtext c = true) : DotAtom cs
  | dot {cs rest : List Char} (hne : cs ≠ []) (htext : ∀ c ∈ cs, isAtext c = true)
      (hrest : DotAtom rest) : DotAtom (cs ++ '.' :: rest)

/-- `qtext`, and the white space between the words. -/
def isQtext (c : Char) : Bool :=
  c == ' ' || c == '\t' || c == '!' || decide (35 ≤ c.toNat ∧ c.toNat ≤ 91) ||
    decide (93 ≤ c.toNat ∧ c.toNat ≤ 126) || isNonAscii c

/-- What may follow a backslash. -/
def isQuotable (c : Char) : Bool :=
  c == '\t' || decide (32 ≤ c.toNat ∧ c.toNat ≤ 126) || isNonAscii c

/-- What stands between the quotes. -/
inductive Quoted : List Char → Prop where
  | nil : Quoted []
  | text {c : Char} {cs : List Char} (hc : isQtext c = true) (hrest : Quoted cs) : Quoted (c :: cs)
  | pair {c : Char} {cs : List Char} (hc : isQuotable c = true) (hrest : Quoted cs) :
      Quoted ('\\' :: c :: cs)

/-- `local-part`. -/
inductive LocalPart : List Char → Prop where
  | dotAtom {cs : List Char} (h : DotAtom cs) : LocalPart cs
  | quoted {cs : List Char} (h : Quoted cs) : LocalPart ('"' :: (cs ++ ['"']))

/-- `dtext`. -/
def isDtext (c : Char) : Bool :=
  decide (33 ≤ c.toNat ∧ c.toNat ≤ 90) || decide (94 ≤ c.toNat ∧ c.toNat ≤ 126) || isNonAscii c

/-- `domain`. -/
inductive Domain : List Char → Prop where
  | dotAtom {cs : List Char} (h : DotAtom cs) : Domain cs
  | literal {cs : List Char} (h : ∀ c ∈ cs, isDtext c = true) : Domain ('[' :: (cs ++ [']']))

/-- `addr-spec`. -/
inductive Valid : List Char → Prop where
  | mk {localPart domain : List Char} (hlocal : LocalPart localPart) (hdomain : Domain domain) :
      Valid (localPart ++ '@' :: domain)

theorem Quoted.of_text : ∀ {cs : List Char}, (∀ c ∈ cs, isQtext c = true) → Quoted cs
  | [], _ => .nil
  | c :: _, h => .text (h c List.mem_cons_self)
    (of_text fun d hd => h d (List.mem_cons_of_mem c hd))

/-! ## How an address begins and ends -/

theorem getLast?_append_cons {before rest : List Char} {c : Char} (h : rest ≠ []) :
    (before ++ c :: rest).getLast? = rest.getLast? := by
  rw [List.getLast?_append, List.getLast?_cons_of_ne_nil h]
  cases hlast : rest.getLast? with
  | none => exact absurd (List.getLast?_eq_none_iff.1 hlast) h
  | some d => rfl

theorem DotAtom.first {cs : List Char} (h : DotAtom cs) : ∀ c ∈ cs.head?, isAtext c = true := by
  cases h with
  | atom hne htext => exact fun c hc => htext c (List.mem_of_mem_head? hc)
  | dot hne htext hrest =>
    intro c hc
    rw [List.head?_append_of_ne_nil _ hne] at hc
    exact htext c (List.mem_of_mem_head? hc)

theorem DotAtom.ne_nil {cs : List Char} (h : DotAtom cs) : cs ≠ [] := by
  cases h with
  | atom hne htext => exact hne
  | dot hne htext hrest => exact List.append_ne_nil_of_left_ne_nil hne _

theorem DotAtom.last {cs : List Char} (h : DotAtom cs) :
    ∀ c ∈ cs.getLast?, isAtext c = true := by
  induction h with
  | atom hne htext => exact fun c hc => htext c (List.mem_of_getLast? hc)
  | dot hne htext hrest ih =>
    rw [getLast?_append_cons hrest.ne_nil]
    exact ih

/-- An address begins with `atext` or a quote. -/
theorem Valid.first {cs : List Char} (h : Valid cs) :
    ∀ c ∈ cs.head?, c = '"' ∨ isAtext c = true := by
  obtain ⟨hlocal, hdomain⟩ := h
  cases hlocal with
  | dotAtom h =>
    intro c hc
    rw [List.head?_append_of_ne_nil _ h.ne_nil] at hc
    exact .inr (h.first c hc)
  | quoted h =>
    rintro c ⟨⟩
    exact .inl rfl

/-- It ends in `atext` or a bracket. -/
theorem Valid.last {cs : List Char} (h : Valid cs) :
    ∀ c ∈ cs.getLast?, c = ']' ∨ isAtext c = true := by
  obtain ⟨hlocal, hdomain⟩ := h
  cases hdomain with
  | dotAtom h =>
    rw [getLast?_append_cons h.ne_nil]
    exact fun c hc => .inr (h.last c hc)
  | @literal ds h =>
    rw [getLast?_append_cons (List.cons_ne_nil _ _), ← List.cons_append,
      List.getLast?_concat]
    rintro c ⟨⟩
    exact .inl rfl

theorem Valid.ne_nil {cs : List Char} (h : Valid cs) : cs ≠ [] := by
  obtain ⟨hlocal, hdomain⟩ := h
  exact List.append_ne_nil_of_right_ne_nil _ (List.cons_ne_nil _ _)

end AddrSpec
