import Spork.AddrSpec
import Spork.Jmap.Client
import Spork.Pipeline.Tier2.Escalate
import Spork.Guarantees.QuotedHistory

/-!
# Recipients through the header

The JMAP client joins the addresses of a `To` list with a comma and a space, and
`parse_to_addresses` splits the header at its commas and strips the parts.  The list comes back
exactly if no address has a comma in it, and none begins or ends with white space
(`parseToAddresses_normalize_iff`); the address grammar rules out the second for ASCII, but not the
first.
-/

set_option autoImplicit false

namespace Spork

/-! ## Splitting and stripping -/

/-- White space neither in front nor behind. -/
structure NoOuterSpace (cs : List Char) : Prop where
  front : ∀ c ∈ cs.head?, isPySpace c = false
  behind : ∀ c ∈ cs.getLast?, isPySpace c = false

section Splitting

variable {cs : List Char}

theorem splitComma_ne_nil : ∀ cs : List Char, splitComma cs ≠ []
  | [] => List.cons_ne_nil _ _
  | c :: cs => by
    rw [splitComma]
    cases h : splitComma cs with
    | nil => exact absurd h (splitComma_ne_nil cs)
    | cons part parts =>
      dsimp only
      split <;> exact List.cons_ne_nil _ _

/-- Up to its first comma, a text is one part. -/
theorem splitComma_append : ∀ {cs : List Char}, ',' ∉ cs → ∀ rest,
    splitComma (cs ++ ',' :: rest) = cs :: splitComma rest
  | [], _, rest => by
    rw [List.nil_append, splitComma]
    cases h : splitComma rest with
    | nil => exact absurd h (splitComma_ne_nil rest)
    | cons part parts => rfl
  | c :: cs, hno, rest => by
    have hc : c ≠ ',' := fun he => hno (he ▸ List.mem_cons_self)
    rw [List.cons_append, splitComma, splitComma_append fun hm => hno (List.mem_cons_of_mem c hm)]
    exact if_neg hc

theorem splitComma_of_noComma : ∀ {cs : List Char}, ',' ∉ cs → splitComma cs = [cs]
  | [], _ => rfl
  | c :: cs, hno => by
    have hc : c ≠ ',' := fun he => hno (he ▸ List.mem_cons_self)
    rw [splitComma, splitComma_of_noComma fun hm => hno (List.mem_cons_of_mem c hm)]
    exact if_neg hc

/-- No part has a comma. -/
theorem noComma_of_mem_splitComma : ∀ {cs part : List Char}, part ∈ splitComma cs → ',' ∉ part
  | [], part, h => by
    rw [splitComma, List.mem_singleton] at h
    rw [h]
    exact List.not_mem_nil
  | c :: cs, part, h => by
    rw [splitComma] at h
    cases hparts : splitComma cs with
    | nil => exact absurd hparts (splitComma_ne_nil cs)
    | cons first parts =>
      have ih : ∀ {p}, p ∈ first :: parts → ',' ∉ p := fun hm =>
        noComma_of_mem_splitComma (hparts ▸ hm)
      rw [hparts] at h
      dsimp only at h
      split at h
      · rcases List.mem_cons.1 h with rfl | hm
        · exact List.not_mem_nil
        · exact ih hm
      · next hc =>
        rcases List.mem_cons.1 h with rfl | hm
        · intro hcomma
          rcases List.mem_cons.1 hcomma with he | hm
          · exact hc he.symm
          · exact ih List.mem_cons_self hm
        · exact ih (List.mem_cons_of_mem _ hm)

theorem pyStrip_noOuterSpace (cs : List Char) : NoOuterSpace (pyStrip cs) :=
  ⟨fun _ hc => pyStrip_noLeading hc, fun _ hc => pyStrip_noTrailing hc⟩

/-- Nothing is stripped from such a text. -/
theorem pyStrip_of_noOuterSpace (h : NoOuterSpace cs) : pyStrip cs = cs := by
  have hfront : cs.dropWhile isPySpace = cs := by
    cases cs with
    | nil => rfl
    | cons c cs =>
      exact List.dropWhile_cons_of_neg (Bool.eq_false_iff.1 (h.front c rfl))
  show (cs.dropWhile isPySpace).rdropWhile isPySpace = cs
  rw [hfront, List.rdropWhile_eq_self_iff]
  intro hne
  exact Bool.eq_false_iff.1 (h.behind _ (List.getLast?_eq_some_getLast hne))

end Splitting

/-! ## The header -/

/-- The addresses of the `To` list. -/
def JmapEmail.recipients (email : JmapEmail) : List String :=
  (email.toAddresses.getD []).reduceOption

section Header

variable {email : JmapEmail} {message : NormalizedMessage}

theorem lookup_append_other {headers : List (String × String)} {name value : String}
    (hne : "To" ≠ name) : (headers ++ [(name, value)]).lookup "To" = headers.lookup "To" := by
  rw [List.lookup_append, List.lookup_cons, beq_false_of_ne hne]
  exact Option.or_none

theorem lookup_addAddressHeader {headers : List (String × String)} {name : String}
    (hne : "To" ≠ name) (addresses : Option (List (Option String))) :
    (addAddressHeader headers name addresses).lookup "To" = headers.lookup "To" := by
  cases addresses with
  | none => rfl
  | some values =>
    rw [addAddressHeader]
    split
    · rfl
    · exact lookup_append_other hne

theorem lookup_addListHeader {headers : List (String × String)} {name : String}
    (hne : "To" ≠ name) (values : Option (List (Option String))) (joiner : String) :
    (addListHeader headers name values joiner).lookup "To" = headers.lookup "To" := by
  rw [addListHeader]
  cases values.bind fun vs => vs.mapM id with
  | none => rfl
  | some vs =>
    show (if _ then _ else _ : List (String × String)).lookup "To" = _
    split
    · rfl
    · exact lookup_append_other hne

/-- The `To` header is the list, joined. -/
theorem header_to (h : email.normalize = .ok message) :
    (message.header "To").getD "" = String.intercalate ", " email.recipients := by
  have hheaders : message.headers = email.headers := by
    rw [JmapEmail.normalize] at h
    split at h
    · cases h
      rfl
    · cases h
  rw [NormalizedMessage.header, hheaders, JmapEmail.headers, lookup_addListHeader (by decide),
    lookup_addListHeader (by decide), lookup_addListHeader (by decide),
    lookup_addAddressHeader (by decide), JmapEmail.recipients]
  cases email.toAddresses with
  | none => rfl
  | some values =>
    rw [addAddressHeader]
    split
    · next hempty => exact hempty.symm
    · rfl

theorem map_pyStrip_splitComma_space (cs : List Char) :
    (splitComma (' ' :: cs)).map pyStrip = (splitComma cs).map pyStrip := by
  rw [splitComma]
  cases h : splitComma cs with
  | nil => exact absurd h (splitComma_ne_nil cs)
  | cons part parts => rfl

/-- Joined addresses come apart again. -/
theorem splitComma_intercalate : ∀ {addresses : List (List Char)}, addresses ≠ [] →
    (∀ a ∈ addresses, ',' ∉ a ∧ NoOuterSpace a) →
      (splitComma (", ".toList.intercalate addresses)).map pyStrip = addresses
  | [], hne, _ => absurd rfl hne
  | [a], _, h => by
    obtain ⟨hcomma, hspace⟩ := h a List.mem_cons_self
    rw [List.intercalate_singleton, splitComma_of_noComma hcomma, List.map_singleton,
      pyStrip_of_noOuterSpace hspace]
  | a :: b :: rest, _, h => by
    obtain ⟨hcomma, hspace⟩ := h a List.mem_cons_self
    have ih := splitComma_intercalate (List.cons_ne_nil b rest) fun c hc =>
      h c (List.mem_cons_of_mem a hc)
    have hjoin : ", ".toList.intercalate (a :: b :: rest)
        = a ++ ',' :: ' ' :: ", ".toList.intercalate (b :: rest) := by
      rw [List.intercalate_cons_cons, List.append_assoc]
      rfl
    rw [hjoin, splitComma_append hcomma, List.map_cons, pyStrip_of_noOuterSpace hspace,
      map_pyStrip_splitComma_space, ih]

theorem parseToAddresses_eq (h : email.normalize = .ok message) : parseToAddresses message
    = (((splitComma (", ".toList.intercalate (email.recipients.map String.toList))).map
        pyStrip).filter (· ≠ [])).map String.ofList := by
  rw [parseToAddresses, header_to h, String.toList_intercalate]

/-- What comes back has neither commas nor outer white space. -/
theorem of_mem_parseToAddresses {address : String} (h : address ∈ parseToAddresses message) :
    ',' ∉ address.toList ∧ NoOuterSpace address.toList := by
  rw [parseToAddresses] at h
  obtain ⟨stripped, hstripped, rfl⟩ := List.mem_map.1 h
  obtain ⟨part, hpart, rfl⟩ := List.mem_map.1 (List.mem_filter.1 hstripped).1
  rw [String.toList_ofList]
  exact ⟨fun hcomma => noComma_of_mem_splitComma hpart ((pyStrip_isInfix part).subset hcomma),
    pyStrip_noOuterSpace part⟩

/-- Addresses of that kind come back. -/
theorem parseToAddresses_of_clean (h : email.normalize = .ok message)
    (hne : ∀ a ∈ email.recipients, a.toList ≠ [])
    (hclean : ∀ a ∈ email.recipients, ',' ∉ a.toList ∧ NoOuterSpace a.toList) :
    parseToAddresses message = email.recipients := by
  rw [parseToAddresses_eq h]
  cases hrecipients : email.recipients with
  | nil => rfl
  | cons first rest =>
    have hparts : (splitComma (", ".toList.intercalate (email.recipients.map String.toList))).map
        pyStrip = email.recipients.map String.toList := by
      refine splitComma_intercalate (by rw [hrecipients]; exact List.cons_ne_nil _ _) ?_
      intro cs hm
      obtain ⟨a, ha, rfl⟩ := List.mem_map.1 hm
      exact hclean a ha
    have hkept : (email.recipients.map String.toList).filter (· ≠ [])
        = email.recipients.map String.toList := by
      refine List.filter_eq_self.2 fun cs hm => ?_
      obtain ⟨a, ha, rfl⟩ := List.mem_map.1 hm
      exact decide_eq_true (hne a ha)
    rw [← hrecipients, hparts, hkept, List.map_map]
    exact List.map_id'' (fun a => String.ofList_toList) _

/-- White space is no `atext`, short of what lies beyond ASCII. -/
theorem not_space_of_isAtext {c : Char} (hc : c.toNat < 128) (h : AddrSpec.isAtext c = true) :
    isPySpace c = false := by
  have hcontrol : ∀ n < 33, AddrSpec.isAtext (Char.ofNat n) = false := by decide
  by_contra hspace
  have hsmall : c.toNat < 33 := by
    rw [Bool.not_eq_false, isPySpace] at hspace
    simp only [Bool.or_eq_true, Bool.and_eq_true, decide_eq_true_eq, beq_iff_eq] at hspace
    omega
  have hnot := hcontrol c.toNat hsmall
  rw [Char.ofNat_toNat] at hnot
  exact Bool.false_ne_true (hnot.symm.trans h)

theorem noOuterSpace_of_ascii {cs : List Char} (h : AddrSpec.Valid cs)
    (hascii : ∀ c ∈ cs, c.toNat < 128) : NoOuterSpace cs where
  front c hc := by
    rcases h.first c hc with rfl | hatext
    · rfl
    · exact not_space_of_isAtext (hascii c (List.mem_of_mem_head? hc)) hatext
  behind c hc := by
    rcases h.last c hc with rfl | hatext
    · rfl
    · exact not_space_of_isAtext (hascii c (List.mem_of_getLast? hc)) hatext

/-- **When a recipient list survives.**  The addresses come back, in their order, exactly if none of
them has a comma in it or white space around it.  An ASCII address has no white space around it. -/
theorem parseToAddresses_normalize_iff (h : email.normalize = .ok message)
    (hvalid : ∀ a ∈ email.recipients, AddrSpec.Valid a.toList) :
    (parseToAddresses message = email.recipients ↔
      ∀ a ∈ email.recipients, ',' ∉ a.toList ∧ NoOuterSpace a.toList) ∧
    ((∀ a ∈ email.recipients, ∀ c ∈ a.toList, c.toNat < 128) →
      (parseToAddresses message = email.recipients ↔ ∀ a ∈ email.recipients, ',' ∉ a.toList)) := by
  have hiff : parseToAddresses message = email.recipients ↔
      ∀ a ∈ email.recipients, ',' ∉ a.toList ∧ NoOuterSpace a.toList :=
    ⟨fun hback a ha => of_mem_parseToAddresses (hback ▸ ha),
      parseToAddresses_of_clean h fun a ha => (hvalid a ha).ne_nil⟩
  refine ⟨hiff, fun hascii => hiff.trans ?_⟩
  refine forall₂_congr fun a ha => and_iff_left ?_
  exact noOuterSpace_of_ascii (hvalid a ha) (hascii a ha)

end Header

/-! ### A list that does not survive -/

/-- An email to these addresses. -/
def letterTo (addresses : List String) : JmapEmail :=
  { id := some "m1", threadId := some "t1", toAddresses := some (addresses.map some) }

theorem valid_of_text (localPart first last : List Char) (hlocal : AddrSpec.LocalPart localPart)
    (hfirst : first ≠ [] ∧ first.all AddrSpec.isAtext = true)
    (hlast : last ≠ [] ∧ last.all AddrSpec.isAtext = true) :
    AddrSpec.Valid (localPart ++ '@' :: (first ++ '.' :: last)) :=
  .mk hlocal (.dotAtom (.dot hfirst.1 (List.all_eq_true.1 hfirst.2)
    (.atom hlast.1 (List.all_eq_true.1 hlast.2))))

/-- Two addresses, one of them with a quoted local part. -/
def twoAddresses : List String := ["jane@example.com", "\"Jane Doe\"@example.org"]

theorem twoAddresses_valid : ∀ a ∈ (letterTo twoAddresses).recipients, AddrSpec.Valid a.toList := by
  intro a ha
  rcases List.mem_pair.1 ha with rfl | rfl
  · exact valid_of_text "jane".toList "example".toList "com".toList
      (.dotAtom (.atom (by decide) (List.all_eq_true.1 (by decide)))) (by decide) (by decide)
  · exact valid_of_text ('"' :: ("Jane Doe".toList ++ ['"'])) "example".toList "org".toList
      (.quoted (.of_text (List.all_eq_true.1 (by decide)))) (by decide) (by decide)

theorem twoAddresses_ascii :
    ∀ a ∈ (letterTo twoAddresses).recipients, ∀ c ∈ a.toList, c.toNat < 128 := by
  have hall : ∀ a ∈ twoAddresses, a.toList.all (fun c => decide (c.toNat < 128)) = true :=
    List.forall_mem_cons.2 ⟨by decide, List.forall_mem_singleton.2 (by decide)⟩
  intro a ha c hc
  exact of_decide_eq_true (List.all_eq_true.1 (hall a ha) c hc)

/-- They survive. -/
theorem parseToAddresses_normalize_iff_two : ∃ message,
    (letterTo twoAddresses).normalize = .ok message ∧ parseToAddresses message = twoAddresses :=
  ⟨_, rfl, ((parseToAddresses_normalize_iff rfl twoAddresses_valid).2 twoAddresses_ascii).2
    (by decide)⟩

/-- **A valid address that comes back in two pieces.** -/
theorem quoted_comma_splits : AddrSpec.Valid "\"Doe, J\"@example.com".toList ∧
    ∃ message, (letterTo ["\"Doe, J\"@example.com"]).normalize = .ok message ∧
      parseToAddresses message = ["\"Doe", "J\"@example.com"] := by
  refine ⟨?_, _, rfl, by decide +kernel⟩
  exact valid_of_text ('"' :: ("Doe, J".toList ++ ['"'])) "example".toList "com".toList
    (.quoted (.of_text (List.all_eq_true.1 (by decide)))) (by decide) (by decide)

end Spork
