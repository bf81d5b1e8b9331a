import Mathlib.Data.List.TakeWhile
import Spork.Llm.Html

/-!
# Plain text and the HTML parser

`_strip_html` feeds its text to `HTMLParser` and never closes it.  A text without a `<` therefore
comes out decoded, unless it ends in what may be half of a character reference: then the parser
keeps all of it, and nothing comes out (`stripHtml_plain_iff`).  A text without a reference is not
changed by decoding (`unescape_of_no_charref`), so it passes through unchanged unless it is kept.
-/

set_option autoImplicit false

namespace Spork

open Toml (isDigit isHexDigit)

/-! ## Texts without a reference -/

/-- No `&` of the text begins a character reference. -/
def NoCharref (html5 : Html5) (cs : List Char) : Prop :=
  ∀ before rest, cs = before ++ '&' :: rest → charrefAt html5 rest = none

theorem NoCharref.tail {html5 : Html5} {c : Char} {cs : List Char}
    (h : NoCharref html5 (c :: cs)) : NoCharref html5 cs := fun before rest he =>
  h (c :: before) rest (by rw [he, List.cons_append])

theorem unescapeFrom_of_no_charref {html5 : Html5} :
    ∀ {n : Nat} {cs : List Char}, NoCharref html5 cs → unescapeFrom html5 n cs = .ok cs
  | 0, _, _ => rfl
  | _ + 1, [], _ => rfl
  | n + 1, c :: cs, h => by
    have hnone : (if c = '&' then charrefAt html5 cs else none) = none := by
      split
      · rename_i hc
        exact h [] cs (by rw [hc, List.nil_append])
      · rfl
    rw [unescapeFrom, hnone]
    dsimp only
    rw [unescapeFrom_of_no_charref h.tail]
    rfl

/-- Decoding does not change a text without a reference. -/
theorem unescape_of_no_charref {html5 : Html5} {s : String} (h : NoCharref html5 s.toList) :
    unescape html5 s = .ok s := by
  rw [unescape, unescapeFrom_of_no_charref h]
  exact congrArg Except.ok String.ofList_toList

/-- What is kept is not empty. -/
theorem ne_empty_of_endsInCharref {s : String} (h : endsInCharref s = true) : s ≠ "" := by
  rintro rfl
  exact absurd h (by decide)

/-! ## References that are too long -/

/-- There is a decimal reference with more digits than `int` accepts. -/
def OversizedCharref (cs : List Char) : Prop :=
  ∃ before rest, cs = before ++ '&' :: '#' :: rest ∧ 4300 < (rest.takeWhile isDigit).length

/-- Such a reference starts behind this `&`. -/
def OversizedHere (cs : List Char) : Prop :=
  ∃ rest, cs = '#' :: rest ∧ 4300 < (rest.takeWhile isDigit).length

section Oversized

variable {html5 : Html5} {c : Char} {cs : List Char}

theorem oversizedCharref_cons :
    OversizedCharref (c :: cs) ↔ (c = '&' ∧ OversizedHere cs) ∨ OversizedCharref cs := by
  constructor
  · rintro ⟨before, rest, he, hlong⟩
    cases before with
    | nil =>
      obtain ⟨rfl, rfl⟩ := List.cons.inj he
      exact .inl ⟨rfl, rest, rfl, hlong⟩
    | cons b before => exact .inr ⟨before, rest, (List.cons.inj he).2, hlong⟩
  · rintro (⟨rfl, rest, rfl, hlong⟩ | ⟨before, rest, rfl, hlong⟩)
    · exact ⟨[], rest, rfl, hlong⟩
    · exact ⟨c :: before, rest, rfl, hlong⟩

theorem oversizedCharref_append {rest : List Char} : ∀ {taken : List Char}, '&' ∉ taken →
    (OversizedCharref (taken ++ rest) ↔ OversizedCharref rest)
  | [], _ => Iff.rfl
  | c :: taken, h => by
    rw [List.cons_append, oversizedCharref_cons, or_iff_right,
      oversizedCharref_append fun hm => h (List.mem_cons_of_mem c hm)]
    rintro ⟨rfl, -⟩
    exact h List.mem_cons_self

theorem dropSemicolon_eq (cs : List Char) :
    ∃ taken, cs = taken ++ dropSemicolon cs ∧ '&' ∉ taken := by
  rw [dropSemicolon.eq_def]
  split
  · exact ⟨[';'], rfl, by decide⟩
  · exact ⟨[], rfl, List.not_mem_nil⟩

/-- What a reference takes: no other `&`, and it is rejected if it is too long. -/
structure CharrefTaken (cs : List Char) (value : Except Exn (List Char)) (rest : List Char) :
    Prop where
  taken : ∃ taken, cs = taken ++ rest ∧ '&' ∉ taken
  rejected : (∃ text, value = .ok text) ↔ ¬OversizedHere cs

/-- Digits and an optional semicolon. -/
theorem digits_taken (isDig : Char → Bool) (hamp : isDig '&' = false) (cs : List Char) :
    ∃ taken, cs = taken ++ dropSemicolon (cs.dropWhile isDig) ∧ '&' ∉ taken := by
  obtain ⟨semicolon, hrest, hsemicolon⟩ := dropSemicolon_eq (cs.dropWhile isDig)
  refine ⟨cs.takeWhile isDig ++ semicolon, ?_, ?_⟩
  · rw [List.append_assoc, ← hrest, List.takeWhile_append_dropWhile]
  · intro hm
    rcases List.mem_append.1 hm with hm | hm
    · exact Bool.false_ne_true (hamp.symm.trans (List.mem_takeWhile_imp hm))
    · exact hsemicolon hm

theorem hexadecimal_taken {x : Char} (hx : isDigit x = false) (hamp : x ≠ '&')
    {value : Except Exn (List Char)} {rest : List Char}
    (h : charrefAt.hexadecimal cs = some (value, rest)) :
    CharrefTaken ('#' :: x :: cs) value rest := by
  rw [charrefAt.hexadecimal] at h
  split at h
  · cases h
  · cases h
    obtain ⟨taken, hcs, htaken⟩ := digits_taken isHexDigit (by decide) cs
    refine ⟨⟨'#' :: x :: taken, ?_, ?_⟩, iff_of_true ⟨_, rfl⟩ ?_⟩
    · rw [List.cons_append, List.cons_append, ← hcs]
    · intro hm
      rcases List.mem_cons.1 hm with he | hm
      · exact absurd he (by decide)
      rcases List.mem_cons.1 hm with he | hm
      · exact hamp he.symm
      · exact htaken hm
    · rintro ⟨rest, he, hlong⟩
      cases he
      rw [List.takeWhile_cons, hx, if_neg Bool.false_ne_true] at hlong
      exact absurd hlong (by decide)

theorem intOfDigits_ok_iff (ds : List Char) :
    (∃ n, intOfDigits ds = .ok n) ↔ ¬4300 < ds.length := by
  rw [intOfDigits]
  split
  · next hlong => exact iff_of_false (by rintro ⟨_, ⟨⟩⟩) fun h => h hlong
  · next hshort => exact iff_of_true ⟨_, rfl⟩ hshort

theorem decimal_ok_iff (tail : List Char) :
    (∃ text, (intOfDigits (tail.takeWhile isDigit)).map numericCharref = .ok text) ↔
      ¬OversizedHere ('#' :: tail) := by
  have hhere : OversizedHere ('#' :: tail) ↔ 4300 < (tail.takeWhile isDigit).length := by
    refine ⟨?_, fun hlong => ⟨tail, rfl, hlong⟩⟩
    rintro ⟨_, ⟨⟩, hlong⟩
    exact hlong
  rw [hhere, ← intOfDigits_ok_iff]
  cases intOfDigits (tail.takeWhile isDigit) with
  | ok n => exact iff_of_true ⟨_, rfl⟩ ⟨_, rfl⟩
  | error e => exact iff_of_false (by rintro ⟨_, ⟨⟩⟩) (by rintro ⟨_, ⟨⟩⟩)

/-- A name has no `&` in it. -/
theorem name_taken (cs : List Char) :
    cs = (cs.take 32).takeWhile isNameChar ++ cs.drop ((cs.take 32).takeWhile isNameChar).length ∧
      '&' ∉ (cs.take 32).takeWhile isNameChar := by
  have hprefix : (cs.take 32).takeWhile isNameChar <+: cs :=
    (List.takeWhile_prefix _).trans (List.take_prefix 32 cs)
  exact ⟨(List.prefix_iff_eq_append.1 hprefix).symm,
    fun hm => absurd (List.mem_takeWhile_imp hm) (by decide)⟩

/-- Only a decimal reference can be rejected. -/
theorem charrefAt_taken {value : Except Exn (List Char)} {rest : List Char}
    (h : charrefAt html5 cs = some (value, rest)) : CharrefTaken cs value rest := by
  rw [charrefAt.eq_def] at h
  split at h
  · exact hexadecimal_taken (by decide) (by decide) h
  · exact hexadecimal_taken (by decide) (by decide) h
  · next tail _ _ =>
    dsimp only at h
    split at h
    · cases h
    · cases h
      obtain ⟨taken, hcs, htaken⟩ := digits_taken isDigit (by decide) tail
      refine ⟨⟨'#' :: taken, congrArg ('#' :: ·) hcs, ?_⟩, decimal_ok_iff tail⟩
      intro hm
      rcases List.mem_cons.1 hm with he | hm
      · exact absurd he (by decide)
      · exact htaken hm
  · next hnumeric =>
    have hnot : ¬OversizedHere cs := by
      rintro ⟨tail, rfl, -⟩
      exact hnumeric tail rfl
    obtain ⟨hname, hamp⟩ := name_taken cs
    dsimp only at h
    split at h
    · cases h
    split at h
    · next hsemicolon =>
      obtain ⟨text, -, he⟩ := Option.map_eq_some_iff.1 h
      obtain ⟨behind, hbehind⟩ := List.head?_eq_some_iff.1 hsemicolon
      cases he
      refine ⟨⟨(cs.take 32).takeWhile isNameChar ++ [';'], ?_, ?_⟩, iff_of_true ⟨_, rfl⟩ hnot⟩
      · rw [hbehind, List.tail_cons, List.append_assoc]
        exact hname.trans (by rw [hbehind]; rfl)
      · intro hm
        rcases List.mem_append.1 hm with hm | hm
        · exact hamp hm
        · exact absurd (List.mem_singleton.1 hm) (by decide)
    · obtain ⟨text, -, he⟩ := Option.map_eq_some_iff.1 h
      cases he
      exact ⟨⟨_, hname, hamp⟩, iff_of_true ⟨_, rfl⟩ hnot⟩

theorem CharrefTaken.oversizedCharref {value : Except Exn (List Char)} {rest : List Char}
    (h : CharrefTaken cs value rest) :
    OversizedCharref ('&' :: cs) ↔ (¬∃ text, value = .ok text) ∨ OversizedCharref rest := by
  obtain ⟨taken, hcs, hamp⟩ := h.taken
  rw [oversizedCharref_cons, h.rejected, not_not]
  refine or_congr (and_iff_right rfl) ?_
  rw [hcs]
  exact oversizedCharref_append hamp

theorem not_oversizedCharref_nil : ¬OversizedCharref [] := by
  rintro ⟨before, rest, he, -⟩
  exact List.append_ne_nil_of_right_ne_nil _ (List.cons_ne_nil _ _) he.symm

/-- A reference that is none is not too long either. -/
theorem not_oversizedHere (h : charrefAt html5 cs = none) : ¬OversizedHere cs := by
  rintro ⟨tail, rfl, hlong⟩
  have hdigits : ∀ {x : Char} {cs : List Char}, isDigit x = false →
      ¬4300 < ((x :: cs).takeWhile isDigit).length := by
    intro x cs hx
    rw [List.takeWhile_cons, hx, if_neg Bool.false_ne_true, List.length_nil]
    omega
  rw [charrefAt.eq_def] at h
  split at h
  · next he =>
    cases he
    exact hdigits (by decide) hlong
  · next he =>
    cases he
    exact hdigits (by decide) hlong
  · next he =>
    cases he
    dsimp only at h
    split at h
    · next hnone =>
      rw [hnone] at hlong
      exact absurd hlong (by decide)
    · cases h
  · next hnumeric => exact hnumeric tail rfl

/-- A text can be decoded exactly if no decimal reference in it is too long. -/
theorem unescapeFrom_ok_iff (html5 : Html5) : ∀ {n : Nat} {cs : List Char}, cs.length ≤ n →
    ((∃ text, unescapeFrom html5 n cs = .ok text) ↔ ¬OversizedCharref cs)
  | 0, [], _ => iff_of_true ⟨_, rfl⟩ not_oversizedCharref_nil
  | n + 1, [], _ => iff_of_true ⟨_, rfl⟩ not_oversizedCharref_nil
  | n + 1, c :: cs, hn => by
    have hn' : cs.length ≤ n := Nat.le_of_succ_le_succ hn
    rw [unescapeFrom]
    cases hat : if c = '&' then charrefAt html5 cs else none with
    | none =>
      have hhere : ¬(c = '&' ∧ OversizedHere cs) := by
        rintro ⟨hc, hhere⟩
        rw [if_pos hc] at hat
        exact not_oversizedHere hat hhere
      rw [oversizedCharref_cons, or_iff_right hhere, ← unescapeFrom_ok_iff html5 hn']
      dsimp only
      cases unescapeFrom html5 n cs with
      | ok text => exact iff_of_true ⟨_, rfl⟩ ⟨_, rfl⟩
      | error e => exact iff_of_false (by rintro ⟨_, ⟨⟩⟩) (by rintro ⟨_, ⟨⟩⟩)
    | some found =>
      obtain ⟨value, rest⟩ := found
      obtain ⟨rfl, hat⟩ : c = '&' ∧ charrefAt html5 cs = some (value, rest) := by
        split at hat
        · exact ⟨‹_›, hat⟩
        · cases hat
      have htaken := charrefAt_taken hat
      have hrest : rest.length ≤ n := by
        obtain ⟨taken, hcs, -⟩ := htaken.taken
        rw [hcs, List.length_append] at hn'
        omega
      rw [htaken.oversizedCharref, not_or, not_not, ← unescapeFrom_ok_iff html5 hrest]
      dsimp only
      cases value with
      | error e => exact iff_of_false (by rintro ⟨_, ⟨⟩⟩) (by rintro ⟨⟨_, ⟨⟩⟩, -⟩)
      | ok value =>
        cases unescapeFrom html5 n rest with
        | ok text => exact iff_of_true ⟨_, rfl⟩ ⟨⟨_, rfl⟩, _, rfl⟩
        | error e => exact iff_of_false (by rintro ⟨_, ⟨⟩⟩) (by rintro ⟨-, _, ⟨⟩⟩)

theorem unescape_ok_iff (html5 : Html5) {s : String} :
    (∃ text, unescape html5 s = .ok text) ↔ ¬OversizedCharref s.toList := by
  rw [← unescapeFrom_ok_iff html5 (Nat.le_refl s.toList.length), unescape]
  cases unescapeFrom html5 s.toList.length s.toList with
  | ok text => exact iff_of_true ⟨_, rfl⟩ ⟨_, rfl⟩
  | error e => exact iff_of_false (by rintro ⟨_, ⟨⟩⟩) (by rintro ⟨_, ⟨⟩⟩)

/-- A text without a `<` is accepted by the parser exactly if it is kept or can be decoded. -/
theorem feed_ok_iff {parser : HtmlParser} {s : String} (h : parser.FeedsPlainText html5)
    (hs : '<' ∉ s.toList) : (∃ chunks, parser.feed s = .ok chunks) ↔
      endsInCharref s = true ∨ ¬OversizedCharref s.toList := by
  cases hkept : endsInCharref s with
  | true => exact iff_of_true ⟨_, h.buffers s hs hkept⟩ (.inl rfl)
  | false =>
    rw [or_iff_right Bool.false_ne_true, ← unescape_ok_iff html5,
      ← h.passes s hs hkept]
    cases parser.feed s with
    | ok chunks => exact iff_of_true ⟨_, rfl⟩ ⟨_, rfl⟩
    | error e => exact iff_of_false (by rintro ⟨_, ⟨⟩⟩) (by rintro ⟨_, ⟨⟩⟩)

end Oversized

/-! ## What comes out -/

section Strip

variable {parser : HtmlParser} {html5 : Html5} {s : String}

/-- What is kept does not come out. -/
theorem stripHtml_of_kept (h : parser.FeedsPlainText html5) (hs : '<' ∉ s.toList)
    (hkept : endsInCharref s = true) : stripHtml parser s = .ok "" := by
  rw [stripHtml, h.buffers s hs hkept]
  rfl

/-- Everything else comes out decoded. -/
theorem stripHtml_of_passed (h : parser.FeedsPlainText html5) (hs : '<' ∉ s.toList)
    (hpassed : endsInCharref s = false) : stripHtml parser s = unescape html5 s :=
  h.passes s hs hpassed

/-- **When stripping drops no plain text.**  A text without a `<` comes out decoded exactly if it
can be decoded and is not kept by the parser, or decodes to nothing anyway.  One without a reference
comes out as it is exactly if it is not kept. -/
theorem stripHtml_plain_iff (h : parser.FeedsPlainText html5) (hs : '<' ∉ s.toList) :
    ((∃ text, unescape html5 s = .ok text ∧ stripHtml parser s = .ok text) ↔
      ∃ text, unescape html5 s = .ok text ∧ (endsInCharref s = true → text = "")) ∧
    (NoCharref html5 s.toList → (stripHtml parser s = .ok s ↔ endsInCharref s = false)) := by
  cases hkept : endsInCharref s with
  | false =>
    rw [stripHtml_of_passed h hs hkept]
    refine ⟨exists_congr fun text => ?_, fun hnone => ?_⟩
    · exact and_congr_right fun htext => iff_of_true htext fun hk => by cases hk
    · exact iff_of_true (unescape_of_no_charref hnone) rfl
  | true =>
    rw [stripHtml_of_kept h hs hkept]
    refine ⟨exists_congr fun text => and_congr_right fun _ => ?_, fun _ => ?_⟩
    · constructor
      · intro htext _
        exact (Except.ok.inj htext).symm
      · intro htext
        rw [htext rfl]
    · refine iff_of_false (fun hsame => ?_) (fun hk => by cases hk)
      exact ne_empty_of_endsInCharref hkept (Except.ok.inj hsame).symm

end Strip

/-! ### A body that is dropped -/

/-- A few of the named references. -/
def commonCharrefs : Html5 := fun name =>
  [("amp;", '&'), ("amp", '&'), ("lt;", '<'), ("lt", '<'), ("gt;", '>'), ("gt", '>'),
    ("quot;", '"'), ("quot", '"')].findSome? fun entry =>
      if entry.1.toList = name then some [entry.2] else none

/-- A parser for texts without markup. -/
def HtmlParser.plain (html5 : Html5) : HtmlParser where
  feed s := if endsInCharref s then .ok [] else (unescape html5 s).map fun text => [text]

theorem HtmlParser.plain_feedsPlainText (html5 : Html5) :
    (HtmlParser.plain html5).FeedsPlainText html5 where
  passes s _ hpassed := by
    rw [plain]
    simp only [hpassed, Bool.false_eq_true, if_false]
    cases unescape html5 s with
    | ok text => exact congrArg Except.ok String.empty_append
    | error e => rfl
  buffers s _ hkept := by
    rw [plain]
    simp only [hkept, if_true]

/-- A text with a reference comes out decoded. -/
theorem stripHtml_plain_iff_decoded :
    ∃ text, unescape commonCharrefs "fish &amp; chips" = .ok text ∧
      stripHtml (.plain commonCharrefs) "fish &amp; chips" = .ok text :=
  (stripHtml_plain_iff (HtmlParser.plain_feedsPlainText commonCharrefs) (by decide +kernel)).1.2
    ⟨"fish & chips", by decide +kernel, by decide +kernel⟩

/-- **A plain body that is dropped.** -/
theorem stripHtml_drops_body : (HtmlParser.plain commonCharrefs).FeedsPlainText commonCharrefs ∧
    '<' ∉ "AT&T".toList ∧ NoCharref commonCharrefs "AT&T".toList ∧
    unescape commonCharrefs "AT&T" = .ok "AT&T" ∧
    stripHtml (.plain commonCharrefs) "AT&T" = .ok "" := by
  refine ⟨HtmlParser.plain_feedsPlainText _, by decide +kernel, ?_, by decide +kernel,
    by decide +kernel⟩
  intro before rest h
  have htext : "AT&T".toList = ['A', 'T', '&', 'T'] := by decide +kernel
  have hsplit : before = ['A', 'T'] ∧ rest = ['T'] := by
    simpa [htext, List.cons_eq_append_iff] using h
  rw [hsplit.2]
  decide +kernel

end Spork
