import Mathlib.Data.List.DropRight
import Mathlib.Order.Bounds.Basic
import Spork.Regex
import Spork.Guarantees.Markup

/-!
# Cleaned bodies

What `clean_body` promises of its result.

* `quoteMarkers` are `_QUOTE_MARKERS` as patterns, and `isQuoteMarker_iff` says that the tests the
  model runs are matches of them.
* `collapseQuoteChain_quoteFree`: the quoted history is cut off at the first match, and no new match
  arises at the cut (`quoteMarkerAt_append`).
* `cleanBody_cleaned_iff`: the result is bounded and free of blank runs whenever there is one, and
  there is one exactly if every piece of the text is accepted: neither a decimal character reference
  too long for `int` nor a marked section of an unknown kind.
-/

set_option autoImplicit false

namespace Spork

open Regex
open Toml (isDigit)

/-! ## The quote markers as patterns -/

/-- The characters of a literal, with `re.IGNORECASE`. -/
def ignoringCase (literal : String) : Pattern :=
  (literal.toList.map Char.toLower).map fun p => .char (matchesLetter p)

/-- `\s*`. -/
def spaces : Item := .repeated isPySpace 0 none

/-- `^>`. -/
def quotedLine : Pattern := [.lineStart, .char (· == '>')]

/-- `^On .{0,120}wrote:\s*$`. -/
def replyIntro : Pattern :=
  .lineStart :: (ignoringCase "On " ++ .repeated (· != '\n') 0 (some 120) ::
    (ignoringCase "wrote:" ++ [spaces, .lineEnd]))

/-- `^-{3,}\s*Original Message\s*-{3,}`. -/
def originalMessage : Pattern :=
  .lineStart :: .repeated (· == '-') 3 none :: spaces ::
    (ignoringCase "Original Message" ++ [spaces, .repeated (· == '-') 3 none])

/-- `^_{10,}\s*$`. -/
def separatorLine : Pattern := [.lineStart, .repeated (· == '_') 10 none, spaces, .lineEnd]

/-- `_QUOTE_MARKERS`. -/
def quoteMarkers : List Pattern := [quotedLine, replyIntro, originalMessage, separatorLine]

/-- One of the markers matches at this position. -/
def QuoteMarkerAt (text : List Char) (i : Nat) : Prop :=
  ∃ pattern ∈ quoteMarkers, FitsAt pattern text i

/-- Nothing stands in front of this position on its line. -/
def AtLineStart (prev : Option Char) : Prop := ∀ c ∈ prev, c = '\n'

section Matches

variable {items : Pattern} {prev : Option Char} {cs : List Char}

theorem noLineStart_letters (literal : List Char) (h : NoLineStart items) :
    NoLineStart (literal.map (fun p => Item.char (matchesLetter p)) ++ items) := by
  intro hm
  rcases List.mem_append.1 hm with hm | hm
  · obtain ⟨_, -, ⟨⟩⟩ := List.mem_map.1 hm
  · exact h hm

theorem fits_letters (h : NoLineStart items) : ∀ (literal : List Char) (prev : Option Char)
    (cs : List Char), Fits (literal.map (fun p => Item.char (matchesLetter p)) ++ items) prev cs ↔
      ∃ rest, dropLiteral literal cs = some rest ∧ Fits items none rest
  | [], _, _ => by
    simp only [List.map_nil, List.nil_append, dropLiteral, Option.some_inj, exists_eq_left']
    exact fits_prev h
  | p :: ps, _, [] => by
    simp only [List.map_cons, List.cons_append, Fits, dropLiteral, reduceCtorEq, false_and,
      exists_false]
  | p :: ps, prev, c :: cs => by
    have hcons : Fits (.char (matchesLetter p) ::
          (ps.map (fun p => Item.char (matchesLetter p)) ++ items)) prev (c :: cs) ↔
        matchesLetter p c = true ∧
          Fits (ps.map (fun p => Item.char (matchesLetter p)) ++ items) (some c) cs := by
      constructor
      · rintro ⟨_, _, ⟨⟩, hc, hfits⟩
        exact ⟨hc, hfits⟩
      · rintro ⟨hc, hfits⟩
        exact ⟨c, cs, rfl, hc, hfits⟩
    rw [List.map_cons, List.cons_append, dropLiteral, hcons, fits_letters h ps]
    split
    · next hc => exact and_iff_right hc
    · next hc => exact iff_of_false (fun hfits => hc hfits.1) (by rintro ⟨_, ⟨⟩, _⟩)

theorem noLineStart_ignoringCase (literal : String) (h : NoLineStart items) :
    NoLineStart (ignoringCase literal ++ items) := noLineStart_letters _ h

theorem fits_ignoringCase (literal : String) (h : NoLineStart items) :
    Fits (ignoringCase literal ++ items) prev cs ↔ ∃ rest,
      dropLiteral (literal.toList.map Char.toLower) cs = some rest ∧ Fits items none rest :=
  fits_letters h _ prev cs

theorem fits_restOfLineBlank :
    Fits [spaces, .lineEnd] prev cs ↔ restOfLineBlank cs = true := by
  rw [spaces, fits_restOfLine, restOfLineBlank, List.all_eq_true]

theorem noLineStart_spaces (h : NoLineStart items) : NoLineStart (spaces :: items) :=
  noLineStart_cons (fun he => by cases he) h

theorem noLineStart_blank : NoLineStart [spaces, .lineEnd] :=
  noLineStart_spaces (noLineStart_cons nofun noLineStart_nil)

theorem wrote_toLower : "wrote:".toList.map Char.toLower = "wrote:".toList := by decide

/-- `wrote:\s*$`. -/
theorem fits_wrote : Fits (ignoringCase "wrote:" ++ [spaces, .lineEnd]) prev cs ↔
    (dropLiteral "wrote:".toList cs).any restOfLineBlank = true := by
  rw [fits_ignoringCase _ noLineStart_blank, wrote_toLower, Option.any_eq_true]
  exact exists_congr fun rest => and_congr_right fun _ => fits_restOfLineBlank

theorem wroteWithin_zero :
    wroteWithin 0 cs = (dropLiteral "wrote:".toList cs).any restOfLineBlank := by
  cases cs <;> exact Bool.or_false _

theorem wroteWithin_nil (n : Nat) :
    wroteWithin n [] = (dropLiteral "wrote:".toList []).any restOfLineBlank := by
  cases n <;> exact Bool.or_false _

/-- `.{0,n}wrote:\s*$`. -/
theorem fits_wroteWithin : ∀ (n : Nat) (prev : Option Char) (cs : List Char),
    Fits (.repeated (· != '\n') 0 (some n) :: (ignoringCase "wrote:" ++ [spaces, .lineEnd])) prev cs
      ↔ wroteWithin n cs = true
  | 0, prev, cs => by
    rw [fits_repeated_zero 0 (noLineStart_ignoringCase _ noLineStart_blank), fits_wrote,
      wroteWithin_zero]
    refine or_iff_left ?_
    rintro ⟨_, _, _, ⟨⟩, _⟩
  | n + 1, prev, [] => by
    rw [fits_repeated_zero _ (noLineStart_ignoringCase _ noLineStart_blank), fits_wrote,
      wroteWithin_nil]
    refine or_iff_left ?_
    rintro ⟨_, _, _, _, ⟨⟩, _⟩
  | n + 1, prev, c :: cs => by
    rw [fits_repeated_zero _ (noLineStart_ignoringCase _ noLineStart_blank), fits_wrote,
      wroteWithin, Bool.or_eq_true]
    refine or_congr_right ?_
    rw [Bool.and_eq_true, ← fits_wroteWithin n prev cs]
    constructor
    · rintro ⟨_, _, _, ⟨⟩, ⟨⟩, hc, hfits⟩
      exact ⟨hc, hfits⟩
    · rintro ⟨hc, hfits⟩
      exact ⟨n, c, cs, rfl, rfl, hc, hfits⟩

theorem on_toLower : "On ".toList.map Char.toLower = "on ".toList := by decide

theorem originalMessage_toLower :
    "Original Message".toList.map Char.toLower = "original message".toList := by decide

/-- The first character of a line start's pattern. -/
theorem fits_lineStart : Fits (.lineStart :: items) none cs ↔ Fits items none cs :=
  and_iff_right fun _ h => by cases h

theorem fits_quotedLine : Fits quotedLine none cs ↔ (cs.head? == some '>') = true := by
  rw [quotedLine, fits_lineStart, beq_iff_eq]
  constructor
  · rintro ⟨c, rest, rfl, hc, -⟩
    rw [List.head?_cons, eq_of_beq hc]
  · intro hhead
    obtain ⟨rest, rfl⟩ := List.head?_eq_some_iff.1 hhead
    exact ⟨'>', rest, rfl, rfl, trivial⟩

theorem fits_replyIntro : Fits replyIntro none cs ↔ isReplyIntro cs = true := by
  have hno : NoLineStart (.repeated (· != '\n') 0 (some 120) ::
      (ignoringCase "wrote:" ++ [spaces, .lineEnd])) :=
    noLineStart_cons nofun (noLineStart_ignoringCase "wrote:" noLineStart_blank)
  rw [replyIntro, fits_lineStart, fits_ignoringCase _ hno, on_toLower, isReplyIntro,
    Option.any_eq_true]
  exact exists_congr fun rest => and_congr_right fun _ => fits_wroteWithin 120 none rest

/-- `\s*` in front of what cannot start with white space. -/
theorem fits_spaces (h : NoLineStart items)
    (hnext : ∀ c rest, isPySpace c = true → ¬Fits items none (c :: rest)) :
    Fits (spaces :: items) prev cs ↔ Fits items none (cs.dropWhile isPySpace) := by
  rw [spaces, fits_repeated_all 0 h hnext]
  exact and_iff_right (Nat.zero_le _)

theorem fits_dashes : Fits [.repeated (· == '-') 3 none] prev cs ↔
    decide (3 ≤ (cs.takeWhile (· == '-')).length) = true := by
  rw [fits_repeated_last, decide_eq_true_iff]

theorem noLineStart_dashes : NoLineStart [.repeated (· == '-') 3 none] :=
  noLineStart_cons (fun h => by cases h) noLineStart_nil

/-- `\s*-{3,}`. -/
theorem fits_spaces_dashes : Fits [spaces, .repeated (· == '-') 3 none] prev cs ↔
    decide (3 ≤ ((cs.dropWhile isPySpace).takeWhile (· == '-')).length) = true := by
  rw [fits_spaces noLineStart_dashes, fits_dashes]
  intro c rest hc hfits
  rw [fits_dashes, decide_eq_true_iff] at hfits
  have hdash : (c == '-') = false := by
    cases hcd : c == '-' with
    | false => rfl
    | true =>
      rw [eq_of_beq hcd] at hc
      exact absurd hc (by decide)
  rw [List.takeWhile_cons, hdash, if_neg Bool.false_ne_true] at hfits
  exact absurd hfits (by decide)

/-- The literal starts with an `o`, which is neither a dash nor white space. -/
theorem not_fits_original {c : Char} (hno : NoLineStart items) (hc : matchesLetter 'o' c = false) :
    ¬Fits (ignoringCase "Original Message" ++ items) none (c :: cs) := by
  intro hfits
  obtain ⟨rest, hrest, -⟩ := (fits_ignoringCase _ hno).1 hfits
  have hletters : "Original Message".toList.map Char.toLower = 'o' :: "riginal message".toList := by
    decide
  rw [hletters, dropLiteral, hc] at hrest
  cases hrest

theorem not_matchesLetter_of_space {c : Char} (h : isPySpace c = true) :
    matchesLetter 'o' c = false := by
  by_contra hmatch
  have hcases : c = 'o' ∨ c = 'O' := by
    simpa [matchesLetter, or_iff_not_imp_left] using hmatch
  rcases hcases with rfl | rfl <;> exact absurd h (by decide)

theorem fits_originalMessage : Fits originalMessage none cs ↔ isOriginalMessage cs = true := by
  have hno := noLineStart_spaces noLineStart_dashes
  have hliteral := noLineStart_ignoringCase "Original Message" hno
  have hspace : ∀ c rest, isPySpace c = true → ¬Fits (ignoringCase "Original Message" ++
      [spaces, .repeated (· == '-') 3 none]) none (c :: rest) :=
    fun c rest hc => not_fits_original hno (not_matchesLetter_of_space hc)
  have hdash : ∀ c rest, (c == '-') = true → ¬Fits (spaces :: (ignoringCase "Original Message" ++
      [spaces, .repeated (· == '-') 3 none])) none (c :: rest) := by
    intro c rest hc hfits
    rw [eq_of_beq hc, fits_spaces hliteral hspace] at hfits
    exact not_fits_original hno (by decide) hfits
  rw [originalMessage, fits_lineStart,
    fits_repeated_all 3 (noLineStart_spaces hliteral) hdash, fits_spaces hliteral hspace,
    fits_ignoringCase _ hno, originalMessage_toLower, isOriginalMessage, Bool.and_eq_true,
    decide_eq_true_iff, Option.any_eq_true]
  exact and_congr_right fun _ => exists_congr fun rest => and_congr_right fun _ =>
    fits_spaces_dashes

theorem fits_separatorLine : Fits separatorLine none cs ↔ isSeparatorLine cs = true := by
  have hnext : ∀ c rest, (c == '_') = true → ¬Fits [spaces, .lineEnd] none (c :: rest) := by
    intro c rest hc hfits
    rw [eq_of_beq hc, fits_restOfLineBlank, restOfLineBlank, List.takeWhile_cons] at hfits
    cases hfits
  rw [separatorLine, fits_lineStart, fits_repeated_all 10 noLineStart_blank hnext,
    fits_restOfLineBlank, isSeparatorLine, Bool.and_eq_true, decide_eq_true_iff]

/-- **The tests are the patterns.** -/
theorem isQuoteMarker_iff :
    isQuoteMarker cs = true ↔ ∃ pattern ∈ quoteMarkers, Fits pattern none cs := by
  rw [isQuoteMarker, Bool.or_eq_true, Bool.or_eq_true, Bool.or_eq_true, ← fits_quotedLine,
    ← fits_replyIntro, ← fits_originalMessage, ← fits_separatorLine]
  simp only [quoteMarkers, List.mem_cons, List.not_mem_nil, or_false, exists_eq_or_imp,
    exists_eq_left, or_assoc]

end Matches

/-! ## The cut -/

/-- Every marker starts at a line start. -/
theorem quoteMarkers_lineStart : ∀ pattern ∈ quoteMarkers,
    ∃ items, pattern = .lineStart :: items ∧ NoLineStart items := by
  have hblank := noLineStart_blank
  have hdashes := noLineStart_dashes
  intro pattern hm
  simp only [quoteMarkers, List.mem_cons, List.not_mem_nil, or_false] at hm
  rcases hm with rfl | rfl | rfl | rfl
  · exact ⟨_, rfl, noLineStart_cons nofun noLineStart_nil⟩
  · exact ⟨_, rfl, noLineStart_ignoringCase _
      (noLineStart_cons nofun (noLineStart_ignoringCase _ hblank))⟩
  · exact ⟨_, rfl, noLineStart_cons nofun
      (noLineStart_spaces (noLineStart_ignoringCase _ (noLineStart_spaces hdashes)))⟩
  · exact ⟨_, rfl, noLineStart_cons nofun hblank⟩

theorem quoteMarkerAt_iff {text : List Char} {i : Nat} : QuoteMarkerAt text i ↔
    i ≤ text.length ∧ AtLineStart (text.take i).getLast? ∧
      isQuoteMarker (text.drop i) = true := by
  rw [isQuoteMarker_iff]
  constructor
  · rintro ⟨pattern, hm, hi, hfits⟩
    obtain ⟨items, rfl, hno⟩ := quoteMarkers_lineStart pattern hm
    exact ⟨hi, hfits.1, _, hm, fits_lineStart.2 ((fits_prev hno).1 hfits.2)⟩
  · rintro ⟨hi, hstart, pattern, hm, hfits⟩
    obtain ⟨items, rfl, hno⟩ := quoteMarkers_lineStart pattern hm
    exact ⟨_, hm, hi, hstart, (fits_prev hno).1 (fits_lineStart.1 hfits)⟩

/-- There is no marker at the end of a text. -/
theorem QuoteMarkerAt.lt_length {text : List Char} {i : Nat} (h : QuoteMarkerAt text i) :
    i < text.length := by
  obtain ⟨hi, -, hmarker⟩ := quoteMarkerAt_iff.1 h
  refine Nat.lt_of_le_of_ne hi fun he => ?_
  rw [he, List.drop_length] at hmarker
  exact absurd hmarker (by decide)

/-- `collapseFrom`, behind the text `before`: it ends where the first marker stands. -/
theorem collapseFrom_eq_take : ∀ (cs before : List Char) (lineStart : Bool),
    (lineStart = true ↔ AtLineStart before.getLast?) →
      ∃ n ≤ cs.length, collapseFrom lineStart cs = cs.take n ∧
        (∀ i < n, ¬QuoteMarkerAt (before ++ cs) (before.length + i)) ∧
        (n < cs.length → QuoteMarkerAt (before ++ cs) (before.length + n))
  | [], _, _, _ => ⟨0, Nat.le_refl 0, rfl, nofun, nofun⟩
  | c :: cs, before, lineStart, hstart => by
    have hhere : QuoteMarkerAt (before ++ c :: cs) before.length ↔
        (lineStart && isQuoteMarker (c :: cs)) = true := by
      rw [quoteMarkerAt_iff, List.take_left, List.drop_left, Bool.and_eq_true, hstart]
      exact and_iff_right (by rw [List.length_append]; omega)
    rw [collapseFrom]
    split
    · next hmarker =>
      exact ⟨0, Nat.zero_le _, rfl, nofun, fun _ => hhere.2 hmarker⟩
    · next hmarker =>
      have hnext : (c == '\n') = true ↔ AtLineStart (before ++ [c]).getLast? := by
        rw [List.getLast?_concat, AtLineStart, beq_iff_eq]
        exact ⟨fun hc d hd => Option.some.inj hd ▸ hc, fun h => h c rfl⟩
      obtain ⟨n, hn, htake, hbefore, hat⟩ := collapseFrom_eq_take cs (before ++ [c]) _ hnext
      rw [List.append_assoc, List.length_append] at hbefore hat
      refine ⟨n + 1, Nat.succ_le_succ hn, congrArg (c :: ·) htake, ?_, ?_⟩
      · intro i hi
        cases i with
        | zero => exact fun h => hmarker (hhere.1 h)
        | succ i =>
          have := hbefore i (Nat.lt_of_succ_lt_succ hi)
          rwa [Nat.add_assoc, Nat.add_comm [c].length] at this
      · intro hlt
        have := hat (Nat.lt_of_succ_lt_succ hlt)
        rwa [Nat.add_assoc, Nat.add_comm [c].length] at this

theorem collapseQuoteChain_eq_take (text : List Char) :
    ∃ n ≤ text.length, collapseQuoteChain text = text.take n ∧
      (∀ i < n, ¬QuoteMarkerAt text i) ∧ (n < text.length → QuoteMarkerAt text n) := by
  have hstart : true = true ↔ AtLineStart ([] : List Char).getLast? :=
    iff_of_true rfl fun _ hc => by cases hc
  have h := collapseFrom_eq_take text [] true hstart
  rw [collapseQuoteChain]
  simpa only [List.nil_append, List.length_nil, Nat.zero_add] using h

/-! ### No new match at the cut -/

section Cut

variable {prev : Option Char} {cs : List Char}

/-- Literals stay on their line. -/
theorem staysOnLine_ignoringCase {literal : String}
    (h : (literal.toList.map Char.toLower).all (fun p => !matchesLetter p '\n') = true) :
    ∀ item ∈ ignoringCase literal, item.StaysOnLine := by
  intro item hm
  obtain ⟨p, hp, rfl⟩ := List.mem_map.1 hm
  exact (Bool.not_eq_true' _).mp (List.all_eq_true.1 h p hp)

theorem lineEnd_not_mem_ignoringCase (literal : String) :
    Item.lineEnd ∉ ignoringCase literal := by
  intro hm
  obtain ⟨_, -, ⟨⟩⟩ := List.mem_map.1 hm

/-- The reply's introduction without its `\s*$`. -/
def replyIntroLine : Pattern :=
  .lineStart :: (ignoringCase "On " ++ .repeated (· != '\n') 0 (some 120) :: ignoringCase "wrote:")

theorem replyIntro_eq : replyIntro = replyIntroLine ++ [spaces, .lineEnd] := by
  rw [replyIntro, replyIntroLine, List.cons_append, List.append_assoc, List.cons_append]

theorem staysOnLine_replyIntroLine : ∀ item ∈ replyIntroLine, item.StaysOnLine := by
  intro item hm
  rcases List.mem_cons.1 hm with rfl | hm
  · exact trivial
  rcases List.mem_append.1 hm with hm | hm
  · exact staysOnLine_ignoringCase (by decide) item hm
  rcases List.mem_cons.1 hm with rfl | hm
  · exact (by decide : ('\n' != '\n') = false)
  · exact staysOnLine_ignoringCase (by decide) item hm

/-- A marker in front of a line end is one in front of any longer text. -/
theorem fits_quoteMarker_append (tail : List Char) (hline : '\n' ∈ cs) :
    ∀ pattern ∈ quoteMarkers, Fits pattern prev cs → Fits pattern prev (cs ++ tail) := by
  intro pattern hm hfits
  simp only [quoteMarkers, List.mem_cons, List.not_mem_nil, or_false] at hm
  rcases hm with rfl | rfl | rfl | rfl
  · refine fits_append tail ?_ hfits
    simp only [quotedLine, List.mem_cons, List.not_mem_nil, reduceCtorEq, or_self,
      not_false_eq_true]
  · rw [replyIntro_eq] at hfits ⊢
    exact fits_append_restOfLine tail staysOnLine_replyIntroLine hline hfits
  · refine fits_append tail ?_ hfits
    simp only [originalMessage, spaces, List.mem_cons, List.mem_append, List.not_mem_nil,
      reduceCtorEq, lineEnd_not_mem_ignoringCase, or_self, not_false_eq_true]
  · have hstay : ∀ item ∈ [Item.lineStart, .repeated (· == '_') 10 none], item.StaysOnLine := by
      intro item hm
      rcases List.mem_cons.1 hm with rfl | hm
      · exact trivial
      · rw [List.mem_singleton.1 hm]
        exact (by decide : ('\n' == '_') = false)
    exact fits_append_restOfLine tail hstay hline hfits

/-- **No new match arises at a cut**, if the text was cut at a line start. -/
theorem quoteMarkerAt_append {kept : List Char} (tail : List Char)
    (hcut : AtLineStart kept.getLast?) {i : Nat} (h : QuoteMarkerAt kept i) :
    QuoteMarkerAt (kept ++ tail) i := by
  have hlt := h.lt_length
  obtain ⟨pattern, hm, hi, hfits⟩ := h
  have hline : '\n' ∈ kept.drop i := by
    have hne : kept.drop i ≠ [] := fun hnil => by
      have := congrArg List.length hnil
      rw [List.length_drop, List.length_nil] at this
      omega
    have hlast : (kept.drop i).getLast? = kept.getLast? := by
      rw [List.getLast?_drop, if_neg (Nat.not_le.2 hlt)]
    have hnewline : (kept.drop i).getLast hne = '\n' :=
      hcut _ (hlast ▸ List.getLast?_eq_some_getLast hne)
    exact hnewline ▸ List.getLast_mem hne
  refine ⟨pattern, hm, ?_, ?_⟩
  · rw [List.length_append]
    omega
  · rw [List.take_append_of_le_length hi, List.drop_append_of_le_length hi]
    exact fits_quoteMarker_append tail hline pattern hm hfits

/-- The prefix that `_collapse_quote_chain` is to return. -/
structure QuoteFree (text kept : List Char) : Prop where
  first : ∀ i, IsLeast {i | QuoteMarkerAt text i} i → kept = text.take i
  unquoted : (∀ i, ¬QuoteMarkerAt text i) → kept = text
  noMarker : ∀ i, ¬QuoteMarkerAt kept i
  fixed : collapseQuoteChain kept = kept

/-- Without a marker nothing is cut off. -/
theorem collapseQuoteChain_of_noMarker {text : List Char} (h : ∀ i, ¬QuoteMarkerAt text i) :
    collapseQuoteChain text = text := by
  obtain ⟨n, hn, htake, -, hat⟩ := collapseQuoteChain_eq_take text
  have hlength : n = text.length := by
    by_contra hne
    exact h n (hat (Nat.lt_of_le_of_ne hn hne))
  rw [htake, hlength, List.take_length]

/-- **The quoted history is cut off, at its first marker.** -/
theorem collapseQuoteChain_quoteFree (text : List Char) :
    QuoteFree text (collapseQuoteChain text) := by
  obtain ⟨n, hn, htake, hbefore, hat⟩ := collapseQuoteChain_eq_take text
  have hnone : ∀ i, ¬QuoteMarkerAt (collapseQuoteChain text) i := by
    intro i hi
    rw [htake] at hi
    have hin : i < n := by
      have := hi.lt_length
      rwa [List.length_take_of_le hn] at this
    refine hbefore i hin ?_
    rcases Nat.lt_or_eq_of_le hn with hlt | rfl
    · have := quoteMarkerAt_append (text.drop n) (quoteMarkerAt_iff.1 (hat hlt)).2.1 hi
      rwa [List.take_append_drop] at this
    · rwa [List.take_length] at hi
  exact {
    first := fun i hi => by
      have hni : n ≤ i := Nat.le_of_not_lt fun hlt => hbefore i hlt hi.1
      have hin : i ≤ n := hi.2 (hat (Nat.lt_of_le_of_lt hni (QuoteMarkerAt.lt_length hi.1)))
      rw [htake, Nat.le_antisymm hni hin]
    unquoted := collapseQuoteChain_of_noMarker
    noMarker := hnone
    fixed := collapseQuoteChain_of_noMarker hnone }

end Cut

/-! ## The result -/

/-- What is promised of a cleaned body. -/
structure IsCleaned (maxChars : Int) (cleaned : String) : Prop where
  noBlankRun : ¬['\n', '\n', '\n'] <:+: cleaned.toList
  noLeading : ∀ c ∈ cleaned.toList.head?, isPySpace c = false
  noTrailing : ∀ c ∈ cleaned.toList.getLast?, isPySpace c = false
  bounded : 0 ≤ maxChars → (cleaned.length : Int) ≤ maxChars + " ... [truncated]".length

section Cleaned

variable {cs : List Char}

/-- A visible character ends a run of line feeds. -/
theorem noRun_cons {c : Char} {n : Nat} (hn : n ≤ 2) (hc : c ≠ '\n')
    (h : ¬['\n', '\n', '\n'] <:+: cs) :
    ¬['\n', '\n', '\n'] <:+: List.replicate n '\n' ++ c :: cs := by
  have hc' : '\n' ≠ c := hc.symm
  match n with
  | 0 | 1 | 2 =>
    simp only [List.replicate, List.nil_append, List.cons_append, List.infix_cons_iff,
      List.cons_prefix_cons, hc', h, false_and, and_false, or_self, not_false_eq_true]

/-- Behind a run of at most two line feeds there never are three. -/
theorem collapseBlankLines_noRun : ∀ (cs : List Char) {n : Nat}, n ≤ 2 →
    ¬['\n', '\n', '\n'] <:+: List.replicate n '\n' ++ collapseBlankLines n cs
  | [], n, hn => by
    intro h
    have := h.length_le
    rw [collapseBlankLines, List.append_nil, List.length_replicate] at this
    exact absurd (Nat.le_trans this hn) (by decide)
  | c :: cs, n, hn => by
    rw [collapseBlankLines]
    split
    · next hc =>
      split
      · next hlt =>
        have := collapseBlankLines_noRun cs (n := n + 1) hlt
        rw [eq_of_beq hc]
        rwa [List.replicate_succ', List.append_assoc] at this
      · exact collapseBlankLines_noRun cs hn
    · next hc =>
      exact noRun_cons hn (fun he => hc (beq_iff_eq.2 he))
        (collapseBlankLines_noRun cs (n := 0) (Nat.zero_le 2))

theorem collapseBlankLines_length_le : ∀ (n : Nat) (cs : List Char),
    (collapseBlankLines n cs).length ≤ cs.length
  | _, [] => Nat.le_refl 0
  | n, c :: cs => by
    rw [collapseBlankLines]
    split
    · split
      · exact Nat.succ_le_succ (collapseBlankLines_length_le _ cs)
      · exact Nat.le_succ_of_le (collapseBlankLines_length_le _ cs)
    · exact Nat.succ_le_succ (collapseBlankLines_length_le _ cs)

theorem pyStrip_isPrefix (cs : List Char) : pyStrip cs <+: cs.dropWhile isPySpace :=
  List.rdropWhile_prefix isPySpace _

theorem pyStrip_isInfix (cs : List Char) : pyStrip cs <:+: cs :=
  (pyStrip_isPrefix cs).isInfix.trans (List.dropWhile_suffix _).isInfix

theorem pyStrip_noLeading {c : Char} (h : (pyStrip cs).head? = some c) :
    isPySpace c = false := by
  obtain ⟨rest, hrest⟩ := List.head?_eq_some_iff.1 h
  obtain ⟨tail, htail⟩ := pyStrip_isPrefix cs
  have hhead := List.head?_dropWhile_not isPySpace cs
  rw [← htail, hrest] at hhead
  exact hhead

theorem pyStrip_noTrailing {c : Char} (h : (pyStrip cs).getLast? = some c) :
    isPySpace c = false := by
  have hne : pyStrip cs ≠ [] := by
    rintro hnil
    rw [hnil] at h
    cases h
  have hlast : (pyStrip cs).getLast hne = c :=
    Option.some.inj ((List.getLast?_eq_some_getLast hne).symm.trans h)
  exact hlast ▸ Bool.eq_false_of_not_eq_true
    (List.rdropWhile_last_not isPySpace (cs.dropWhile isPySpace) hne)

theorem beforeLastSpace_length_le (cs : List Char) :
    (beforeLastSpace cs).length ≤ cs.length := by
  rw [beforeLastSpace]
  split
  · rw [List.length_reverse, List.length_drop]
    have := (List.dropWhile_suffix (· != ' ') (l := cs.reverse)).length_le
    rw [List.length_reverse] at this
    omega
  · exact Nat.le_refl _

theorem truncate_length_le (cs : List Char) {maxChars : Int} (h : 0 ≤ maxChars) :
    ((truncate cs maxChars).length : Int) ≤ maxChars + " ... [truncated]".length := by
  rw [truncate]
  split
  · omega
  · have hcut := beforeLastSpace_length_le (pyTake cs maxChars)
    have htake : (pyTake cs maxChars).length ≤ maxChars.toNat := by
      rw [pyTake, if_pos h]
      exact List.length_take_le _ _
    rw [List.length_append, String.length_toList]
    omega

theorem cleanStripped_isCleaned (stripped : String) (maxChars : Int) :
    IsCleaned maxChars (cleanStripped stripped maxChars) := by
  rw [cleanStripped]
  exact {
    noBlankRun := by
      rw [String.toList_ofList]
      exact fun h => collapseBlankLines_noRun _ (Nat.zero_le 2) (h.trans (pyStrip_isInfix _))
    noLeading := by
      rw [String.toList_ofList]
      exact fun c hc => pyStrip_noLeading hc
    noTrailing := by
      rw [String.toList_ofList]
      exact fun c hc => pyStrip_noTrailing hc
    bounded := fun h => by
      have hstrip := (pyStrip_isInfix (collapseBlankLines 0
        (truncate (collapseQuoteChain stripped.toList) maxChars))).length_le
      have hblank := collapseBlankLines_length_le 0
        (truncate (collapseQuoteChain stripped.toList) maxChars)
      have htruncate := truncate_length_le (collapseQuoteChain stripped.toList) h
      rw [String.length_ofList]
      omega }

end Cleaned

theorem cleanBody_isCleaned {parser : HtmlParser} {bodyText cleaned : String} {maxChars : Int}
    (h : cleanBody parser bodyText maxChars = .ok cleaned) : IsCleaned maxChars cleaned := by
  rw [cleanBody] at h
  cases hstrip : stripHtml parser bodyText with
  | error e =>
    rw [hstrip] at h
    cases h
  | ok text =>
    rw [hstrip] at h
    cases h
    exact cleanStripped_isCleaned text maxChars

/-- There is a cleaned body exactly if the parser accepts the text. -/
theorem cleanBody_ok_iff (parser : HtmlParser) (bodyText : String) (maxChars : Int) :
    (∃ cleaned, cleanBody parser bodyText maxChars = .ok cleaned ∧ IsCleaned maxChars cleaned) ↔
      ∃ chunks, parser.feed bodyText = .ok chunks := by
  rw [cleanBody, stripHtml]
  cases parser.feed bodyText with
  | ok chunks => exact iff_of_true ⟨_, rfl, cleanStripped_isCleaned _ _⟩ ⟨_, rfl⟩
  | error e => exact iff_of_false (by rintro ⟨_, ⟨⟩, -⟩) (by rintro ⟨_, ⟨⟩⟩)

/-- **When a body can be cleaned.**  A cleaned body is bounded and has no blank runs.  There is one
exactly if every piece that the parser makes of the text is accepted: no decimal reference in a
text or a value is too long, and no marked section is unknown.  Without a `<`, that is if the
parser keeps all of the text or no reference is too long.  The quoted history is always cut off. -/
theorem cleanBody_cleaned_iff (html5 : Html5) (bodyText : String) (maxChars : Int) :
    ((∃ cleaned, cleanBody (htmlParser html5) bodyText maxChars = .ok cleaned ∧
        IsCleaned maxChars cleaned) ↔
      ∀ piece ∈ HtmlParser.pieces bodyText.toList, piece.Accepted) ∧
    ('<' ∉ bodyText.toList →
      ((∃ cleaned, cleanBody (htmlParser html5) bodyText maxChars = .ok cleaned ∧
          IsCleaned maxChars cleaned) ↔
        endsInCharref bodyText = true ∨ ¬OversizedCharref bodyText.toList)) ∧
    (¬"<![".toList <:+: bodyText.toList → ¬OversizedCharref bodyText.toList →
      ∃ cleaned, cleanBody (htmlParser html5) bodyText maxChars = .ok cleaned ∧
        IsCleaned maxChars cleaned) ∧
    ∀ text, QuoteFree text (collapseQuoteChain text) := by
  have hiff := (cleanBody_ok_iff (htmlParser html5) bodyText maxChars).trans
    (feed_ok_iff_accepted html5 bodyText)
  refine ⟨hiff, fun hplain => ?_, fun hsection hcharref => ?_, collapseQuoteChain_quoteFree⟩
  · exact (cleanBody_ok_iff (htmlParser html5) bodyText maxChars).trans
      (feed_ok_iff (htmlParser_feedsPlainText html5) hplain)
  · exact hiff.2 (accepted_of_text hsection hcharref)

/-! ### A body that cannot be cleaned -/

/-- A decimal reference of 4301 digits. -/
def hugeCharref : String :=
  String.ofList ('&' :: '#' :: (List.replicate 4301 '1' ++ [';']))

theorem endsInCharref_semicolon (cs : List Char) :
    endsInCharref (String.ofList (cs ++ [';'])) = false := by
  rw [endsInCharref, String.toList_ofList, List.reverse_append, List.reverse_singleton,
    List.singleton_append, List.takeWhile_cons]
  simp

theorem lt_not_mem_charref (n : Nat) : '<' ∉ '&' :: '#' :: (List.replicate n '1' ++ [';']) := by
  simp [List.mem_replicate]

/-- **Bodies that cannot be cleaned**: one with a reference that is too long, and one with a marked
section that nobody knows. -/
theorem cleanBody_rejects :
    (¬∃ cleaned, cleanBody (htmlParser commonCharrefs) hugeCharref 4000 = .ok cleaned) ∧
    cleanBody (htmlParser commonCharrefs) "<![foo]>" 4000
      = .error ⟨.other "AssertionError", "unknown status keyword 'foo' in marked section"⟩ := by
  have htext : hugeCharref.toList = '&' :: '#' :: (List.replicate 4301 '1' ++ [';']) :=
    String.toList_ofList
  have hplain : '<' ∉ hugeCharref.toList := by
    rw [htext]
    exact lt_not_mem_charref 4301
  have hkept : endsInCharref hugeCharref = false :=
    endsInCharref_semicolon ('&' :: '#' :: List.replicate 4301 '1')
  have hhuge : OversizedCharref hugeCharref.toList := by
    refine ⟨[], _, htext, ?_⟩
    rw [List.takeWhile_append_of_pos fun c hc => by rw [List.eq_of_mem_replicate hc]; rfl,
      List.length_append, List.length_replicate]
    omega
  refine ⟨?_, by decide +kernel⟩
  rintro ⟨cleaned, hcleaned⟩
  rcases (feed_ok_iff (htmlParser_feedsPlainText commonCharrefs) hplain).1
    ((cleanBody_ok_iff _ _ 4000).1 ⟨cleaned, hcleaned, cleanBody_isCleaned hcleaned⟩) with h | h
  · exact Bool.false_ne_true (hkept.symm.trans h)
  · exact h hhuge

end Spork
