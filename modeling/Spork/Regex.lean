import Mathlib.Data.List.Basic
import Mathlib.Data.List.TakeWhile

/-!
# Regular expressions over lines

Patterns that are sequences of single characters, of repeated ones, and of the anchors `^` and `$`
with Python's `re.MULTILINE`.  Whether a pattern matches is declared, not searched for: every item
takes some characters from the front of the text (`Fits`).  A search finds a match at the first
position at which there is one (`FitsAt`), whatever it tries there in which order.
-/

set_option autoImplicit false

namespace Regex

/-- One item of a pattern. -/
inductive Item where
  /-- `^`: the start of the text, or just behind a line feed. -/
  | lineStart
  /-- `$`: the end of the text, or just in front of a line feed. -/
  | lineEnd
  /-- One character. -/
  | char (p : Char → Bool)
  /-- `{min,max}` of them; without `max`, as many as there are. -/
  | repeated (p : Char → Bool) (min : Nat) (max : Option Nat)

/-- A pattern. -/
abbrev Pattern : Type := List Item

/-- The pattern matches at the front of `cs`, behind the character `prev`. -/
def Fits : Pattern → Option Char → List Char → Prop
  | [], _, _ => True
  | .lineStart :: items, prev, cs => (∀ c ∈ prev, c = '\n') ∧ Fits items prev cs
  | .lineEnd :: items, prev, cs => (∀ c ∈ cs.head?, c = '\n') ∧ Fits items prev cs
  | .char p :: items, _, cs => ∃ c rest, cs = c :: rest ∧ p c = true ∧ Fits items (some c) rest
  | .repeated p min max :: items, prev, cs => ∃ taken rest, cs = taken ++ rest ∧
      (∀ c ∈ taken, p c = true) ∧ min ≤ taken.length ∧ (∀ n ∈ max, taken.length ≤ n) ∧
      Fits items (taken.getLast?.or prev) rest

/-- The pattern matches at a position of the text. -/
def FitsAt (pattern : Pattern) (text : List Char) (i : Nat) : Prop :=
  i ≤ text.length ∧ Fits pattern (text.take i).getLast? (text.drop i)

/-- There is no `^` in the pattern. -/
def NoLineStart (pattern : Pattern) : Prop := Item.lineStart ∉ pattern

theorem noLineStart_nil : NoLineStart [] := List.not_mem_nil

theorem noLineStart_cons {item : Item} {items : Pattern} (hitem : Item.lineStart ≠ item)
    (h : NoLineStart items) : NoLineStart (item :: items) :=
  List.not_mem_cons_of_ne_of_not_mem hitem h

section Items

variable {items : Pattern} {prev prev' : Option Char} {cs : List Char} {p : Char → Bool}

/-- What stands in front only matters to `^`. -/
theorem fits_prev : ∀ {items : Pattern} {prev prev' : Option Char} {cs : List Char},
    NoLineStart items → (Fits items prev cs ↔ Fits items prev' cs)
  | [], _, _, _, _ => Iff.rfl
  | .lineStart :: _, _, _, _, h => absurd List.mem_cons_self h
  | .lineEnd :: _, _, _, _, h =>
    and_congr_right fun _ => fits_prev fun hm => h (List.mem_cons_of_mem _ hm)
  | .char _ :: _, _, _, _, _ => Iff.rfl
  | .repeated _ _ _ :: _, _, _, _, h =>
    exists_congr fun _ => exists_congr fun _ => and_congr_right fun _ => and_congr_right fun _ =>
      and_congr_right fun _ => and_congr_right fun _ =>
        fits_prev fun hm => h (List.mem_cons_of_mem _ hm)

/-- A repetition takes no character, or one more. -/
theorem fits_repeated_zero (n : Nat) (h : NoLineStart items) :
    Fits (.repeated p 0 (some n) :: items) prev cs ↔ Fits items prev cs ∨
      ∃ m c rest, n = m + 1 ∧ cs = c :: rest ∧ p c = true ∧
        Fits (.repeated p 0 (some m) :: items) prev rest := by
  constructor
  · rintro ⟨taken, rest, rfl, hp, -, hmax, hrest⟩
    cases taken with
    | nil => exact .inl hrest
    | cons c taken =>
      have hn := hmax n rfl
      rw [List.length_cons] at hn
      refine .inr ⟨n - 1, c, taken ++ rest, by omega, rfl, hp c List.mem_cons_self, taken, rest,
        rfl, fun d hd => hp d (List.mem_cons_of_mem c hd), Nat.zero_le _, ?_, (fits_prev h).1 hrest⟩
      rintro _ ⟨⟩
      omega
  · rintro (hrest | ⟨m, c, rest, rfl, rfl, hc, taken, rest', rfl, hp, -, hmax, hrest⟩)
    · exact ⟨[], cs, rfl, fun _ hc => (by cases hc), Nat.le_refl 0, fun _ _ => Nat.zero_le _, hrest⟩
    · refine ⟨c :: taken, rest', rfl, ?_, Nat.zero_le _, ?_, (fits_prev h).1 hrest⟩
      · rintro d hd
        rcases List.mem_cons.1 hd with rfl | hd
        · exact hc
        · exact hp d hd
      · rintro _ ⟨⟩
        have := hmax m rfl
        rw [List.length_cons]
        omega

/-- If what follows cannot start with such a character, a repetition takes all there are. -/
theorem fits_repeated_all (min : Nat) (h : NoLineStart items)
    (hnext : ∀ c rest, p c = true → ¬Fits items none (c :: rest)) :
    Fits (.repeated p min none :: items) prev cs ↔
      min ≤ (cs.takeWhile p).length ∧ Fits items none (cs.dropWhile p) := by
  constructor
  · rintro ⟨taken, rest, rfl, hp, hmin, -, hrest⟩
    have hrest' : Fits items none rest := (fits_prev h).1 hrest
    have hhead : rest.takeWhile p = [] := by
      cases rest with
      | nil => rfl
      | cons c rest =>
        exact List.takeWhile_cons_of_neg fun hc => hnext c rest hc hrest'
    have hdrop : rest.dropWhile p = rest := by
      cases rest with
      | nil => rfl
      | cons c rest => exact List.dropWhile_cons_of_neg fun hc => hnext c rest hc hrest'
    rw [List.takeWhile_append_of_pos hp, hhead, List.append_nil, List.dropWhile_append_of_pos hp,
      hdrop]
    exact ⟨hmin, hrest'⟩
  · rintro ⟨hmin, hrest⟩
    exact ⟨cs.takeWhile p, cs.dropWhile p, List.takeWhile_append_dropWhile.symm,
      fun c hc => List.mem_takeWhile_imp hc, hmin, fun _ hn => (by cases hn), (fits_prev h).1 hrest⟩

/-- At the end of a pattern, a repetition needs its minimum. -/
theorem fits_repeated_last (min : Nat) :
    Fits [.repeated p min none] prev cs ↔ min ≤ (cs.takeWhile p).length := by
  constructor
  · rintro ⟨taken, rest, rfl, hp, hmin, -, -⟩
    rw [List.takeWhile_append_of_pos hp, List.length_append]
    omega
  · intro hmin
    exact ⟨cs.takeWhile p, cs.dropWhile p, List.takeWhile_append_dropWhile.symm,
      fun c hc => List.mem_takeWhile_imp hc, hmin, fun _ hn => (by cases hn), trivial⟩

/-- `p*$`: the rest of the line is of such characters. -/
theorem fits_restOfLine :
    Fits [.repeated p 0 none, .lineEnd] prev cs ↔ ∀ c ∈ cs.takeWhile (· != '\n'), p c = true := by
  constructor
  · rintro ⟨taken, rest, rfl, hp, -, -, hends, -⟩ c hc
    have hrest : rest.takeWhile (· != '\n') = [] := by
      cases rest with
      | nil => rfl
      | cons d rest =>
        rw [hends d rfl]
        rfl
    rw [List.takeWhile_append, hrest, List.append_nil] at hc
    split at hc
    · exact hp c hc
    · exact hp c ((List.takeWhile_prefix _).mem hc)
  · intro hline
    refine ⟨_, _, List.takeWhile_append_dropWhile.symm, hline, Nat.zero_le _,
      fun _ hn => (by cases hn), ?_, trivial⟩
    intro c hc
    have hfind : cs.find? (· == '\n') = some c :=
      (List.find?_eq_head?_dropWhile_not (· == '\n') cs).trans hc
    exact eq_of_beq (List.find?_some (p := fun d => d == '\n') hfind)

end Items

/-! ## Matches in a longer text -/

section Longer

variable {items : Pattern} {p : Char → Bool}

/-- A match without `$` is one in front of any other text. -/
theorem fits_append (tail : List Char) : ∀ {items : Pattern} {prev : Option Char} {cs : List Char},
    Item.lineEnd ∉ items → Fits items prev cs → Fits items prev (cs ++ tail)
  | [], _, _, _, _ => trivial
  | .lineStart :: _, _, _, hno, ⟨hprev, hfits⟩ =>
    ⟨hprev, fits_append tail (fun hm => hno (List.mem_cons_of_mem _ hm)) hfits⟩
  | .lineEnd :: _, _, _, hno, _ => absurd List.mem_cons_self hno
  | .char _ :: _, _, _, hno, ⟨c, rest, hcs, hc, hfits⟩ =>
    ⟨c, rest ++ tail, by rw [hcs, List.cons_append], hc,
      fits_append tail (fun hm => hno (List.mem_cons_of_mem _ hm)) hfits⟩
  | .repeated _ _ _ :: _, _, _, hno, ⟨taken, rest, hcs, hp, hmin, hmax, hfits⟩ =>
    ⟨taken, rest ++ tail, by rw [hcs, List.append_assoc], hp, hmin, hmax,
      fits_append tail (fun hm => hno (List.mem_cons_of_mem _ hm)) hfits⟩

/-- The item neither takes a line feed nor asks for one. -/
def Item.StaysOnLine : Item → Prop
  | .lineStart => True
  | .lineEnd => False
  | .char p => p '\n' = false
  | .repeated p _ _ => p '\n' = false

/-- Neither does what ends in `p*$`, if the line ends. -/
theorem fits_append_restOfLine (tail : List Char) :
    ∀ {items : Pattern} {prev : Option Char} {cs : List Char},
    (∀ item ∈ items, item.StaysOnLine) → '\n' ∈ cs →
      Fits (items ++ [.repeated p 0 none, .lineEnd]) prev cs →
        Fits (items ++ [.repeated p 0 none, .lineEnd]) prev (cs ++ tail)
  | [], _, cs, _, hline, hfits => by
    have hlength : (cs.takeWhile (· != '\n')).length ≠ cs.length := by
      intro hlength
      have hall := List.takeWhile_eq_self_iff.1 ((List.takeWhile_prefix _).eq_of_length hlength)
      exact absurd (hall _ hline) (by decide)
    rw [List.nil_append, fits_restOfLine] at hfits ⊢
    rwa [List.takeWhile_append, if_neg hlength]
  | .lineStart :: _, _, _, hstay, hline, ⟨hprev, hfits⟩ =>
    ⟨hprev, fits_append_restOfLine tail
      (fun item hm => hstay item (List.mem_cons_of_mem _ hm)) hline hfits⟩
  | .lineEnd :: _, _, _, hstay, _, _ => (hstay _ List.mem_cons_self).elim
  | .char q :: _, _, _, hstay, hline, ⟨c, rest, hcs, hc, hfits⟩ => by
    subst hcs
    have hrest : '\n' ∈ rest := by
      rcases List.mem_cons.1 hline with rfl | hrest
      · exact absurd (hstay _ List.mem_cons_self) (Bool.not_eq_false _ ▸ hc)
      · exact hrest
    exact ⟨c, rest ++ tail, rfl, hc, fits_append_restOfLine tail
      (fun item hm => hstay item (List.mem_cons_of_mem _ hm)) hrest hfits⟩
  | .repeated q _ _ :: _, _, _, hstay, hline, ⟨taken, rest, hcs, hp, hmin, hmax, hfits⟩ => by
    subst hcs
    have hrest : '\n' ∈ rest := by
      rcases List.mem_append.1 hline with htaken | hrest
      · exact absurd (hstay _ List.mem_cons_self) (Bool.not_eq_false _ ▸ hp _ htaken)
      · exact hrest
    exact ⟨taken, rest ++ tail, List.append_assoc _ _ _, hp, hmin, hmax, fits_append_restOfLine tail
      (fun item hm => hstay item (List.mem_cons_of_mem _ hm)) hrest hfits⟩

end Longer

end Regex
