import Mathlib.Data.List.Basic

/-!
# Text files

What `Path.read_text` makes of the content of a file.  A file is its decoded content, `none` if
there is no such file; reading changes line ends wherever they stand.

`ReadAs` says what a piece of text becomes in front of anything: a printed file is followed through
reading piece by piece.
-/

set_option autoImplicit false

namespace Spork

/-- What `read_text` makes of line ends: each of `\r\n`, `\r` and `\n` becomes `\n`. -/
def universalNewlines : List Char → List Char
  | [] => []
  | c :: cs =>
    if c = '\r' then
      match cs with
      | '\n' :: cs => '\n' :: universalNewlines cs
      | cs => '\n' :: universalNewlines cs
    else c :: universalNewlines cs

/-- `Path.read_text`, line ends and all. -/
def readText (content : String) : String := String.ofList (universalNewlines content.toList)

/-! ## Line ends -/

theorem universalNewlines_cons {c : Char} (hc : c ≠ '\r') (cs : List Char) :
    universalNewlines (c :: cs) = c :: universalNewlines cs := by
  rw [universalNewlines.eq_def]
  exact if_neg hc

theorem universalNewlines_crlf (cs : List Char) :
    universalNewlines ('\r' :: '\n' :: cs) = '\n' :: universalNewlines cs := by
  rw [universalNewlines.eq_def]
  rfl

theorem universalNewlines_cr {cs : List Char} (h : ∀ ds, cs = '\n' :: ds → False) :
    universalNewlines ('\r' :: cs) = '\n' :: universalNewlines cs := by
  rw [universalNewlines.eq_def]
  simp only [if_true]

/-- No carriage return is left. -/
theorem not_mem_universalNewlines (cs : List Char) : '\r' ∉ universalNewlines cs := by
  induction cs using universalNewlines.induct with
  | case1 => exact List.not_mem_nil
  | case2 cs ih =>
    rw [universalNewlines_crlf, List.mem_cons, not_or]
    exact ⟨by decide, ih⟩
  | case3 cs h ih =>
    rw [universalNewlines_cr h, List.mem_cons, not_or]
    exact ⟨by decide, ih⟩
  | case4 c cs h ih =>
    rw [universalNewlines_cons h, List.mem_cons, not_or]
    exact ⟨fun he => h he.symm, ih⟩

theorem universalNewlines_eq_nil {cs : List Char} (h : universalNewlines cs = []) : cs = [] := by
  cases cs using universalNewlines.induct with
  | case1 => rfl
  | case2 cs _ => rw [universalNewlines_crlf] at h; cases h
  | case3 cs hn _ => rw [universalNewlines_cr hn] at h; cases h
  | case4 c cs hc _ => rw [universalNewlines_cons hc] at h; cases h

theorem readText_eq_empty {s : String} : readText s = "" ↔ s = "" := by
  constructor
  · intro h
    have hl : universalNewlines s.toList = [] := by
      rw [← String.toList_ofList (l := universalNewlines s.toList)]
      exact congrArg String.toList h
    rw [← String.toList_inj]
    exact universalNewlines_eq_nil hl
  · rintro rfl
    rfl

/-! ## Pieces of a file -/

/-- `cs` in front of anything is read as `cs'`. -/
def ReadAs (cs cs' : List Char) : Prop :=
  ∀ rest, universalNewlines (cs ++ rest) = cs' ++ universalNewlines rest

theorem ReadAs.nil : ReadAs [] [] := fun _ => rfl

theorem ReadAs.append {as as' bs bs' : List Char} (ha : ReadAs as as') (hb : ReadAs bs bs') :
    ReadAs (as ++ bs) (as' ++ bs') := by
  intro rest
  rw [List.append_assoc, ha, hb, List.append_assoc]

/-- Text without a carriage return is read as it is. -/
theorem ReadAs.of_not_mem : ∀ {cs : List Char}, '\r' ∉ cs → ReadAs cs cs
  | [], _ => .nil
  | c :: cs, h => by
    intro rest
    have hc : c ≠ '\r' := fun he => h (he ▸ List.mem_cons_self)
    have ih := ReadAs.of_not_mem fun hm => h (List.mem_cons_of_mem c hm)
    rw [List.cons_append, universalNewlines_cons hc, ih, List.cons_append]

theorem ReadAs.intercalate {α : Type} {f g : α → List Char} {sep : List Char} (hs : '\r' ∉ sep) :
    ∀ {xs : List α}, (∀ x ∈ xs, ReadAs (f x) (g x)) →
      ReadAs (sep.intercalate (xs.map f)) (sep.intercalate (xs.map g))
  | [], _ => .nil
  | [x], h => by simpa using h x List.mem_cons_self
  | x :: y :: xs, h => by
    have ih := ReadAs.intercalate hs fun z (hz : z ∈ y :: xs) => h z (List.mem_cons_of_mem x hz)
    simp only [List.map_cons, List.intercalate_cons_cons] at ih ⊢
    exact ((h x List.mem_cons_self).append (.of_not_mem hs)).append ih

end Spork
