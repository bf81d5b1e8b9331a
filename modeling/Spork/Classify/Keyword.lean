import Spork.Collaborators
import Mathlib.Data.List.MinMax
import Mathlib.Data.List.Infix

/-!
# The keyword classifier

`core/classify/keyword.py`: each category is scored by the share of its keywords that occur in the
message, and the first category with the best score wins.  The quotients are rationals.
-/

set_option autoImplicit false

namespace Spork

/-- A mapping of categories to keywords, in its order. -/
structure CategoryKeywords where
  entries : List (String × List String)
  distinct : (entries.map Prod.fst).Nodup

/-- `DEFAULT_CATEGORY_KEYWORDS`. -/
def defaultCategoryKeywords : CategoryKeywords where
  entries :=
    [("urgent", ["urgent", "asap", "immediately", "deadline", "action required"]),
      ("newsletter", ["unsubscribe", "newsletter", "view in browser"]),
      ("receipt", ["receipt", "invoice", "order confirmation", "payment received"])]
  distinct := by decide

/-- `KeywordClassifier`. -/
structure KeywordClassifier where
  categoryKeywords : CategoryKeywords := defaultCategoryKeywords
  defaultCategory : String := "uncategorized"

namespace KeywordClassifier

/-- What the keywords are looked for in. -/
def text (message : NormalizedMessage) : String := message.subject ++ "\n" ++ message.bodyText

/-- `haystack`. -/
def haystack (message : NormalizedMessage) : String := pyLower (text message)

/-- `keyword.lower() in haystack`. -/
def occurs (haystack keyword : String) : Bool :=
  decide ((pyLower keyword).toList <:+: haystack.toList)

/-- The score of one category. -/
def score (haystack : String) (keywords : List String) : ℚ :=
  if keywords = [] then 0
  else
    let matched := keywords.countP fun keyword => occurs haystack keyword
    (matched : ℚ) / (keywords.length : ℚ)

/-- The loop over the categories.  Their names are distinct, so each assignment adds an entry. -/
def scoresFrom (haystack : String) :
    List (String × List String) → List (String × ℚ) → List (String × ℚ)
  | [], scores => scores
  | (category, keywords) :: entries, scores =>
    scoresFrom haystack entries (scores ++ [(category, score haystack keywords)])

/-- `KeywordClassifier.classify`.  `max` returns the first entry whose key is maximal. -/
def result (classifier : KeywordClassifier) (message : NormalizedMessage) :
    ClassificationResult :=
  let scores := scoresFrom (haystack message) classifier.categoryKeywords.entries []
  match scores.argmax Prod.snd with
  | none => ⟨classifier.defaultCategory, scores⟩
  | some (bestCategory, best) =>
    if best = 0 then ⟨classifier.defaultCategory, scores⟩ else ⟨bestCategory, scores⟩

end KeywordClassifier

end Spork
